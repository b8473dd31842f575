import RunMesh.Integrity

/-!
# Readiness

A task that is not cancelled is blocked exactly as long as one of its upstreams has not
succeeded (`ExactlyReady`). Three places decide it : the statuses of a new run, the wake-up
of a completion, and the rebuild of a replay. Every other move keeps whether a task is
blocked and whether it has succeeded, unless it cancels it.

A task that can be claimed is available (`Available`) : its `available_at` has passed.
-/

namespace RunMesh

variable {env : Env} {op : Op} {db db' : Db}

/-- Blocked exactly while an upstream has not succeeded. -/
def ExactlyReady (db : Db) : Prop :=
  ∀ t ∈ db.taskRuns, t.status ≠ .cancelled →
    (t.status = .blocked ↔ ∃ u ∈ db.upstream db.taskRuns t, u.status ≠ .succeeded)

/-- The rebuild of a replay reads the statuses from before it : the revived task had not
succeeded and has not. -/
theorem hasUnfinishedUpstream_revived {t u : TaskRun} (hk : db.Keyed) (hu : u ∈ db.taskRuns)
    (hdead : u.status = .dead) :
    db.hasUnfinishedUpstream (revived env db u) t = true ↔
      ∃ v ∈ db.upstream db.taskRuns t, v.status ≠ .succeeded := by
  rw [Db.hasUnfinishedUpstream_iff, revived, Table.update]
  simp only [Db.mem_upstream_map (f := fun r => if decide (r.id = u.id) then revive env r
    else r) (fun v => by split_ifs <;> rfl)]
  constructor
  · rintro ⟨_, ⟨v, hv, rfl⟩, hne⟩
    refine ⟨v, hv, ?_⟩
    by_cases hid : v.id = u.id
    · rw [Table.eq_of_key hk.tasks (Db.mem_upstream.1 hv).1 hu hid, hdead]
      simp
    · simpa [hid] using hne
  · rintro ⟨v, hv, hne⟩
    refine ⟨_, ⟨v, hv, rfl⟩, ?_⟩
    by_cases hid : v.id = u.id
    · simp [hid, revive]
    · simpa [hid] using hne

namespace TaskMove

variable {t t' : TaskRun}

/-- Whether a task is blocked changes only when it is woken, cancelled or rebuilt. -/
theorem blocked_iff (h : TaskMove env db op t t')
    (hop : ∀ id w o a logs, op ≠ .completeTask id w o a logs) (hst : t.status ≠ .cancelled)
    (hst' : t'.status ≠ .cancelled) : t'.status = .blocked ↔ t.status = .blocked := by
  cases h with
  | keep => rfl
  | promote h => simp [h]
  | @expire _ _ r h =>
    have hact := (mem_expiredLeases h).2.2.2.1
    have hne : t.status ≠ .blocked := fun hb => by simp [hb, TaskStatus.active] at hact
    rcases expiryStatus_cases (t, r) with h | h | h <;> simp [endLease, h.1, hne]
  | dispatch h => simp [(mem_readyTasks h).2.2.2.1]
  | lease h => simp [h, RunMesh.lease]
  | start _ h => simp [h]
  | renew => rfl
  | succeed => exact absurd rfl (hop _ _ _ _ _)
  | wake => exact absurd rfl (hop _ _ _ _ _)
  | @fail _ f _ r _ h =>
    have hne : t.status ≠ .blocked := fun hb => by simp [hb, TaskStatus.active] at h
    rcases reportStatus_cases f t r with h | h | h <;> simp [endLease, h.1, hne]
  | failSibling => exact absurd rfl hst'
  | cancel => exact absurd rfl hst'
  | retry _ _ _ h => simp [h, revive]
  | replay _ _ _ h => simp [h, revive]
  | rebuild _ _ _ _ _ _ h => exact absurd h hst

end TaskMove

namespace Moves

/-- The upstreams of a task after a call are its upstreams before, moved. -/
theorem exists_upstream_iff (h : Moves env op db db') {t t' : TaskRun} (hid : t'.id = t.id)
    {P Q : TaskRun → Prop} (hPQ : ∀ u u', TaskMove env db op u u' → (P u' ↔ Q u)) :
    (∃ u ∈ db'.upstream db'.taskRuns t', P u) ↔ ∃ u ∈ db.upstream db.taskRuns t, Q u := by
  simp only [Db.mem_upstream, h.dependencies, hid]
  constructor
  · rintro ⟨u', ⟨hu', d, hd, hdt, hdu⟩, hP⟩
    obtain ⟨u, hu, hmove⟩ := h.of_mem_task hu'
    exact ⟨u, ⟨hu, d, hd, hdt, hdu.trans hmove.id⟩, (hPQ u u' hmove).1 hP⟩
  · rintro ⟨u, ⟨hu, d, hd, hdt, hdu⟩, hQ⟩
    obtain ⟨u', hu', hmove⟩ := h.mem_task hu
    exact ⟨u', ⟨hu', d, hd, hdt, hdu.trans hmove.id.symm⟩, (hPQ u u' hmove).2 hQ⟩

/-- A call that completes no task keeps readiness. -/
theorem exactlyReady (h : Moves env op db db') (hk : db.Keyed)
    (hop : ∀ id w o a logs, op ≠ .completeTask id w o a logs) (hr : ExactlyReady db) :
    ExactlyReady db' := by
  intro t' ht' hst'
  obtain ⟨t, ht, hmove⟩ := h.of_mem_task ht'
  rw [h.exists_upstream_iff hmove.id fun u u' hu => not_congr (hu.succeeded_iff hop)]
  by_cases hst : t.status = .cancelled
  · rcases hmove.eq_or_rebuild_of_cancelled hst with
      rfl | ⟨_, _, u, hu, _, _, rfl, hdead, _, _, _, rfl⟩
    · exact absurd hst hst'
    · have hunf : db.hasUnfinishedUpstream (revived env db u) t = true ↔ _ :=
        hasUnfinishedUpstream_revived hk hu hdead
      rw [← hunf, rebuild]
      split_ifs with hb hlater <;> simp [hb]
  · rw [hmove.blocked_iff hop hst hst']
    exact hr t ht hst

end Moves

/-! ## Completion -/

theorem completeRow_id {u : TaskRun} {o a : String} (t : TaskRun) :
    (completeRow env db u o a t).id = t.id := by
  unfold completeRow
  split_ifs <;> rfl

/-- What is left of the upstreams of a task after the completion of `u`. -/
theorem completeRow_unfinished {u t t' : TaskRun} {o a : String}
    (htasks : db'.taskRuns = db.taskRuns.map (completeRow env db u o a))
    (hdeps : db'.taskDependencies = db.taskDependencies) (hid : t'.id = t.id) :
    (∃ v ∈ db'.upstream db'.taskRuns t', v.status ≠ .succeeded) ↔
      ∃ v ∈ db.upstream db.taskRuns t, v.id ≠ u.id ∧ v.status ≠ .succeeded := by
  have hup : db'.upstream db'.taskRuns t' =
      db.upstream (db.taskRuns.map (completeRow env db u o a)) t := by
    simp only [Db.upstream, hdeps, htasks, hid]
  have hrow : ∀ v, (completeRow env db u o a v).status ≠ .succeeded ↔
      v.id ≠ u.id ∧ v.status ≠ .succeeded := by
    intro v
    unfold completeRow
    split_ifs with hv hw
    · simp [hv, succeed]
    · simp [hv, hw.2.1, wake]
    · simp [hv]
  rw [hup]
  simp only [Db.mem_upstream_map completeRow_id]
  constructor
  · rintro ⟨_, ⟨v, hv, rfl⟩, hne⟩
    exact ⟨v, hv, (hrow v).1 hne⟩
  · rintro ⟨v, hv, hne⟩
    exact ⟨_, ⟨v, hv, rfl⟩, (hrow v).2 hne⟩

/-- A completion keeps readiness : it wakes exactly the tasks it was the last upstream
of. -/
theorem completeTask_exactlyReady (hw : db.WellFormed) {id : ℕ} {w o a : String}
    {logs : List String} {t' : TaskRun} (h : completeTask env id w o a logs db = .ok (t', db'))
    (hr : ExactlyReady db) : ExactlyReady db' := by
  obtain ⟨u, r, hheld, -, hst, -, o', -, hdb⟩ := completeTask_ok hw.toKeyed h
  have htasks : db'.taskRuns = db.taskRuns.map (completeRow env db u o' a) := by rw [hdb]
  intro t' ht' hst'
  rw [htasks] at ht'
  obtain ⟨t, ht, rfl⟩ := List.mem_map.1 ht'
  rw [completeRow_unfinished htasks (by rw [hdb]) (completeRow_id t)]
  unfold completeRow at hst' ⊢
  split_ifs at hst' ⊢ with hid hwake
  · -- the completed task was running, so its own upstreams have succeeded
    have hnone := hr u hheld.mem (by simp [hst])
    rw [Table.eq_of_key hw.tasks ht hheld.mem hid]
    simp only [hst, reduceCtorEq, false_iff] at hnone
    simp only [succeed, reduceCtorEq, false_iff]
    rintro ⟨v, hv, -, hne⟩
    exact hnone ⟨v, hv, hne⟩
  · simp only [wake, reduceCtorEq, false_iff]
    rintro ⟨v, hv, hne, hns⟩
    exact (hwake.2.2.2 v hv).elim hne hns
  · rw [hr t ht hst']
    constructor
    · rintro ⟨v, hv, hne⟩
      -- otherwise only the completed task was missing, and it would have been woken
      by_contra hnone
      have honly : ∀ x ∈ db.upstream db.taskRuns t, x.id = u.id ∨ x.status = .succeeded := by
        intro x hx
        by_contra hx'
        exact hnone ⟨x, hx, not_or.1 hx'⟩
      obtain ⟨hmem, d, hd, hdt, hdv⟩ := Db.mem_upstream.1 hv
      have hvu : v.id = u.id := (honly v hv).resolve_right hne
      refine hwake ⟨?_, (hr t ht hst').2 ⟨v, hv, hne⟩, ⟨d, hd, hdt, hdv.trans hvu⟩, honly⟩
      rw [← hw.upstream_run ht hv, Table.eq_of_key hw.tasks hmem hheld.mem hvu]
    · rintro ⟨v, hv, -, hne⟩
      exact ⟨v, hv, hne⟩

/-! ## A new run -/

/-- A new run is exactly ready : a task is blocked if it has a dependency, and no task has
succeeded yet. -/
theorem Creates.exactlyReady {run : Run} {dag : DAG} (h : Creates env op db db' run dag)
    (hf : db.Fresh env) (hw : db.WellFormed) (hr : ExactlyReady db) : ExactlyReady db' := by
  have hw' := h.wellFormed hf hw
  intro t ht hst
  rw [h.tasks, List.mem_append, List.mem_map] at ht
  rcases ht with ht | ⟨⟨key, spec⟩, hentry, rfl⟩
  · rw [hr t ht hst]
    have hup : ∀ u, u ∈ db'.upstream db'.taskRuns t ↔ u ∈ db.upstream db.taskRuns t := by
      intro u
      have hdep := h.dependsOn_old hf ht u.id
      rw [Db.mem_upstream, Db.mem_upstream]
      constructor
      · rintro ⟨hu, hd⟩
        obtain ⟨d, hmem, hdt, hdu⟩ := hdep.1 hd
        obtain ⟨-, v, hv, hid, -⟩ := hw.edge d hmem
        rw [← Table.eq_of_key hw'.tasks (h.task_mem hv) hu (hid.trans hdu)]
        exact ⟨hv, d, hmem, hdt, hid.symm⟩
      · rintro ⟨hu, hd⟩
        exact ⟨h.task_mem hu, hdep.2 hd⟩
    simp only [hup]
  · have hstatus : (newTaskRun env run dag (key, spec)).status = .blocked ↔
        spec.dependsOn ≠ [] := by
      simp only [newTaskRun, withDefaults]
      split_ifs with hlen <;> simpa [List.length_eq_zero_iff] using hlen
    rw [hstatus]
    constructor
    · intro hne
      obtain ⟨dep, hdep⟩ := List.exists_mem_of_ne_nil _ hne
      obtain ⟨⟨k, dspec⟩, hdentry, hk⟩ := List.mem_map.1 (h.dep_mem_keys hentry hdep)
      refine ⟨_, Db.mem_upstream.2 ⟨h.newTask_mem hdentry, ?_⟩, ?_⟩
      · refine ⟨⟨run.id, taskId env dag key, taskId env dag dep⟩, ?_, rfl, by rw [← hk]; rfl⟩
        rw [h.dependencies]
        exact List.mem_append_right _ (mem_newDependencies.2 ⟨_, hentry, dep, hdep, rfl⟩)
      · simp only [newTaskRun]
        split_ifs <;> simp
    · rintro ⟨u, hu, -⟩ hnil
      obtain ⟨-, d, hd, hdt, -⟩ := Db.mem_upstream.1 hu
      obtain ⟨dep, hdep, -, -⟩ :=
        h.dependsOn_new hf hw (List.mem_map_of_mem hentry) ⟨d, hd, hdt, rfl⟩
      rw [DAG.DependsOn, dag.dependsOn_of_mem hentry, hnil] at hdep
      simp at hdep

theorem Moves.exactlyReady_of_exec (hm : Moves env op db db') (hw : db.WellFormed) {reply : Reply}
    (h : op.exec env db = .ok (reply, db')) (hr : ExactlyReady db) : ExactlyReady db' := by
  by_cases hop : ∀ id w o a logs, op ≠ .completeTask id w o a logs
  · exact hm.exactlyReady hw.toKeyed hop hr
  · simp only [not_forall, not_not] at hop
    obtain ⟨id, w, o, a, logs, rfl⟩ := hop
    simp only [Op.exec, Fallible.map_eq_ok, Prod.mk.injEq] at h
    obtain ⟨⟨t', _⟩, hok, -, rfl⟩ := h
    exact completeTask_exactlyReady hw hok hr

theorem exec_exactlyReady (hw : db.WellFormed) (hf : db.Fresh env) {reply : Reply}
    (h : op.exec env db = .ok (reply, db')) (hr : ExactlyReady db) : ExactlyReady db' := by
  rcases exec_moves hw.toKeyed h with hm | ⟨run, dag, hc⟩
  · exact hm.exactlyReady_of_exec hw h hr
  · exact hc.exactlyReady hf hw hr

theorem Reachable.exactlyReady {s : State} (h : Reachable s) : ExactlyReady s.db :=
  (h.induction (P := fun db => db.WellFormed ∧ ExactlyReady db)
    (fun _ h0 => ⟨h0.wellFormed, by simp [ExactlyReady, h0.taskRuns]⟩)
    fun _ _ _ _ hP hf hok =>
      ⟨exec_wellFormed hP.1 hf hok, exec_exactlyReady hP.1 hf hok hP.2⟩).2

/-! ## Availability -/

/-- What can be claimed is available. -/
def Available (s : State) : Prop :=
  ∀ t ∈ s.db.taskRuns, t.status = .ready ∨ t.status = .dispatching → t.availableAt ≤ s.clock

/-- A task a call makes ready is available. -/
theorem TaskMove.available {t t' : TaskRun} (h : TaskMove env db op t t')
    (hav : t.status = .ready → t.availableAt ≤ env.now) (hst' : t'.status = .ready) :
    t'.availableAt ≤ env.now := by
  cases h with
  | keep => exact hav hst'
  | promote _ hdue => exact hdue
  | @expire _ _ r =>
    rcases expiryStatus_cases (t, r) with hc | hc | hc <;> simp [endLease, hc.1] at hst'
  | renew => exact hav hst'
  | @fail _ f _ r =>
    rcases reportStatus_cases f t r with hc | hc | hc <;> simp [endLease, hc.1] at hst'
  | wake | retry | replay => exact le_refl _
  | rebuild =>
    simp only [RunMesh.rebuild] at hst' ⊢
    split_ifs at hst' with hb hlater
    exact not_lt.1 hlater
  | _ => cases hst'

/-- A task a call dispatches is available. -/
theorem TaskMove.available_of_dispatching {t t' : TaskRun} (h : TaskMove env db op t t')
    (hav : t.status = .dispatching → t.availableAt ≤ env.now)
    (hst' : t'.status = .dispatching) : t'.availableAt ≤ env.now := by
  cases h with
  | keep => exact hav hst'
  | dispatch he => exact (mem_readyTasks he).2.2.2.2
  | @expire _ _ r =>
    rcases expiryStatus_cases (t, r) with hc | hc | hc <;> simp [endLease, hc.1] at hst'
  | renew => exact hav hst'
  | @fail _ f _ r =>
    rcases reportStatus_cases f t r with hc | hc | hc <;> simp [endLease, hc.1] at hst'
  | rebuild =>
    simp only [RunMesh.rebuild] at hst'
    split_ifs at hst'
  | _ => cases hst'

theorem Reachable.available {s : State} (h : Reachable s) : Available s := by
  refine h.induction_next (fun s h0 => by simp [Available, h0.taskRuns]) fun s c hs hc hav => ?_
  have hdue : ∀ t ∈ s.db.taskRuns, t.status = .ready ∨ t.status = .dispatching →
      t.availableAt ≤ c.env.now := fun t ht hst => (hav t ht hst).trans hc.1
  refine controlPlane_step (P := fun db => ∀ t ∈ db.taskRuns,
    t.status = .ready ∨ t.status = .dispatching → t.availableAt ≤ c.env.now) hdue ?_
  intro reply db' hok t' ht' hst'
  rcases exec_moves hs.wellFormed.toKeyed hok with hm | ⟨run, dag, hcr⟩
  · obtain ⟨t, ht, hmove⟩ := hm.of_mem_task ht'
    rcases hst' with hst' | hst'
    · exact hmove.available (fun hst => hdue t ht (.inl hst)) hst'
    · exact hmove.available_of_dispatching (fun hst => hdue t ht (.inr hst)) hst'
  · rw [hcr.tasks, List.mem_append, List.mem_map] at ht'
    rcases ht' with ht' | ⟨entry, -, rfl⟩
    · exact hdue t' ht' hst'
    · exact le_refl _

/-- Exact readiness : in every reachable state a task that is not cancelled is blocked if
and only if one of its upstreams has not succeeded. So a task that is dispatched, leased or
running has all its upstreams behind it, and no task stays blocked after the last of them. -/
theorem exact_readiness {s : State} (h : Reachable s) {t : TaskRun} (ht : t ∈ s.db.taskRuns) :
    (t.status ≠ .cancelled →
      (t.status = .blocked ↔ ∃ u ∈ s.db.upstream s.db.taskRuns t, u.status ≠ .succeeded)) ∧
    (t.status = .dispatching ∨ t.status.active = true →
      ∀ u ∈ s.db.upstream s.db.taskRuns t, u.status = .succeeded) ∧
    ((∀ u ∈ s.db.upstream s.db.taskRuns t, u.status = .succeeded) → t.status ≠ .blocked) := by
  have hiff := h.exactlyReady t ht
  refine ⟨hiff, fun hst u hu => ?_, fun hall hb => ?_⟩
  · by_contra hne
    have hc : t.status ≠ .cancelled := by
      rintro hc
      simp [hc, TaskStatus.active] at hst
    have hb := (hiff hc).2 ⟨u, hu, hne⟩
    simp [hb, TaskStatus.active] at hst
  · obtain ⟨u, hu, hne⟩ := (hiff (by simp [hb])).1 hb
    exact hne (hall u hu)

/-- A task with no dependencies, three attempts and five minutes. -/
def plainTask (handler : String) (dependsOn : List String) : TaskSpec :=
  ⟨handler, dependsOn, 0, 0, 0⟩

/-- Two tasks, the second after the first. -/
def chainDag : DAG where
  name := "chain"
  tasks := [("a", plainTask "examples.greet" []), ("b", plainTask "examples.upper" ["a"])]
  nodup := by decide

/-- Two tasks, neither waiting for the other. -/
def pairDag : DAG where
  name := "pair"
  tasks := [("a", plainTask "examples.greet" []), ("b", plainTask "examples.upper" [])]
  nodup := by decide

/-- A database with these two definitions. -/
def twoDefinitions : State where
  db := ⟨[⟨1, 1, "chain", 1, chainDag, none, 0⟩, ⟨2, 1, "pair", 1, pairDag, none, 0⟩],
    [], [], [], [], [], [], []⟩
  clock := 0

theorem init_twoDefinitions : Init twoDefinitions where
  workflowRuns := rfl
  taskRuns := rfl
  taskDependencies := rfl
  taskAttempts := rfl
  outboxEvents := rfl
  accepted := by decide

/-- A new run of the chain. -/
def chainStarted : State :=
  twoDefinitions.after [(1, .createRun 1 none 1 "k" "" none)]

theorem exact_readiness_chain :
    ∃ t ∈ chainStarted.db.taskRuns, t.status = .blocked ∧
      ∃ u ∈ chainStarted.db.upstream chainStarted.db.taskRuns t, u.status ≠ .succeeded := by
  have hr : Reachable chainStarted := reachable_after init_twoDefinitions (by decide)
  obtain ⟨t, ht, hb⟩ : ∃ t ∈ chainStarted.db.taskRuns, t.status = .blocked := by decide
  exact ⟨t, ht, hb, ((exact_readiness hr ht).1 (by simp [hb])).1 hb⟩

end RunMesh
