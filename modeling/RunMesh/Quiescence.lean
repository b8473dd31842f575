import RunMesh.Readiness

/-!
# Failed runs

A failed run should be at rest : it has a dead task, and no task that waits to be
dispatched (`FailedQuiescent`), so none is dispatched or leased until the run is reopened.

`failTask` cancels the waiting tasks of the run it fails, but it still sends a task of a
failed run to wait for a retry if attempts are left. `recoverExpired` does so too, and it
cancels nothing when it fails a run. `Quiets` says what a call has to avoid, and
`failed_run_quiescent_iff` that this is exact : failed runs are quiescent in every state of
a history exactly when all its calls avoid it.
-/

namespace RunMesh

open Fallible

variable {env : Env} {op : Op} {db db' : Db}

/-- A failed run has a dead task and no waiting one. -/
def FailedQuiescent (db : Db) : Prop :=
  ∀ r ∈ db.workflowRuns, r.status = .failed →
    (∃ t ∈ db.taskRuns, t.workflowRunId = r.id ∧ t.status = .dead) ∧
    ∀ t ∈ db.taskRuns, t.workflowRunId = r.id → t.status.waiting = false

instance : Decidable (FailedQuiescent db) := inferInstanceAs (Decidable (∀ r ∈ _, _))

/-- No attempt of the task is left. -/
def TaskRun.exhausted (t : TaskRun) : Prop :=
  t.maximumAttempts ≤ t.attemptCount

/-- A recovery ends leases of a failed run, or of a run it fails, only for tasks without
attempts left, and it fails only runs without waiting tasks. A retryable failure is not
reported for a task of a failed run with attempts left. -/
def Quiets (env : Env) (db : Db) : Op → Prop
  | .recoverExpired scan =>
    ∀ t r, (t, r) ∈ expiredLeases env scan db →
      (r.status = .failed → t.exhausted) ∧
      (r.status = .running → t.exhausted →
        (∀ u ∈ db.taskRuns, u.workflowRunId = r.id → u.status.waiting = false) ∧
        ∀ u q, (u, q) ∈ expiredLeases env scan db → q.id = r.id → u.exhausted)
  | .failTask taskId workerId f =>
    ∀ t r, Holds env db workerId t r → t.id = taskId → t.status.active = true →
      r.status = .failed → f.retryable = true → t.exhausted
  | _ => True

/-- No task of a failed run is dispatched or leased between the two states. -/
def Unserved (db db' : Db) : Prop :=
  ∀ r ∈ db.workflowRuns, r.status = .failed → ∀ t ∈ db.taskRuns, t.workflowRunId = r.id →
    ∀ t' ∈ db'.taskRuns, t'.id = t.id → t'.status ≠ .dispatching ∧ t'.attemptCount = t.attemptCount

/-! ## Reopening -/

/-- The run of a replayed task is not failed. -/
theorem replayDead_status (hk : db.Keyed) {tenant : ℕ} {user : Option ℕ} {t : TaskRun}
    (ht : t ∈ db.taskRuns) (h : replayDead env tenant user t.id db = .ok db') {r' : Run}
    (hr' : r' ∈ db'.workflowRuns) (hid : r'.id = t.workflowRunId) : r'.status ≠ .failed := by
  obtain ⟨u, hu, q, -, hut, -, -, -, hdb⟩ := replayDead_ok h
  rw [hdb] at hr'
  obtain ⟨r, -, rfl⟩ := List.mem_map.1 hr'
  rw [Table.eq_of_key hk.tasks hu ht hut] at hid ⊢
  unfold reopenRun at hid ⊢
  split_ifs at hid ⊢ with hr
  · simp
  · exact fun hfailed => hr ⟨hid, hfailed⟩

/-! ## One call -/

/-- A dead task of a failed run stays dead, unless the run is reopened. -/
theorem exec_dead (hk : db.Keyed) {reply : Reply} (h : op.exec env db = .ok (reply, db'))
    {t t' : TaskRun} (ht : t ∈ db.taskRuns) (hmove : TaskMove env db op t t')
    (hdead : t.status = .dead) {r' : Run} (hr' : r' ∈ db'.workflowRuns)
    (hrid : r'.id = t.workflowRunId) (hfailed : r'.status = .failed) : t'.status = .dead := by
  rcases hmove.eq_or_movesFrom with rfl | hfrom
  · exact hdead
  · cases hmove with
    | keep => exact hdead
    | retry =>
      simp only [Op.exec, map_eq_ok, Prod.mk.injEq] at h
      obtain ⟨_, hok, -, rfl⟩ := h
      simp [retryRun_status hok hr' hrid] at hfailed
    | replay =>
      simp only [Op.exec, map_eq_ok, Prod.mk.injEq] at h
      obtain ⟨_, hok, -, rfl⟩ := h
      exact absurd hfailed (replayDead_status hk ht hok hr' hrid)
    | rebuild _ _ _ _ _ _ hst => simp [hst] at hdead
    | _ => simp [Op.movesFrom, hdead, TaskStatus.active, TaskStatus.waiting] at hfrom

/-- A task of a run that stays failed does not start to wait. -/
theorem exec_idle (hk : db.Keyed) {reply : Reply} (h : op.exec env db = .ok (reply, db'))
    (hquiets : Quiets env db op) {r : Run} (hr : r ∈ db.workflowRuns) (hfailed : r.status = .failed)
    (hr' : r ∈ db'.workflowRuns) {t t' : TaskRun} (ht : t ∈ db.taskRuns)
    (hmove : TaskMove env db op t t') (hrid : t.workflowRunId = r.id)
    (hidle : t.status.waiting = false) : t'.status.waiting = false := by
  have hrun : ∀ q ∈ db.workflowRuns, q.id = t.workflowRunId → q = r := fun q hq hqid =>
    Table.eq_of_key hk.runs hq hr (hqid.trans hrid)
  rw [← Bool.not_eq_true] at hidle ⊢
  intro hwait
  rcases hmove.of_waiting ht hwait with hw | ⟨scan, q, rfl, he, -, hleft⟩ |
    ⟨w, f, q, rfl, hheld, hact, -, hretry, hleft⟩ | ⟨_, _, q, hq, rfl, hqid, -⟩ |
    ⟨_, _, u, hu, q, hq, rfl, hqid, -, -, hrun'⟩
  · exact hidle hw
  · obtain ⟨-, hq, hqid, -⟩ := mem_expiredLeases he
    exact absurd ((hquiets t q he).1 (hrun q hq hqid ▸ hfailed)) (not_le.2 hleft)
  · exact absurd (hquiets t q hheld rfl hact (hrun q hheld.run hheld.runId ▸ hfailed) hretry)
      (not_le.2 hleft)
  · simp only [Op.exec, map_eq_ok, Prod.mk.injEq] at h
    obtain ⟨_, hok, -, rfl⟩ := h
    simp [retryRun_status hok hr' hrid.symm] at hfailed
  · simp only [Op.exec, map_eq_ok, Prod.mk.injEq] at h
    obtain ⟨_, hok, -, rfl⟩ := h
    exact replayDead_status hk hu hok hr' (hrid.symm.trans hrun') hfailed

/-- A run failed by a recovery that quiets is quiescent. -/
theorem recoverExpired_quiescent (hk : db.Keyed) {scan : Scan} {t : TaskRun} {r₀ r : Run}
    (he : (t, r₀) ∈ expiredLeases env scan db) (hr : r ∈ db.workflowRuns)
    (hrid : t.workflowRunId = r.id) (hdead : expiryStatus (t, r₀) = .dead)
    (hrun : r.status = .running) (hquiets : Quiets env db (.recoverExpired scan)) :
    (∃ t' ∈ (recoverExpired env scan db).taskRuns, t'.workflowRunId = r.id ∧ t'.status = .dead) ∧
    ∀ t' ∈ (recoverExpired env scan db).taskRuns, t'.workflowRunId = r.id →
      t'.status.waiting = false := by
  obtain ⟨ht, hr₀, hrid₀, -⟩ := mem_expiredLeases he
  obtain rfl := Table.eq_of_key hk.runs hr₀ hr (hrid₀.trans hrid)
  have hexh : t.exhausted := by
    rcases expiryStatus_cases (t, r₀) with hc | hc | hc
    · simp [hc.1] at hdead
    · simp [hc.1] at hdead
    · exact hc.2.2
  obtain ⟨hidle, hall⟩ := (hquiets t r₀ he).2 hrun hexh
  constructor
  · rw [recoverExpired_eq]
    refine ⟨_, List.mem_map_of_mem ht, ?_⟩
    rw [expireRow_of_mem (nodup_expiredLeases hk scan) he]
    exact ⟨hrid, hdead⟩
  · intro t' ht' hrid'
    obtain ⟨s, hs, hmove⟩ := (recoverExpired_moves hk scan).of_mem_task ht'
    rw [hmove.workflowRunId] at hrid'
    rw [← Bool.not_eq_true]
    intro hwait
    rcases hmove.of_waiting hs hwait with hw | ⟨scan', q, hop, hq, -, hleft⟩ |
      ⟨_, _, _, hop, -⟩ | ⟨_, _, _, _, hop, -⟩ | ⟨_, _, _, _, _, _, hop, -⟩
    · simp [hidle s hs hrid'] at hw
    · obtain rfl : scan = scan' := by simpa using hop
      exact absurd (hall s q hq ((mem_expiredLeases hq).2.2.1.trans hrid')) (not_le.2 hleft)
    all_goals simp at hop

/-- A run failed by a report is quiescent. -/
theorem failTask_quiescent (hk : db.Keyed) {w : String} {f : Failure} {t t₁ : TaskRun} {r : Run}
    (hheld : Holds env db w t r) (hdead : reportStatus f t r = .dead)
    (h : failTask env t.id w f db = .ok (t₁, db')) :
    (∃ t' ∈ db'.taskRuns, t'.workflowRunId = r.id ∧ t'.status = .dead) ∧
    ∀ t' ∈ db'.taskRuns, t'.workflowRunId = r.id → t'.status.waiting = false := by
  obtain ⟨s, q, hheld', hid, -, -, hdb⟩ := failTask_ok hk h
  obtain ⟨rfl, rfl⟩ := hheld.unique hk hheld' hid
  rw [hdb]
  constructor
  · refine ⟨_, List.mem_map_of_mem hheld.mem, ?_⟩
    simp [failRow, endLease, hdead, hheld.runId]
  · intro t' ht' hrid
    obtain ⟨u, -, rfl⟩ := List.mem_map.1 ht'
    rw [hheld.runId] at hrid
    unfold failRow cancelWaiting at hrid ⊢
    split_ifs at hrid ⊢ with hus hwait
    · simp [endLease, hdead, TaskStatus.waiting]
    · rfl
    · simpa [hrid] using hwait

/-- A call that quiets keeps failed runs quiescent. -/
theorem exec_failedQuiescent (hw : db.WellFormed) (hf : db.Fresh env) {reply : Reply}
    (h : op.exec env db = .ok (reply, db')) (hquiets : Quiets env db op)
    (hq : FailedQuiescent db) : FailedQuiescent db' := by
  intro r' hr' hfailed
  rcases exec_moves hw.toKeyed h with hm | ⟨run, dag, hc⟩
  · obtain ⟨r, hr, hmove⟩ := hm.of_mem_run hr'
    cases hmove with
    | keep =>
      obtain ⟨⟨t, ht, hrid, hdead⟩, hidle⟩ := hq r' hr hfailed
      constructor
      · obtain ⟨t', ht', htm⟩ := hm.mem_task ht
        exact ⟨t', ht', htm.workflowRunId.trans hrid,
          exec_dead hw.toKeyed h ht htm hdead hr' hrid.symm hfailed⟩
      · intro t' ht' hrid'
        obtain ⟨s, hs, htm⟩ := hm.of_mem_task ht'
        rw [htm.workflowRunId] at hrid'
        exact exec_idle hw.toKeyed h hquiets hr hfailed hr' hs htm hrid' (hidle s hs hrid')
    | expire he hrid hdead hrun =>
      simp only [Op.exec, Except.ok.injEq, Prod.mk.injEq] at h
      obtain ⟨-, rfl⟩ := h
      have := recoverExpired_quiescent hw.toKeyed he hr hrid hdead hrun hquiets
      exact this
    | fail hheld _ hdead =>
      simp only [Op.exec, map_eq_ok, Prod.mk.injEq] at h
      obtain ⟨⟨t₁, _⟩, hok, -, rfl⟩ := h
      have := failTask_quiescent hw.toKeyed hheld hdead hok
      exact this
    | _ => cases hfailed
  · rw [hc.runs, List.mem_append, List.mem_singleton] at hr'
    rcases hr' with hr | rfl
    · obtain ⟨⟨t, ht, hdead⟩, hidle⟩ := hq r' hr hfailed
      exact ⟨⟨t, hc.task_mem ht, hdead⟩,
        fun t' ht' hrid => hidle t' (hc.mem_of_old hf hr ht' hrid) hrid⟩
    · simp [hc.status] at hfailed

/-- A recovery that leaves failed runs quiescent quiets. -/
theorem quiets_of_recoverExpired (hk : db.Keyed) {scan : Scan}
    (hq : FailedQuiescent (recoverExpired env scan db)) :
    Quiets env db (.recoverExpired scan) := by
  rw [recoverExpired_eq] at hq
  -- a task with attempts left waits afterwards
  have hwaits : ∀ t r, (t, r) ∈ expiredLeases env scan db → r.status ≠ .cancelled →
      ¬t.exhausted → (expireRow env (expiredLeases env scan db) t).status.waiting = true := by
    intro t r he hne hleft
    rw [expireRow_of_mem (nodup_expiredLeases hk scan) he]
    rcases expiryStatus_cases (t, r) with hc | hc | hc
    · exact absurd hc.2 hne
    · simp [endLease, hc.1, TaskStatus.waiting]
    · exact absurd hc.2.2 hleft
  have hrow : ∀ t, (expireRow env (expiredLeases env scan db) t).workflowRunId =
      t.workflowRunId := fun t => (expireRow_key _ t).2
  intro t r he
  obtain ⟨ht, hr, hrid, -⟩ := mem_expiredLeases he
  constructor
  · intro hfailed
    by_contra hleft
    have hsame : expireRunRow env (expiredLeases env scan db) r = r := by
      rw [expireRunRow_eq, if_neg (by simp [hfailed])]
    have := (hq r (hsame ▸ List.mem_map_of_mem hr) hfailed).2 _ (List.mem_map_of_mem ht)
      ((hrow t).trans hrid.symm)
    simp [hwaits t r he (by simp [hfailed]) hleft] at this
  · intro hrun hexh
    have hdead : expiryStatus (t, r) = .dead := by
      rcases expiryStatus_cases (t, r) with hc | hc | hc
      · simp [hrun] at hc
      · exact absurd hexh (not_le.2 hc.2.2)
      · exact hc.1
    have hfails : expireRunRow env (expiredLeases env scan db) r =
        { r with status := .failed, completedAt := some env.now } := by
      rw [expireRunRow_eq, if_pos ⟨hrun, _, he, hdead, hrid.symm⟩]
    have hidle := (hq _ (List.mem_map_of_mem hr) (by rw [hfails])).2
    rw [hfails] at hidle
    constructor
    · intro u hu hurun
      by_contra hwait
      have hkeep : expireRow env (expiredLeases env scan db) u = u := by
        refine expireRow_of_notMem fun e he' hid => hwait ?_
        obtain ⟨hmem, -, -, hact, -⟩ := mem_expiredLeases he'
        rw [← Table.eq_of_key hk.tasks hmem hu hid]
        cases hst : e.1.status <;> simp_all [TaskStatus.active, TaskStatus.waiting]
      exact hwait (hidle u (hkeep ▸ List.mem_map_of_mem hu) hurun)
    · intro u q hu hqid
      by_contra hleft
      obtain ⟨hmem, hqr, hqid', -⟩ := mem_expiredLeases hu
      obtain rfl := Table.eq_of_key hk.runs hqr hr hqid
      have := hidle _ (List.mem_map_of_mem hmem) ((hrow u).trans hqid'.symm)
      simp [hwaits u q hu (by simp [hrun]) hleft] at this

/-- A worker with a lease can report a failure. -/
theorem failTask_of_holds {w : String} {t : TaskRun} {r : Run} (hheld : Holds env db w t r)
    (hact : t.status.active = true) (f : Failure) :
    ∃ t' db', failTask env t.id w f db = .ok (t', db') := by
  obtain ⟨tr, hfind⟩ : ∃ tr, (db.tasksWithRun.find? fun tr =>
      heldBy env t.id w tr.1 && tr.1.status.active) = some tr :=
    Table.exists_find?_join hheld.mem hheld.run hheld.runId
      (by simp [heldBy_iff, hheld.owner, hheld.unexpired, hact])
  obtain ⟨t', ht'⟩ := Table.exists_head?_returning
    (p := fun s : TaskRun => decide (s.id = t.id ∧ s.leaseOwner = some w)) hheld.mem
    (by simp [hheld.owner])
    (endLease env (reportStatus f tr.1 tr.2)
      (failureAvailable env (reportStatus f tr.1 tr.2) tr.1.attemptCount))
  simp only [failTask, bind_eq_ok, orError_eq_ok]
  exact ⟨t', _, tr, hfind, t', ht', rfl⟩

/-- A report that leaves failed runs quiescent quiets. -/
theorem quiets_of_failTask (hk : db.Keyed) {id : ℕ} {w : String} {f : Failure}
    (hq : ∀ t' db', failTask env id w f db = .ok (t', db') → FailedQuiescent db') :
    Quiets env db (.failTask id w f) := by
  rintro t r hheld rfl hact hfailed hretry
  by_contra hleft
  obtain ⟨t', db', hok⟩ := failTask_of_holds hheld hact f
  obtain ⟨s, q, hheld', hid, -, -, hdb⟩ := failTask_ok hk hok
  obtain ⟨rfl, rfl⟩ := hheld.unique hk hheld' hid
  have hst : reportStatus f s q = .retryWait := by
    rcases reportStatus_cases f s q with hc | hc | hc
    · simp [hfailed] at hc
    · exact hc.1
    · exact absurd ⟨hretry, not_le.1 hleft⟩ hc.2.2
  have hrow : (failRow env f s q s).status.waiting = true := by
    simp [failRow, endLease, hst, TaskStatus.waiting]
  have := (hq t' db' hok q (by rw [hdb]; simpa [hst] using hheld.run) hfailed).2
    (failRow env f s q s) (by rw [hdb]; exact List.mem_map_of_mem hheld.mem)
    (by simp [failRow, endLease, hheld.runId])
  simp [hrow] at this

/-- From a state with quiescent failed runs, a call keeps them so exactly if it quiets. -/
theorem quiescent_next_iff {s : State} {c : Call} (hw : s.db.WellFormed)
    (hq : FailedQuiescent s.db) (hc : controlPlane.allowed s c) :
    FailedQuiescent (controlPlane.next s c).db ↔ Quiets c.env s.db c.op := by
  constructor
  · intro hq'
    rw [controlPlane_next_db, Call.after, Call.exec] at hq'
    cases hop : c.op with
    | recoverExpired scan =>
      rw [hop, Op.exec] at hq'
      exact quiets_of_recoverExpired hw.toKeyed hq'
    | failTask id w f =>
      refine quiets_of_failTask hw.toKeyed fun t' db' hok => ?_
      rw [hop, Op.exec, hok] at hq'
      exact hq'
    | _ => trivial
  · intro hquiets
    exact controlPlane_step (P := FailedQuiescent) hq fun _ _ hok =>
      exec_failedQuiescent hw hc.2 hok hquiets hq

/-- A quiescent failed run is not served. -/
theorem exec_unserved (hw : db.WellFormed) (hf : db.Fresh env) {reply : Reply}
    (h : op.exec env db = .ok (reply, db')) (hq : FailedQuiescent db) : Unserved db db' := by
  intro r hr hfailed t ht hrid t' ht' hid
  have hidle := (hq r hr hfailed).2 t ht hrid
  rcases exec_moves hw.toKeyed h with hm | ⟨run, dag, hc⟩
  · obtain ⟨s, hs, hmove⟩ := hm.of_mem_task ht'
    obtain rfl := Table.eq_of_key hw.tasks hs ht (hmove.id.symm.trans hid)
    have hne : ∀ st : TaskStatus, st.waiting = true → s.status ≠ st := by
      rintro _ hst rfl
      simp [hst] at hidle
    cases hmove with
    | keep => exact ⟨hne _ rfl, rfl⟩
    | dispatch h => exact absurd (mem_readyTasks h).2.2.2.1 (hne _ rfl)
    | lease hst => exact absurd hst (hne _ rfl)
    | @expire _ _ r =>
      rcases expiryStatus_cases (s, r) with h | h | h <;> simp [endLease, h.1]
    | @fail _ f _ r =>
      rcases reportStatus_cases f s r with h | h | h <;> simp [endLease, h.1]
    | renew => exact ⟨hne _ rfl, rfl⟩
    | rebuild =>
      refine ⟨?_, rfl⟩
      simp only [RunMesh.rebuild]
      split_ifs <;> simp
    | _ => simp [RunMesh.succeed, RunMesh.wake, revive]
  · rw [Table.eq_of_key (hc.keyed hf hw.toKeyed).tasks ht' (hc.task_mem ht) hid]
    exact ⟨fun hst => by simp [hst, TaskStatus.waiting] at hidle, rfl⟩

/-- Failed runs are quiescent in every state of a history exactly when all its calls quiet,
and then no call dispatches or leases a task of a failed run. -/
theorem failed_run_quiescent_iff {s₀ : State} (h0 : Init s₀) {cs : List Call}
    (hv : controlPlane.Valid s₀ cs) :
    ((∀ bs, bs <+: cs → FailedQuiescent (controlPlane.run s₀ bs).db) ↔
      controlPlane.Along (fun s c => Quiets c.env s.db c.op) s₀ cs) ∧
    (controlPlane.Along (fun s c => Quiets c.env s.db c.op) s₀ cs →
      controlPlane.Along (fun s c => Unserved s.db (controlPlane.next s c).db) s₀ cs) := by
  have hwell : ∀ s c, s.db.WellFormed → controlPlane.allowed s c →
      (controlPlane.next s c).db.WellFormed := fun s c hw hc =>
    controlPlane_step (P := Db.WellFormed) hw fun _ _ hok => exec_wellFormed hw hc.2 hok
  have hiff : (∀ bs, bs <+: cs → FailedQuiescent (controlPlane.run s₀ bs).db) ↔
      controlPlane.Along (fun s c => Quiets c.env s.db c.op) s₀ cs :=
    controlPlane.forall_prefix_iff_along (P := fun s => FailedQuiescent s.db) hwell
      (fun s c hw hq hc => quiescent_next_iff hw hq hc) h0.wellFormed
      (by simp [FailedQuiescent, h0.workflowRuns]) hv
  refine ⟨hiff, fun hgood => ?_⟩
  rw [controlPlane.along_iff_prefix]
  intro bs c hbs
  have hpre : bs <+: cs := (List.prefix_append bs [c]).trans hbs
  have hvc := (controlPlane.along_snoc _ s₀ bs c).1 (controlPlane.along_of_prefix hbs hv)
  have hw := controlPlane.invariant (P := fun s => s.db.WellFormed) hwell h0.wellFormed hvc.1
  have hq := hiff.2 hgood bs hpre
  refine controlPlane_step (P := Unserved _) ?_ fun _ _ hok => exec_unserved hw hvc.2.2 hok hq
  intro r hr hfailed t ht hrid t' ht' hid
  rw [Table.eq_of_key hw.tasks ht' ht hid]
  refine ⟨fun hst => ?_, rfl⟩
  have := (hq r hr hfailed).2 t ht hrid
  simp [hst, TaskStatus.waiting] at this

/-- One task of the pair fails for good and cancels the other. -/
def failedPair : List (ℤ × Op) :=
  [(1, .createRun 1 none 2 "k" "" none), (2, .dispatchReady (.ofList [4])),
    (3, .leaseTask 4 "w" 100), (4, .failTask 4 "w" ⟨false, "ValueError", "", ""⟩)]

theorem failed_run_quiescent_iff_failedPair :
    (twoDefinitions.after failedPair).db.workflowRuns.map Run.status = [.failed] ∧
      FailedQuiescent (twoDefinitions.after failedPair).db := by
  refine ⟨by decide, (failed_run_quiescent_iff init_twoDefinitions
    (valid_play failedPair _ (by decide))).1.2 ⟨trivial, trivial, trivial, ?_, trivial⟩ _
    (List.prefix_refl _)⟩
  rintro t r - - - - hretry
  cases hretry

/-- Two tasks, the first with one attempt. -/
def singleAttemptDag : DAG where
  name := "single"
  tasks := [("a", ⟨"examples.greet", [], 1, 0, 0⟩), ("b", plainTask "examples.upper" [])]
  nodup := by decide

/-- The lease of the task with one attempt expires. -/
def failedByExpiry : List (ℤ × Op) :=
  [(1, .createWorkflow 1 none "single" singleAttemptDag),
    (2, .createRun 1 none 3 "k" "" none), (3, .dispatchReady (.ofList [5])),
    (4, .leaseTask 5 "w" 1), (5, .recoverExpired (.ofList [5]))]

/-- Both tasks of the pair are leased, the first fails for good, the second is to be
retried. -/
def failedThenRetried : List (ℤ × Op) :=
  [(1, .createRun 1 none 2 "k" "" none), (2, .dispatchReady (.ofList [4, 5])),
    (3, .leaseTask 4 "w" 100), (4, .leaseTask 5 "v" 100),
    (5, .failTask 4 "w" ⟨false, "ValueError", "", ""⟩),
    (6, .failTask 5 "v" ⟨true, "Timeout", "", ""⟩)]

/-- Failed runs with a ready task, which is then leased, and with a task that waits for a
retry. -/
theorem failed_run_with_waiting_task :
    (∃ s, Reachable s ∧ ¬FailedQuiescent s.db ∧ s.db.workflowRuns.map Run.status = [.failed] ∧
      s.db.taskRuns.map TaskRun.status = [.dead, .ready] ∧
      ∃ cs, controlPlane.Valid s cs ∧
        (controlPlane.run s cs).db.workflowRuns.map Run.status = [.failed] ∧
        (controlPlane.run s cs).db.taskRuns.map TaskRun.status = [.dead, .leased]) ∧
    ∃ s, Reachable s ∧ ¬FailedQuiescent s.db ∧ s.db.workflowRuns.map Run.status = [.failed] ∧
      s.db.taskRuns.map TaskRun.status = [.dead, .retryWait] :=
  ⟨⟨twoDefinitions.after failedByExpiry, reachable_after init_twoDefinitions (by decide),
    by decide, by decide, by decide,
    play (twoDefinitions.after failedByExpiry)
      [(6, .dispatchReady (.ofList [6])), (7, .leaseTask 6 "v" 100)],
    valid_play _ _ (by decide), by decide, by decide⟩,
    twoDefinitions.after failedThenRetried, reachable_after init_twoDefinitions (by decide),
    by decide, by decide, by decide⟩

end RunMesh
