import RunMesh.Readiness

/-!
# Stuck runs

A running run should have a task that can still move (`NoStuckRun`). By readiness and
acyclicity it is enough that it has a task that has not succeeded and none that is dead or
cancelled (`RunsOpen`, `exists_live`), for among the tasks that have not succeeded one has
no unfinished upstream.

Every way to close a task closes the run with it, and the last completion completes the
run. But the two ways to reopen a run do not always reopen all of it : `retryRun` revives
the dead tasks and leaves the cancelled ones, and `replayDead` rebuilds the cancelled ones
and leaves the other dead ones. `ReopensWhole` says that nothing is left, and histories of
such calls have no stuck run. `retryRun_leaves_stuck_run` is a history without it.
-/

namespace RunMesh

open Fallible

variable {env : Env} {op : Op} {db db' : Db}

/-- `READY`, `DISPATCHING`, `LEASED`, `RUNNING` or `RETRY_WAIT`. -/
def TaskStatus.live : TaskStatus → Bool
  | .ready | .dispatching | .leased | .running | .retryWait => true
  | _ => false

/-- Every running run has a task that can still move. -/
def NoStuckRun (db : Db) : Prop :=
  ∀ r ∈ db.workflowRuns, r.status = .running →
    ∃ t ∈ db.taskRuns, t.workflowRunId = r.id ∧ t.status.live = true

instance : Decidable (NoStuckRun db) := inferInstanceAs (Decidable (∀ r ∈ _, _))

/-- A running run has no dead or cancelled task, and not all its tasks have succeeded. -/
def RunsOpen (db : Db) : Prop :=
  ∀ r ∈ db.workflowRuns, r.status = .running →
    (∀ t ∈ db.taskRuns, t.workflowRunId = r.id → t.status ≠ .dead ∧ t.status ≠ .cancelled) ∧
    ∃ t ∈ db.taskRuns, t.workflowRunId = r.id ∧ t.status ≠ .succeeded

/-- A call that reopens a run leaves no task of it behind : a run to retry has no cancelled
task, and a task to replay is the only dead one of its failed run. -/
def ReopensWhole (db : Db) : Op → Prop
  | .retryRun tenantId _ id =>
    (∃ r ∈ db.workflowRuns, r.id = id ∧ r.tenantId = tenantId) →
    (∃ t ∈ db.taskRuns, t.workflowRunId = id ∧ t.status = .dead) →
      ∀ t ∈ db.taskRuns, t.workflowRunId = id → t.status ≠ .cancelled
  | .replayDead tenantId _ taskId =>
    ∀ t ∈ db.taskRuns, t.id = taskId → t.status = .dead →
    ∀ r ∈ db.workflowRuns, r.id = t.workflowRunId → r.tenantId = tenantId → r.status = .failed →
      ∀ u ∈ db.taskRuns, u.workflowRunId = t.workflowRunId → u.status = .dead → u.id = taskId
  | _ => True

/-! ## No task is FAILED -/

theorem TaskMove.ne_failed {t t' : TaskRun} (h : TaskMove env db op t t')
    (hst : t.status ≠ .failed) : t'.status ≠ .failed := by
  cases h with
  | keep => exact hst
  | @expire _ _ r =>
    rcases expiryStatus_cases (t, r) with h | h | h <;> simp [endLease, h.1]
  | @fail _ f _ r =>
    rcases reportStatus_cases f t r with h | h | h <;> simp [endLease, h.1]
  | renew => exact hst
  | rebuild =>
    simp only [RunMesh.rebuild]
    split_ifs <;> simp
  | _ => simp [RunMesh.lease, RunMesh.succeed, RunMesh.wake, revive]

/-- The status `FAILED` of a task is never written. -/
theorem Reachable.ne_failed {s : State} (h : Reachable s) :
    ∀ t ∈ s.db.taskRuns, t.status ≠ .failed := by
  refine h.forall_task (P := fun t => t.status ≠ .failed) (fun env run dag entry => ?_)
    fun _ _ _ _ _ hmove => hmove.ne_failed
  rcases newTaskRun_status env run dag entry with h | h <;> simp [h]

/-! ## A task that can move -/

/-- Upstream of a task that has not succeeded there is a task that can move. -/
theorem exists_live (hw : db.WellFormed) (hready : ExactlyReady db)
    (hfailed : ∀ t ∈ db.taskRuns, t.status ≠ .failed) {runId : ℕ}
    (hopen : ∀ t ∈ db.taskRuns, t.workflowRunId = runId → t.status ≠ .dead ∧ t.status ≠ .cancelled)
    {t : TaskRun} (ht : t ∈ db.taskRuns) (hrun : t.workflowRunId = runId)
    (hst : t.status ≠ .succeeded) :
    ∃ u ∈ db.taskRuns, u.workflowRunId = runId ∧ u.status.live = true := by
  have hacc := hw.acyclic t ht
  generalize hi : t.id = i at hacc
  induction hacc generalizing t with
  | intro i _ ih =>
    subst hi
    obtain ⟨hdead, hcancelled⟩ := hopen t ht hrun
    by_cases hb : t.status = .blocked
    · obtain ⟨u, hu, hne⟩ := (hready t ht hcancelled).1 hb
      obtain ⟨hmem, hdep⟩ := Db.mem_upstream.1 hu
      exact ih u.id hdep hmem ((hw.upstream_run ht hu).trans hrun) hne rfl
    · refine ⟨t, ht, hrun, ?_⟩
      have hnf := hfailed t ht
      cases hs : t.status <;> simp_all [TaskStatus.live]

theorem RunsOpen.noStuckRun (h : RunsOpen db) (hw : db.WellFormed) (hready : ExactlyReady db)
    (hfailed : ∀ t ∈ db.taskRuns, t.status ≠ .failed) : NoStuckRun db := by
  intro r hr hrun
  obtain ⟨hopen, t, ht, hrid, hst⟩ := h r hr hrun
  exact exists_live hw hready hfailed hopen ht hrid hst

/-! ## Reopening -/

/-- A retry of a run without cancelled tasks leaves it open. -/
theorem retryRun_runsOpen {tenant id : ℕ} {user : Option ℕ}
    (h : retryRun env tenant user id db = .ok db')
    (hwhole : ReopensWhole db (.retryRun tenant user id)) :
    (∀ t ∈ db'.taskRuns, t.workflowRunId = id → t.status ≠ .dead ∧ t.status ≠ .cancelled) ∧
      ∃ t ∈ db'.taskRuns, t.workflowRunId = id ∧ t.status ≠ .succeeded := by
  obtain ⟨hrun, ⟨u, hu, hurun, hdead⟩, rfl⟩ := retryRun_ok h
  constructor
  · intro t' ht' hrid
    obtain ⟨t, ht, rfl⟩ := Table.mem_update.1 ht'
    have hcancelled := hwhole hrun ⟨u, hu, hurun, hdead⟩ t ht
    split_ifs at hrid ⊢ with hd
    · simp [revive]
    · exact ⟨fun hd' => hd (by simp [hrid, hd']), hcancelled hrid⟩
  · refine ⟨_, Table.mem_update.2 ⟨u, hu, rfl⟩, ?_⟩
    simp [hurun, hdead, revive]

/-- A replay of the only dead task of a failed run leaves it open. -/
theorem replayDead_runsOpen (hk : db.Keyed) {tenant id : ℕ} {user : Option ℕ} {r : Run}
    (hr : r ∈ db.workflowRuns) (hfailed : r.status = .failed)
    (h : replayDead env tenant user id db = .ok db')
    (hrun : ∃ t ∈ db.taskRuns, t.id = id ∧ t.workflowRunId = r.id)
    (hwhole : ReopensWhole db (.replayDead tenant user id)) :
    (∀ t ∈ db'.taskRuns, t.workflowRunId = r.id → t.status ≠ .dead ∧ t.status ≠ .cancelled) ∧
      ∃ t ∈ db'.taskRuns, t.workflowRunId = r.id ∧ t.status ≠ .succeeded := by
  obtain ⟨u, hu, q, hq, rfl, hqid, rfl, hdead, hdb⟩ := replayDead_ok h
  obtain ⟨s, hs, hsid, hsrun⟩ := hrun
  obtain rfl := Table.eq_of_key hk.tasks hs hu hsid
  obtain rfl := Table.eq_of_key hk.runs hq hr (hqid.trans hsrun)
  have honly := hwhole s hu rfl hdead q hq hqid rfl hfailed
  rw [hdb]
  constructor
  · intro t' ht' hrid
    obtain ⟨t, ht, rfl⟩ := List.mem_map.1 ht'
    unfold replayRow at hrid ⊢
    split_ifs at hrid ⊢ with hid hc
    · simp [revive]
    · simp only [rebuild]
      split_ifs <;> simp
    · have hrun : t.workflowRunId = s.workflowRunId := hrid.trans hqid
      exact ⟨fun hd => hid (honly t ht hrun hd), fun hd => hc ⟨hrun, hd⟩⟩
  · refine ⟨_, List.mem_map_of_mem hu, ?_⟩
    simp [replayRow, revive, hqid]

/-- Every other call keeps the running runs open. -/
theorem exec_runsOpen (hw : db.WellFormed) (hf : db.Fresh env) {reply : Reply}
    (h : op.exec env db = .ok (reply, db')) (hwhole : ReopensWhole db op) (hopen : RunsOpen db) :
    RunsOpen db' := by
  intro r' hr' hrun'
  rcases exec_moves hw.toKeyed h with hm | ⟨run, dag, hc⟩
  · obtain ⟨r, hr, hrmove⟩ := hm.of_mem_run hr'
    cases hrmove with
    | keep =>
      obtain ⟨hold, t, ht, hrid, hst⟩ := hopen r' hr hrun'
      refine ⟨fun t' ht' hrid' => ?_, ?_⟩
      · obtain ⟨s, hs, hmove⟩ := hm.of_mem_task ht'
        have hsrun : s.workflowRunId = r'.id := hmove.workflowRunId.symm.trans hrid'
        by_cases hsame : t'.status = s.status
        · rw [hsame]
          exact hold s hs hsrun
        · have hcloses := fun hst' => exec_closes hw.toKeyed hf h hs ht' hmove.id hsame hst' hr'
            hsrun.symm hrun'
          exact ⟨fun hd => hcloses (Or.inl hd), fun hc => hcloses (Or.inr hc)⟩
      · by_contra hnone
        refine hst (exec_completes hw h hr' hrun' (fun t' ht' hrid' => ?_) t ht hrid)
        by_contra hst'
        exact hnone ⟨t', ht', hrid', hst'⟩
    | retry =>
      simp only [Op.exec, map_eq_ok, Prod.mk.injEq] at h
      obtain ⟨_, hok, -, rfl⟩ := h
      exact retryRun_runsOpen hok hwhole
    | reopen _ ht hrid _ hfailed =>
      simp only [Op.exec, map_eq_ok, Prod.mk.injEq] at h
      obtain ⟨_, hok, -, rfl⟩ := h
      have := replayDead_runsOpen hw.toKeyed hr hfailed hok ⟨_, ht, rfl, hrid⟩ hwhole
      exact this
    | _ => cases hrun'
  · rw [hc.runs, List.mem_append, List.mem_singleton] at hr'
    rcases hr' with hr | rfl
    · obtain ⟨hold, t, ht, hst⟩ := hopen r' hr hrun'
      exact ⟨fun t' ht' hrid => hold t' (hc.mem_of_old hf hr ht' hrid) hrid,
        t, hc.task_mem ht, hst⟩
    · have hnew : ∀ t ∈ db'.taskRuns, t.workflowRunId = r'.id →
          t.status = .ready ∨ t.status = .blocked := by
        intro t ht hrid
        obtain ⟨entry, -, rfl⟩ := hc.mem_of_new hf hw ht hrid
        exact newTaskRun_status _ _ _ entry
      refine ⟨fun t ht hrid => ?_, ?_⟩
      · rcases hnew t ht hrid with hst | hst <;> simp [hst]
      · obtain ⟨t, ht, hrid⟩ := (hc.wellFormed hf hw).nonempty r' (by simp [hc.runs])
        exact ⟨t, ht, hrid, by rcases hnew t ht hrid with hst | hst <;> simp [hst]⟩

/-- No stuck run : if every call that reopens a run reopens the whole run, then after every
call each running run has a task that is ready, dispatching, leased, running or waiting for
a retry. -/
theorem no_stuck_run {s₀ : State} (h0 : Init s₀) {cs : List Call}
    (hv : controlPlane.Valid s₀ cs)
    (hwhole : controlPlane.Along (fun s c => ReopensWhole s.db c.op) s₀ cs) :
    ∀ bs, bs <+: cs → NoStuckRun (controlPlane.run s₀ bs).db := by
  intro bs hbs
  have hvbs := controlPlane.along_of_prefix hbs hv
  have hreach : Reachable (controlPlane.run s₀ bs) := ⟨s₀, bs, h0, hvbs, rfl⟩
  refine RunsOpen.noStuckRun ?_ hreach.wellFormed hreach.exactlyReady hreach.ne_failed
  have hboth := (controlPlane.along_and _ _ bs s₀).2
    ⟨hvbs, controlPlane.along_of_prefix hbs hwhole⟩
  refine (controlPlane.invariant_along (P := fun s => s.db.WellFormed ∧ RunsOpen s.db)
    (fun s c hP hc => ?_) ⟨h0.wellFormed, by simp [RunsOpen, h0.workflowRuns]⟩ hboth).2
  exact controlPlane_step (P := fun db => db.WellFormed ∧ RunsOpen db) hP fun reply db' hok =>
    ⟨exec_wellFormed hP.1 hc.1.2 hok, exec_runsOpen hP.1 hc.1.2 hok hc.2 hP.2⟩

/-- The pair is created, its first task fails for good, which cancels the second, and is
replayed. -/
def replayedPair : List (ℤ × Op) :=
  [(1, .createRun 1 none 2 "k" "" none), (2, .dispatchReady (.ofList [4, 5])),
    (3, .leaseTask 4 "w" 100), (4, .startTask 4 "w"),
    (5, .failTask 4 "w" ⟨false, "ValueError", "", ""⟩), (6, .replayDead 1 none 4)]

theorem no_stuck_run_replayedPair :
    (twoDefinitions.after replayedPair).db.workflowRuns.map Run.status = [.running] ∧
      NoStuckRun (twoDefinitions.after replayedPair).db := by
  refine ⟨by decide, no_stuck_run init_twoDefinitions (valid_play replayedPair _ (by decide))
    ⟨trivial, trivial, trivial, trivial, trivial, ?_, trivial⟩ _ (List.prefix_refl _)⟩
  unfold ReopensWhole
  decide

/-- The pair is created, its first task fails for good, which cancels the second, and the
retried first task succeeds. -/
def retriedPair : List (ℤ × Op) :=
  [(1, .createRun 1 none 2 "k" "" none), (2, .dispatchReady (.ofList [4, 5])),
    (3, .leaseTask 4 "w" 100), (4, .startTask 4 "w"),
    (5, .failTask 4 "w" ⟨false, "ValueError", "", ""⟩), (6, .retryRun 1 none 3),
    (7, .dispatchReady (.ofList [4])), (8, .leaseTask 4 "w" 100), (9, .startTask 4 "w"),
    (10, .completeTask 4 "w" "" "" [])]

/-- Its run is running, with one task succeeded and the other cancelled. -/
theorem retryRun_leaves_stuck_run :
    ∃ s, Reachable s ∧ ¬NoStuckRun s.db ∧
      s.db.workflowRuns.map Run.status = [.running] ∧
      s.db.taskRuns.map TaskRun.status = [.succeeded, .cancelled] :=
  ⟨twoDefinitions.after retriedPair, reachable_after init_twoDefinitions (by decide), by decide,
    by decide, by decide⟩

end RunMesh
