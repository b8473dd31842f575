import RunMesh.Quiescence

/-!
# The attempt budget

`LeaseTask` counts an attempt without looking at the limit, so the limit rests on every way
into a waiting status : a task waits with attempts left (`Budgeted`). A new task has all of
them, a lease that ends is retried only with some left, and a task that is revived has its
limit raised. The rebuild of a replay raises nothing. It is meant for tasks that never
started, but a task cancelled in its last attempt is rebuilt too.
-/

namespace RunMesh

variable {env : Env} {op : Op} {db db' : Db}

/-- The attempts counted are within the limit, and a waiting task has some left. -/
structure Budgeted (t : TaskRun) : Prop where
  within : t.attemptCount ≤ t.maximumAttempts
  left : t.status.waiting = true → t.attemptCount < t.maximumAttempts

/-- The tasks a replay rebuilds have attempts left. -/
def RebuildsUnspent (db : Db) : Op → Prop
  | .replayDead tenantId _ taskId =>
    ∀ e ∈ db.tasksWithRun, e.1.id = taskId → e.2.tenantId = tenantId → e.1.status = .dead →
      ∀ t ∈ db.taskRuns, t.workflowRunId = e.1.workflowRunId → t.status = .cancelled →
        t.attemptCount < t.maximumAttempts
  | _ => True

instance (db : Db) : DecidablePred (RebuildsUnspent db) := fun op => by
  cases op <;> unfold RebuildsUnspent <;> infer_instance

/-- A new task has all its attempts left. -/
theorem newTaskRun_budgeted {run : Run} {dag : DAG} {entry : String × TaskSpec}
    (h : taskRunInsertable (withDefaults entry.2) = true) :
    Budgeted (newTaskRun env run dag entry) := by
  have hmax : 0 < (newTaskRun env run dag entry).maximumAttempts := by
    simp only [taskRunInsertable, Bool.and_eq_true, decide_eq_true_eq] at h
    simpa [newTaskRun] using h.1.2
  exact ⟨Nat.zero_le _, fun _ => hmax⟩

/-- A lease that ends is retried only with attempts left. -/
theorem Budgeted.endLease {t : TaskRun} (h : Budgeted t) {st : TaskStatus}
    (hst : st = .retryWait → t.attemptCount < t.maximumAttempts)
    (hcases : st = .cancelled ∨ st = .retryWait ∨ st = .dead) (available : ℤ) :
    Budgeted (endLease env st available t) := by
  refine ⟨h.within, fun hwait => ?_⟩
  rcases hcases with rfl | rfl | rfl
  · cases hwait
  · exact hst rfl
  · cases hwait

/-- The limit of a revived task is raised past its count. -/
theorem revive_attemptCount_lt (env : Env) (t : TaskRun) :
    t.attemptCount < (revive env t).maximumAttempts :=
  Nat.lt_of_succ_le (le_max_right _ _)

theorem TaskMove.budgeted {t t' : TaskRun} (h : TaskMove env db op t t') (ht : t ∈ db.taskRuns)
    (hop : RebuildsUnspent db op) (hb : Budgeted t) : Budgeted t' := by
  cases h with
  | keep => exact hb
  | promote hst => exact ⟨hb.within, fun _ => hb.left (by rw [hst]; rfl)⟩
  | @expire _ _ r h =>
    have hcases := expiryStatus_cases (t, r)
    refine hb.endLease (fun hretry => ?_) ?_ _
    · rcases hcases with hc | hc | hc
      · simp [hc.1] at hretry
      · exact hc.2.2
      · simp [hc.1] at hretry
    · exact hcases.imp And.left (Or.imp And.left And.left)
  | dispatch h =>
    exact ⟨hb.within, fun _ => hb.left (by rw [(mem_readyTasks h).2.2.2.1]; rfl)⟩
  | lease hst => exact ⟨hb.left (by rw [hst]; rfl), fun hwait => by cases hwait⟩
  | start => exact ⟨hb.within, fun hwait => by cases hwait⟩
  | renew => exact ⟨hb.within, hb.left⟩
  | succeed => exact ⟨hb.within, fun hwait => by cases hwait⟩
  | wake _ _ _ hwake => exact ⟨hb.within, fun _ => hb.left (by rw [hwake.2.1]; rfl)⟩
  | @fail _ f _ r =>
    have hcases := reportStatus_cases f t r
    refine hb.endLease (fun hretry => ?_) ?_ _
    · rcases hcases with hc | hc | hc
      · simp [hc.1] at hretry
      · exact hc.2.2.2
      · simp [hc.1] at hretry
    · exact hcases.imp And.left (Or.imp And.left And.left)
  | failSibling => exact ⟨hb.within, fun hwait => by cases hwait⟩
  | cancel => exact ⟨hb.within, fun hwait => by cases hwait⟩
  | retry => exact ⟨(revive_attemptCount_lt env t).le, fun _ => revive_attemptCount_lt env t⟩
  | replay => exact ⟨(revive_attemptCount_lt env t).le, fun _ => revive_attemptCount_lt env t⟩
  | @rebuild _ _ u _ r hr hrid htenant hu hdead hrun hst =>
    exact ⟨hb.within, fun _ => hop (u, r) (Table.mem_join.2 ⟨hu, hr, hrid⟩) rfl htenant hdead t ht
      hrun hst⟩

theorem exec_budgeted (hk : db.Keyed) (hop : RebuildsUnspent db op) {reply : Reply}
    (h : op.exec env db = .ok (reply, db')) (hb : ∀ t ∈ db.taskRuns, Budgeted t) :
    ∀ t ∈ db'.taskRuns, Budgeted t := by
  intro t' ht'
  rcases exec_moves hk h with hm | ⟨run, dag, hc⟩
  · obtain ⟨t, ht, hmove⟩ := hm.of_mem_task ht'
    exact hmove.budgeted ht hop (hb t ht)
  · rw [hc.tasks, List.mem_append, List.mem_map] at ht'
    rcases ht' with ht | ⟨entry, hentry, rfl⟩
    · exact hb t' ht
    · exact newTaskRun_budgeted (hc.insertable entry hentry)

/-- The attempt budget : in every history whose replays rebuild only tasks with attempts
left, no task ever counts more attempts than it may have. -/
theorem attempt_budget {s₀ : State} (h0 : Init s₀) {cs : List Call}
    (hv : controlPlane.Valid s₀ cs)
    (hrebuild : controlPlane.Along (fun s c => RebuildsUnspent s.db c.op) s₀ cs) :
    ∀ bs, bs <+: cs → ∀ t ∈ (controlPlane.run s₀ bs).db.taskRuns,
      t.attemptCount ≤ t.maximumAttempts := by
  intro bs hbs t ht
  have hstep : ∀ (s : State) (c : Call), (s.db.WellFormed ∧ ∀ t ∈ s.db.taskRuns, Budgeted t) →
      (controlPlane.allowed s c ∧ RebuildsUnspent s.db c.op) →
      ((controlPlane.next s c).db.WellFormed ∧
        ∀ t ∈ (controlPlane.next s c).db.taskRuns, Budgeted t) := by
    rintro s c ⟨hw, hb⟩ ⟨hc, hop⟩
    refine controlPlane_step (P := fun db => db.WellFormed ∧ ∀ t ∈ db.taskRuns, Budgeted t)
      ⟨hw, hb⟩ fun reply db' hok => ?_
    exact ⟨exec_wellFormed hw hc.2 hok, exec_budgeted hw.toKeyed hop hok hb⟩
  have halong := (controlPlane.along_and _ _ cs s₀).2 ⟨hv, hrebuild⟩
  exact ((controlPlane.invariant_along hstep ⟨h0.wellFormed, by simp [h0.taskRuns]⟩
    (controlPlane.along_of_prefix hbs halong)).2 t ht).within

/-- Both tasks fail for good. The first, which had one attempt, is replayed and leased for
its second, the run is cancelled, and the worker reports another failure. -/
def cancelledInLastAttempt : List (ℤ × Op) :=
  [(1, .createWorkflow 1 none "single" singleAttemptDag),
    (2, .createRun 1 none 3 "k" "" none), (3, .dispatchReady (.ofList [5, 6])),
    (4, .leaseTask 5 "w" 100), (5, .leaseTask 6 "v" 100),
    (6, .failTask 5 "w" ⟨false, "ValueError", "", ""⟩),
    (7, .failTask 6 "v" ⟨false, "ValueError", "", ""⟩), (8, .replayDead 1 none 5),
    (9, .dispatchReady (.ofList [5])), (10, .leaseTask 5 "w" 100), (11, .cancelRun 1 none 4),
    (12, .failTask 5 "w" ⟨true, "Timeout", "", ""⟩)]

/-- Up to there the budget holds. -/
theorem attempt_budget_cancelledInLastAttempt :
    (twoDefinitions.after cancelledInLastAttempt).db.taskRuns.map TaskRun.attemptCount = [2, 1] ∧
      ∀ t ∈ (twoDefinitions.after cancelledInLastAttempt).db.taskRuns,
        t.attemptCount ≤ t.maximumAttempts :=
  ⟨by decide, attempt_budget init_twoDefinitions
    (valid_play cancelledInLastAttempt _ (by decide)) (by decide) _ (List.prefix_refl _)⟩

/-- The replay of the other task makes the cancelled one ready with no attempt left, and it
is leased a third time. -/
theorem rebuilt_task_exceeds_budget :
    ∃ s, Reachable s ∧ ∃ t ∈ s.db.taskRuns, t.attemptCount = 3 ∧ t.maximumAttempts = 2 :=
  ⟨twoDefinitions.after (cancelledInLastAttempt ++ [(13, .replayDead 1 none 6),
      (14, .dispatchReady (.ofList [5])), (15, .leaseTask 5 "w" 100)]),
    reachable_after init_twoDefinitions (by decide), by decide +kernel⟩

end RunMesh
