import RunMesh.Attempts
import RunMesh.Readiness

/-!
# Success

A run has succeeded exactly when all its tasks have (`SuccessExact`). A completion asks for
a running run, and the one that leaves no other task unfinished completes it, so there is
no state in which the tasks are through and the run is not. Nothing leads out of it : no
move starts from a succeeded task, and the moves of a run start from a running or a failed
one, or ask for a dead task.

So a run with a running task is running, failed or cancelled, and of these a heartbeat reports
the last and a completion asks for the first (`heartbeat_agrees_iff`).
-/

namespace RunMesh

open Fallible

variable {env : Env} {op : Op} {db db' : Db}

/-- Succeeded exactly if all tasks are. -/
def SuccessExact (db : Db) : Prop :=
  ∀ r ∈ db.workflowRuns, r.status = .succeeded ↔
    ∀ t ∈ db.taskRuns, t.workflowRunId = r.id → t.status = .succeeded

/-- From `db` to `db'` the run, its tasks and their attempts are as they were. -/
structure Settled (db db' : Db) (r : Run) : Prop where
  run : r ∈ db'.workflowRuns
  tasks : ∀ t, t.workflowRunId = r.id → (t ∈ db'.taskRuns ↔ t ∈ db.taskRuns)
  attempts : ∀ t ∈ db.taskRuns, t.workflowRunId = r.id → db'.attemptsOf t.id = db.attemptsOf t.id

/-! ## One call -/

/-- A succeeded run stays as it is, if none of its tasks is dead. -/
theorem RunMove.eq_of_succeeded {r r' : Run} (h : RunMove env db op r r')
    (hst : r.status = .succeeded)
    (hall : ∀ t ∈ db.taskRuns, t.workflowRunId = r.id → t.status = .succeeded) : r' = r := by
  cases h with
  | keep => rfl
  | expire _ _ _ hrun => simp [hrun] at hst
  | complete _ _ hrun => simp [hrun] at hst
  | fail _ _ _ hrun => simp [hrun] at hst
  | cancel _ hopen => simp [hst, RunStatus.open] at hopen
  | retry _ ht hrid hdead => simp [hall _ ht hrid] at hdead
  | reopen _ ht hrid hdead => simp [hall _ ht hrid] at hdead

theorem Moves.successExact_of_exec (hm : Moves env op db db') (hw : db.WellFormed) {reply : Reply}
    (h : op.exec env db = .ok (reply, db')) (hs : SuccessExact db) : SuccessExact db' := by
  intro r' hr'
  obtain ⟨r, hr, hmove⟩ := hm.of_mem_run hr'
  have hids : r'.id = r.id := hmove.id
  constructor
  · intro hsucc t' ht' hrid
    obtain ⟨t, ht, htm⟩ := hm.of_mem_task ht'
    rw [htm.workflowRunId, hids] at hrid
    cases hmove with
    | keep =>
      have hst := (hs r' hr).1 hsucc t ht hrid
      rw [htm.eq_of_succeeded hst, hst]
    | complete hheld _ _ hlast =>
      rcases hlast t ht hrid with hid | hst
      · simp only [Op.exec, map_eq_ok, Prod.mk.injEq] at h
        obtain ⟨⟨t₁, _⟩, hok, -, rfl⟩ := h
        exact completeTask_succeeds hw.toKeyed hok ht' (htm.id.trans hid)
      · rw [htm.eq_of_succeeded hst, hst]
    | _ => cases hsucc
  · intro hall
    by_cases hold : ∀ t ∈ db.taskRuns, t.workflowRunId = r.id → t.status = .succeeded
    · have hst := (hs r hr).2 hold
      rw [hmove.eq_of_succeeded hst hold, hst]
    · -- a task of the run succeeded in this call, so the call completed the run
      have hnot : r'.status ≠ .running := fun hrun' =>
        hold (hids ▸ exec_completes hw h hr' hrun' hall)
      simp only [not_forall] at hold
      obtain ⟨t, ht, hrid, hst⟩ := hold
      obtain ⟨t', ht', htm⟩ := hm.mem_task ht
      have hst' := hall t' ht' (by rw [htm.workflowRunId, hrid, hids])
      rcases htm.of_succeeded hst' with hsucc | ⟨_, _, _, _, q, _, hop, hheld, -, hrun, -⟩
      · exact absurd hsucc hst
      obtain rfl := Table.eq_of_key hw.runs hheld.run hr (hheld.runId.trans hrid)
      cases hmove with
      | keep => exact absurd hrun hnot
      | complete => rfl
      | _ => cases hop

theorem exec_successExact (hw : db.WellFormed) (hf : db.Fresh env) {reply : Reply}
    (h : op.exec env db = .ok (reply, db')) (hs : SuccessExact db) : SuccessExact db' := by
  rcases exec_moves hw.toKeyed h with hm | ⟨run, dag, hc⟩
  · exact hm.successExact_of_exec hw h hs
  · intro r' hr'
    rw [hc.runs, List.mem_append, List.mem_singleton] at hr'
    rcases hr' with hr | rfl
    · rw [hs r' hr]
      exact ⟨fun hall t ht hrid => hall t (hc.mem_of_old hf hr ht hrid) hrid,
        fun hall t ht hrid => hall t (hc.task_mem ht) hrid⟩
    · simp only [hc.status, reduceCtorEq, false_iff, not_forall]
      obtain ⟨t, ht, hrid⟩ := (hc.wellFormed hf hw).nonempty r' (by simp [hc.runs])
      obtain ⟨entry, -, rfl⟩ := hc.mem_of_new hf hw ht hrid
      refine ⟨_, ht, hrid, ?_⟩
      rcases newTaskRun_status env r' dag entry with hst | hst <;> simp [hst]

/-- A call leaves a succeeded run, its tasks and their attempts alone. -/
theorem exec_settled (hw : db.WellFormed) (hf : db.Fresh env) {reply : Reply}
    (h : op.exec env db = .ok (reply, db')) (hs : SuccessExact db) {r : Run}
    (hr : r ∈ db.workflowRuns) (hst : r.status = .succeeded) : Settled db db' r := by
  have hall := (hs r hr).1 hst
  refine ⟨?_, fun t hrid => ?_, fun t ht hrid => ?_⟩
  · rcases exec_moves hw.toKeyed h with hm | ⟨run, dag, hc⟩
    · obtain ⟨r', hr', hmove⟩ := hm.mem_run hr
      rwa [hmove.eq_of_succeeded hst hall] at hr'
    · rw [hc.runs]
      exact List.mem_append_left _ hr
  · rcases exec_moves hw.toKeyed h with hm | ⟨run, dag, hc⟩
    · constructor
      · intro ht'
        obtain ⟨u, hu, hmove⟩ := hm.of_mem_task ht'
        rwa [hmove.eq_of_succeeded (hall u hu (hmove.workflowRunId.symm.trans hrid))]
      · intro ht
        obtain ⟨t', ht', hmove⟩ := hm.mem_task ht
        rwa [hmove.eq_of_succeeded (hall t ht hrid)] at ht'
    · exact ⟨fun ht => hc.mem_of_old hf hr ht hrid, hc.task_mem⟩
  · have hsucc := hall t ht hrid
    exact exec_attemptsOf hw.toKeyed h ht (by simp [hsucc, TaskStatus.active]) (by simp [hsucc])

/-- A call leaves a succeeded task alone. -/
theorem exec_succeeded_mem (hk : db.Keyed) {reply : Reply} (h : op.exec env db = .ok (reply, db'))
    {t : TaskRun} (ht : t ∈ db.taskRuns) (hst : t.status = .succeeded) : t ∈ db'.taskRuns := by
  rcases exec_moves hk h with hm | ⟨run, dag, hc⟩
  · obtain ⟨t', ht', hmove⟩ := hm.mem_task ht
    rwa [hmove.eq_of_succeeded hst] at ht'
  · exact hc.task_mem ht

/-! ## Histories -/

theorem Reachable.successExact {s : State} (h : Reachable s) : SuccessExact s.db :=
  (h.induction (P := fun db => db.WellFormed ∧ SuccessExact db)
    (fun _ h0 => ⟨h0.wellFormed, by simp [SuccessExact, h0.workflowRuns]⟩)
    fun _ _ _ _ hP hf hok => ⟨exec_wellFormed hP.1 hf hok, exec_successExact hP.1 hf hok hP.2⟩).2

/-- A run is completed at some time exactly when it is closed. -/
theorem Reachable.completedAt {s : State} (h : Reachable s) :
    ∀ r ∈ s.db.workflowRuns, r.completedAt ≠ none ↔
      r.status = .succeeded ∨ r.status = .failed ∨ r.status = .cancelled := by
  refine h.forall_run (P := fun r => r.completedAt ≠ none ↔
    r.status = .succeeded ∨ r.status = .failed ∨ r.status = .cancelled)
    (fun r hst hnone => by simp [hst, hnone]) fun env db op r r' hmove hr => ?_
  cases hmove <;> first | exact hr | simp

theorem Settled.refl (db : Db) {r : Run} (hr : r ∈ db.workflowRuns) : Settled db db r :=
  ⟨hr, fun _ _ => Iff.rfl, fun _ _ _ => rfl⟩

theorem Settled.trans {db₁ db₂ db₃ : Db} {r : Run} (h₁ : Settled db₁ db₂ r)
    (h₂ : Settled db₂ db₃ r) : Settled db₁ db₃ r where
  run := h₂.run
  tasks t hrid := (h₂.tasks t hrid).trans (h₁.tasks t hrid)
  attempts t ht hrid :=
    (h₂.attempts t ((h₁.tasks t hrid).2 ht) hrid).trans (h₁.attempts t ht hrid)

theorem settled_run (cs : List Call) : ∀ {s : State}, Reachable s → controlPlane.Valid s cs →
    ∀ r ∈ s.db.workflowRuns, r.status = .succeeded →
      Settled s.db (controlPlane.run s cs).db r := by
  induction cs with
  | nil => intro s _ _ r hr _; exact .refl s.db hr
  | cons c cs ih =>
    intro s hs hv r hr hst
    have hstep : Settled s.db (controlPlane.next s c).db r :=
      controlPlane_step (P := fun db => Settled s.db db r) (.refl s.db hr) fun _ _ hok =>
        exec_settled hs.wellFormed hv.1.2 hok hs.successExact hr hst
    exact hstep.trans (ih (hs.next hv.1) hv.2 r hstep.run hst)

theorem succeeded_mem_run (cs : List Call) : ∀ {s : State}, Reachable s →
    controlPlane.Valid s cs → ∀ t ∈ s.db.taskRuns, t.status = .succeeded →
      t ∈ (controlPlane.run s cs).db.taskRuns := by
  induction cs with
  | nil => intro s _ _ t ht _; exact ht
  | cons c cs ih =>
    intro s hs hv t ht hst
    have hstep : t ∈ (controlPlane.next s c).db.taskRuns :=
      controlPlane_step (P := fun db => t ∈ db.taskRuns) ht fun _ _ hok =>
        exec_succeeded_mem hs.wellFormed.toKeyed hok ht hst
    exact ih (hs.next hv.1) hv.2 t hstep hst

/-- Success is exact and final. In every reachable state a run has succeeded if and only if
all its tasks have, and it is completed at some time if and only if it has succeeded, failed
or been cancelled. From then on a succeeded run keeps its row, its tasks and their attempts,
and a succeeded task keeps its row. -/
theorem success_exact_and_final {s : State} (h : Reachable s) :
    (∀ r ∈ s.db.workflowRuns,
      (r.status = .succeeded ↔
        ∀ t ∈ s.db.taskRuns, t.workflowRunId = r.id → t.status = .succeeded) ∧
      (r.completedAt ≠ none ↔
        r.status = .succeeded ∨ r.status = .failed ∨ r.status = .cancelled)) ∧
    ∀ cs, controlPlane.Valid s cs →
      (∀ r ∈ s.db.workflowRuns, r.status = .succeeded →
        Settled s.db (controlPlane.run s cs).db r) ∧
      ∀ t ∈ s.db.taskRuns, t.status = .succeeded → t ∈ (controlPlane.run s cs).db.taskRuns :=
  ⟨fun r hr => ⟨h.successExact r hr, h.completedAt r hr⟩,
    fun cs hv => ⟨settled_run cs h hv, succeeded_mem_run cs h hv⟩⟩

/-- Both tasks of the chain are completed. -/
def chainDone : List (ℤ × Op) :=
  [(1, .createRun 1 none 1 "k" "" none), (2, .dispatchReady (.ofList [4])),
    (3, .leaseTask 4 "w" 100), (4, .startTask 4 "w"), (5, .completeTask 4 "w" "" "" []),
    (6, .dispatchReady (.ofList [5])), (7, .leaseTask 5 "w" 100), (8, .startTask 5 "w"),
    (9, .completeTask 5 "w" "" "" [])]

theorem success_exact_and_final_chain :
    ∃ r ∈ (twoDefinitions.after chainDone).db.workflowRuns, r.status = .succeeded ∧
      Settled (twoDefinitions.after chainDone).db (controlPlane.run (twoDefinitions.after chainDone)
        (play (twoDefinitions.after chainDone) [(10, .cancelRun 1 none 3)])).db r := by
  have h : Reachable (twoDefinitions.after chainDone) :=
    reachable_after init_twoDefinitions (by decide)
  obtain ⟨r, hr⟩ : ∃ r, r ∈ (twoDefinitions.after chainDone).db.workflowRuns :=
    List.exists_mem_of_length_pos (by decide)
  have hall : ∀ t ∈ (twoDefinitions.after chainDone).db.taskRuns, t.status = .succeeded := by
    decide
  have hst := (((success_exact_and_final h).1 r hr).1).2 fun t ht _ => hall t ht
  exact ⟨r, hr, hst, ((success_exact_and_final h).2 _ (valid_play _ _ (by decide))).1 r hr hst⟩

/-! ## What a worker is told -/

/-- The run of a running task is running, failed or cancelled. -/
theorem Reachable.run_of_running {s : State} (h : Reachable s) {t : TaskRun} {r : Run}
    (ht : t ∈ s.db.taskRuns) (hr : r ∈ s.db.workflowRuns) (hrid : r.id = t.workflowRunId)
    (hst : t.status = .running) :
    r.status = .running ∨ r.status = .failed ∨ r.status = .cancelled := by
  cases hrun : r.status with
  | pending => exact absurd hrun (h.wellFormed.opened r hr)
  | succeeded =>
    have hsucc := (h.successExact r hr).1 hrun t ht hrid.symm
    cases hst.symm.trans hsucc
  | running => exact .inl rfl
  | failed => exact .inr (.inl rfl)
  | cancelled => exact .inr (.inr rfl)

/-- The heartbeat of a running task says to carry on if and only if a completion would be
accepted, exactly if the run has not failed. -/
theorem heartbeat_agrees_iff {s : State} (h : Reachable s) {t : TaskRun} {r : Run} {w : String}
    (hheld : Holds env s.db w t r) (hst : t.status = .running) (d : ℤ) (o a : String)
    (logs : List String) :
    ((∃ e db', heartbeatTask env t.id w d s.db = .ok ((e, false), db')) ↔
      ∃ t' db', completeTask env t.id w o a logs s.db = .ok (t', db')) ↔
      r.status ≠ .failed := by
  have hk := h.wellFormed.toKeyed
  have hact : t.status.active = true := by rw [hst]; rfl
  have hbeat : (∃ e db', heartbeatTask env t.id w d s.db = .ok ((e, false), db')) ↔
      r.status ≠ .cancelled := by
    obtain ⟨db₁, hok⟩ := heartbeatTask_of_holds hk hheld hact d
    rw [hok]
    constructor
    · rintro ⟨e, db', heq⟩
      exact of_decide_eq_false (congrArg (fun x => x.1.2) (Except.ok.inj heq))
    · intro hrun
      exact ⟨_, _, by rw [decide_eq_false hrun]⟩
  have hdone : (∃ t' db', completeTask env t.id w o a logs s.db = .ok (t', db')) ↔
      r.status = .running := by
    constructor
    · rintro ⟨t', db', hok⟩
      obtain ⟨t₁, r₁, hheld₁, hid, -, hrun, -⟩ := completeTask_ok hk hok
      obtain rfl := Table.eq_of_key hk.tasks hheld₁.mem hheld.mem hid
      rwa [Table.eq_of_key hk.runs hheld.run hheld₁.run (hheld.runId.trans hheld₁.runId.symm)]
    · exact fun hrun => completeTask_of_holds hk hheld hst hrun o a logs
  rw [hbeat, hdone]
  rcases h.run_of_running hheld.mem hheld.run hheld.runId hst with hrun | hrun | hrun <;>
    simp [hrun]

/-- Both tasks of the pair are running. -/
def runningPair : List (ℤ × Op) :=
  [(1, .createRun 1 none 2 "k" "" none), (2, .dispatchReady (.ofList [4, 5])),
    (3, .leaseTask 4 "w" 100), (4, .startTask 4 "w"), (5, .leaseTask 5 "v" 100),
    (6, .startTask 5 "v")]

/-- While both are running, a heartbeat is answered as a completion would be. -/
theorem heartbeat_agrees_iff_runningPair :
    (∃ e db', heartbeatTask (Env.at 7 50) 4 "w" 100 (twoDefinitions.after runningPair).db =
      .ok ((e, false), db')) ↔
    ∃ t' db', completeTask (Env.at 7 50) 4 "w" "" "" [] (twoDefinitions.after runningPair).db =
      .ok (t', db') := by
  have hs : Reachable (twoDefinitions.after runningPair) :=
    reachable_after init_twoDefinitions (by decide)
  obtain ⟨t, ht, hid, hst, hrid, howner, hexp⟩ :
      ∃ t ∈ (twoDefinitions.after runningPair).db.taskRuns, t.id = 4 ∧ t.status = .running ∧
        t.workflowRunId = 3 ∧ t.leaseOwner = some "w" ∧ t.leaseExpiresAt = some 103 := by decide
  obtain ⟨r, hr, hrun, hstatus⟩ : ∃ r ∈ (twoDefinitions.after runningPair).db.workflowRuns,
      r.id = 3 ∧ r.status = .running := by decide
  have hheld : Holds (Env.at 7 50) (twoDefinitions.after runningPair).db "w" t r :=
    ⟨ht, hr, hrun.trans hrid.symm, howner, 103, hexp, by decide⟩
  have hagree := (heartbeat_agrees_iff hs hheld hst 100 "" "" []).2 (by simp [hstatus])
  rwa [hid] at hagree

/-- One of them fails for good : the heartbeat of the other says to carry on, and its completion
is refused. -/
theorem heartbeat_of_failed_run :
    ∃ s, Reachable s ∧
      (∃ e db', heartbeatTask (Env.at 8 50) 4 "w" 100 s.db = .ok ((e, false), db')) ∧
      completeTask (Env.at 8 50) 4 "w" "" "" [] s.db = .error .leaseLost := by
  have hs : Reachable (twoDefinitions.after (runningPair ++
      [(7, .failTask 5 "v" ⟨false, "ValueError", "", ""⟩)])) :=
    reachable_after init_twoDefinitions (by decide)
  exact ⟨_, hs, ⟨_, _, rfl⟩, rfl⟩

end RunMesh
