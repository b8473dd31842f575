import RunMesh.Events
import RunMesh.Serialisation

/-!
# Retries and replays that meet

`RetryRun` and `ReplayDead` statement by statement, beside the transactions of
`RunMesh.Serialisation`. A retry begins with `SELECT ... FOR UPDATE` of the run, so the run is its
gate. A replay begins with `SELECT ... FOR UPDATE OF t,r`, which locks the task before the run. It
still passes the gate before it writes, so any number of them with any number of starts,
completions and cancellations of one run are serial, and each dead task is revived once
(`revivals_serialise`).

What the order of the locks costs is progress. Transactions that lock the run first never wait for
each other in a circle (`run_transactions_progress`), but a replay that has its task and a retry
that has the run do (`retry_and_replay_wait`), until PostgreSQL aborts one of them with 40P01. That
is not a step here.
-/

namespace RunMesh

open ReadCommitted Fallible

/-! ## Statements -/

/-- `SELECT ... FROM task_runs t JOIN workflow_runs r ON r.id=t.workflow_run_id WHERE p
FOR UPDATE OF t,r`. -/
def selectTaskRunForUpdate (p : TaskRun × Run → Bool) : Stmt Db RowKey Result where
  locks snap := (snap.tasksWithRun.filter p).flatMap fun tr => [.task tr.1.id, .run tr.2.id]
  result snap db :=
    { joined := db.tasksWithRun.filter
        (Table.requalifies (fun tr => (tr.1.id, tr.2.id)) p snap.tasksWithRun) }
  write _ db := db

/-- `SELECT true FROM workflow_runs WHERE p FOR UPDATE`. -/
def selectRunForUpdate (p : Run → Bool) : Stmt Db RowKey Result where
  locks snap := (snap.workflowRuns.filter p).map fun r => .run r.id
  result snap db :=
    { count := db.workflowRuns.countP (Table.requalifies Run.id p snap.workflowRuns) }
  write _ db := db

/-- `t.workflow_run_id=$1 AND t.status='CANCELLED'`. -/
def cancelledIn (runId : ℕ) (t : TaskRun) : Bool :=
  t.workflowRunId = runId ∧ t.status = .cancelled

/-- The `UPDATE` of `ReplayDead` that rebuilds the cancelled tasks of the run. It reads their
upstreams as of its start. -/
def rebuildTasks (env : Env) (runId : ℕ) : Stmt Db RowKey Result where
  locks snap := (snap.taskRuns.filter (cancelledIn runId)).map fun t => .task t.id
  result _ _ := {}
  write snap db :=
    let cancelled := Table.requalifies TaskRun.id (cancelledIn runId) snap.taskRuns
    { db with taskRuns := Table.update cancelled (rebuild env snap snap.taskRuns) db.taskRuns }

/-- `INSERT INTO outbox_events ... SELECT ..., trace_parent FROM workflow_runs WHERE id=$3`. -/
def insertRunEvent (runId : ℕ) (e : OutboxEvent) : Stmt Db RowKey Result where
  locks _ := []
  result _ _ := {}
  write snap db :=
    { db with outboxEvents := db.outboxEvents ++
        (snap.workflowRuns.filter fun r => r.id = runId).map fun r =>
          { e with traceParent := r.traceParent } }

/-! ## Programs -/

/-- The statements of `Store.RetryRun`. -/
def retryRunTx (env : Env) (tenantId : ℕ) (userId : Option ℕ) (id : ℕ) : SqlProgram :=
  .stmt (selectRunForUpdate fun r => r.id = id ∧ r.tenantId = tenantId) fun found =>
    if found.count = 0 then .rollback .notFound
    else
      .stmt (updateTasks (fun _ t => t.workflowRunId = id ∧ t.status = .dead)
          fun t => { revive env t with leaseOwner := none, leaseExpiresAt := none }) fun retried =>
        match retried.tasks with
        | [] => .rollback .conflict
        | _ :: _ =>
          .stmt (updateRuns (fun r => r.id = id)
              fun r => { r with status := .running, completedAt := none }) fun _ =>
            .stmt (insertAudit (newAuditEvent env tenantId userId "run.retry" "workflow_run" id))
              fun _ => .commit

/-- The statements of `Store.ReplayDead`. -/
def replayDeadTx (env : Env) (tenantId : ℕ) (userId : Option ℕ) (taskId : ℕ) : SqlProgram :=
  .stmt (selectTaskRunForUpdate fun tr =>
      tr.1.id = taskId ∧ tr.2.tenantId = tenantId ∧ tr.1.status = .dead) fun found =>
    match found.joined with
    | [] => .rollback .notFound
    | tr :: _ =>
      .stmt (updateRuns (fun r => r.id = tr.1.workflowRunId ∧ r.status = .failed)
          fun r => { r with status := .running, completedAt := none }) fun _ =>
        .stmt (updateTasks (fun _ t => t.id = taskId) (revive env)) fun _ =>
          .stmt (rebuildTasks env tr.1.workflowRunId) fun _ =>
            .stmt (insertRunEvent tr.1.workflowRunId (replayedEvent env tr.1 tr.2)) fun _ =>
              .stmt (insertAudit
                  (newAuditEvent env tenantId userId "task.replay" "task_run" taskId))
                fun _ => .commit

theorem retryRunTx_exec (env : Env) (tenantId : ℕ) (userId : Option ℕ) (id : ℕ) (db : Db) :
    (retryRunTx env tenantId userId id).exec db = retryRun env tenantId userId id db := by
  simp only [retryRunTx, retryRun, Program.exec, selectRunForUpdate, Table.countP_requalifies]
  by_cases hany : ∃ r ∈ db.workflowRuns, (decide (r.id = id ∧ r.tenantId = tenantId)) = true
  · rw [if_neg (List.countP_pos_iff.2 hany).ne', List.any_eq_true.2 hany]
    simp only [Program.exec, updateTasks, Table.returning_requalifies, Table.update_requalifies,
      require, if_true, ok_bind]
    cases hdead : db.taskRuns.filter fun t => decide (t.workflowRunId = id ∧ t.status = .dead) with
    | nil =>
      have hnone : db.taskRuns.any (fun t => t.workflowRunId = id ∧ t.status = .dead) = false := by
        simpa [List.filter_eq_nil_iff] using hdead
      simp only [Table.returning, hdead, List.map_nil, hnone]
      rfl
    | cons t ts =>
      have hsome : db.taskRuns.any (fun t => t.workflowRunId = id ∧ t.status = .dead) = true :=
        List.any_eq_true.2 ⟨t, List.mem_filter.1 (hdead ▸ List.mem_cons_self)⟩
      simp only [Table.returning, hdead, List.map_cons, hsome]
      simp only [Program.exec, updateRuns, Table.update_requalifies, insertAudit]
      rfl
  · have hnone : ∀ r ∈ db.workflowRuns, ¬(decide (r.id = id ∧ r.tenantId = tenantId)) = true :=
      fun r hr hp => hany ⟨r, hr, hp⟩
    rw [if_pos (List.countP_eq_zero.2 hnone), Bool.eq_false_iff.2 (mt List.any_eq_true.1 hany)]
    rfl

theorem replayDeadTx_exec (env : Env) (tenantId : ℕ) (userId : Option ℕ) (taskId : ℕ) {db : Db}
    (hk : db.Keyed) :
    (replayDeadTx env tenantId userId taskId).exec db =
      replayDead env tenantId userId taskId db := by
  simp only [replayDeadTx, replayDead, Program.exec, selectTaskRunForUpdate,
    Table.filter_requalifies, ← List.head?_filter]
  cases hfound : db.tasksWithRun.filter _ with
  | nil => rfl
  | cons tr trs =>
    obtain ⟨-, hr, hrid⟩ := Table.mem_join.1
      (List.mem_of_mem_filter (hfound ▸ List.mem_cons_self : tr ∈ db.tasksWithRun.filter _))
    have hevents : ((db.workflowRuns.map (reopenRun tr.1.workflowRunId)).filter
        fun r => r.id = tr.1.workflowRunId).map
          (fun r => { replayedEvent env tr.1 tr.2 with traceParent := r.traceParent }) =
        [replayedEvent env tr.1 tr.2] := by
      have hid : ∀ r, (reopenRun tr.1.workflowRunId r).id = r.id := fun r => by
        unfold reopenRun
        split_ifs <;> rfl
      have htrace : (reopenRun tr.1.workflowRunId tr.2).traceParent = tr.2.traceParent := by
        unfold reopenRun
        split_ifs <;> rfl
      simp only [List.filter_map, Function.comp_def, hid]
      rw [← hrid, Table.filter_key hk.runs hr, List.map_singleton, List.map_singleton, hrid, htrace]
      rfl
    have hruns : Table.update (fun r => r.id = tr.1.workflowRunId ∧ r.status = .failed)
        (fun r => { r with status := .running, completedAt := none }) db.workflowRuns =
          db.workflowRuns.map (reopenRun tr.1.workflowRunId) :=
      List.map_congr_left fun r _ => by simp [reopenRun]
    simp only [List.head?_cons, orError, ok_bind, Program.exec, updateRuns, updateTasks,
      rebuildTasks, insertRunEvent, insertAudit, Table.update_requalifies, hruns, hevents]
    rfl

/-! ## The gate -/

section Gate

variable {I : Db → Prop} {runId : ℕ} {k : Result → SqlProgram}

/-- A `SELECT ... FOR UPDATE` is an `UPDATE` that changes nothing. -/
theorem selectRunForUpdate_eq (p : Run → Bool) : selectRunForUpdate p = updateRuns p id := by
  have hsame : ∀ (q : Run → Bool) (db : Db),
      { db with workflowRuns := Table.update q id db.workflowRuns } = db := by
    intro q db
    simp [Table.update]
  simp only [selectRunForUpdate, updateRuns, hsame]

/-- A `SELECT ... FOR UPDATE` of the run locks it. -/
theorem selectRunForUpdate_gated {p : Run → Bool} (hid : ∀ r, p r = true → r.id = runId)
    (hk : ∀ r : Result, r.count = 0 → (k r).Barren) :
    Program.Gated (.run runId) I (.stmt (selectRunForUpdate p) k) := by
  rw [selectRunForUpdate_eq]
  exact updateRuns_gated hid hk

/-- A `SELECT ... FOR UPDATE OF t,r` of one task of the run locks the run, after the task. -/
theorem selectTaskRunForUpdate_passes {p : TaskRun × Run → Bool} (id : ℕ)
    (hid : ∀ tr, p tr = true → tr.1.id = id)
    (hrun : ∀ db, I db → ∀ t ∈ db.taskRuns, t.id = id → t.workflowRunId = runId)
    (hk : ∀ r : Result, r.joined = [] → (k r).Barren) :
    Program.Passes (.run runId) I (.stmt (selectTaskRunForUpdate p) k) := by
  have hkey : ∀ db, I db → ∀ tr ∈ db.tasksWithRun, p tr = true →
      (tr.1.id, tr.2.id) = (id, runId) := by
    intro db hdb tr htr hp
    obtain ⟨ht, -, hrid⟩ := Table.mem_join.1 htr
    rw [hid _ hp, hrid, hrun db hdb _ ht (hid _ hp)]
  intro snap hsnap
  cases hf : snap.tasksWithRun.filter p with
  | nil =>
    refine .inl ⟨by simp [selectTaskRunForUpdate, hf], fun db => hk _ ?_⟩
    exact List.filter_eq_nil_iff.2 fun tr _ =>
      Table.not_requalifies (List.filter_eq_nil_iff.1 hf) tr
  | cons o os =>
    obtain ⟨ho, hpo⟩ := List.mem_filter.1 (hf ▸ List.mem_cons_self)
    have hokey := hkey snap hsnap o ho hpo
    refine .inr ⟨?_, fun db hdb => ⟨?_, rfl⟩⟩
    · refine List.mem_flatMap.2 ⟨o, hf ▸ List.mem_cons_self, ?_⟩
      simpa using (Prod.mk.inj hokey).2.symm
    · simp only [selectTaskRunForUpdate, Table.filter_requalifies]
      congr 1
      refine List.filter_congr fun tr htr => Table.requalifies_of_mem ho hpo fun hp => ?_
      exact hokey.trans (hkey db hdb tr htr hp).symm

end Gate

/-! ## Transactions on one run -/

/-- The transactions that pass the row of their run. -/
inductive Intervention
  | work (x : RunTx)
  | retry (tenantId : ℕ) (userId : Option ℕ)
  | replay (tenantId : ℕ) (userId : Option ℕ) (taskId : ℕ)
  deriving DecidableEq

namespace Intervention

/-- The task it names. -/
def taskId : Intervention → Option ℕ
  | work x => x.taskId
  | retry _ _ => none
  | replay _ _ taskId => some taskId

/-- The operation on the run `runId`. -/
def op (runId : ℕ) : Intervention → Op
  | work x => x.op runId
  | retry tenantId userId => .retryRun tenantId userId runId
  | replay tenantId userId taskId => .replayDead tenantId userId taskId

/-- Its statements. -/
def program (env : Env) (runId : ℕ) : Intervention → SqlProgram
  | work x => x.program env runId
  | retry tenantId userId => retryRunTx env tenantId userId runId
  | replay tenantId userId taskId => replayDeadTx env tenantId userId taskId

/-- It is a retry. -/
def retries : Intervention → Bool
  | retry _ _ => true
  | _ => false

/-- It is a replay of the task. -/
def replays (id : ℕ) : Intervention → Bool
  | replay _ _ taskId => taskId = id
  | _ => false

/-- It revives the task if that is dead. -/
def revives (id : ℕ) (x : Intervention) : Bool :=
  x.retries || x.replays id

variable {x : Intervention} {env : Env} {runId : ℕ} {db db' : Db} {reply : Reply}

/-- Alone, the statements are the operation. -/
theorem program_exec (hk : db.Keyed) (x : Intervention) (env : Env) (runId : ℕ) :
    (x.program env runId).exec db = ((⟨env, x.op runId⟩ : Call).exec db).map Prod.snd := by
  cases x with
  | work x => exact x.program_exec env runId db
  | retry tenantId userId =>
    rw [program, retryRunTx_exec]
    simp only [Call.exec, op, Op.exec]
    cases retryRun env tenantId userId runId db <;> rfl
  | replay tenantId userId taskId =>
    rw [program, replayDeadTx_exec _ _ _ _ hk]
    simp only [Call.exec, op, Op.exec]
    cases replayDead env tenantId userId taskId db <;> rfl

/-- The operation adds no run. -/
theorem moves (hk : db.Keyed) (h : (x.op runId).exec env db = .ok (reply, db')) :
    Moves env (x.op runId) db db' := by
  rcases exec_moves hk h with hm | ⟨run, dag, hc⟩
  · exact hm
  · obtain ⟨_, _, _, _, _, _, hop⟩ := hc.isCreate
    cases x with
    | work x => cases x <;> cases hop
    | retry => cases hop
    | replay => cases hop

/-- All but a replay lock the row of their run first. -/
theorem gated {I : Db → Prop} (hx : ∀ id, x.replays id = false) (env : Env)
    (hI : ∀ db, I db → ∀ t ∈ db.taskRuns, x.taskId = some t.id → t.workflowRunId = runId) :
    (x.program env runId).Gated (.run runId) I := by
  cases x with
  | work x => exact x.gated env hI
  | retry tenantId userId =>
    refine selectRunForUpdate_gated (fun r hr => (of_decide_eq_true hr).1) fun r hr => ?_
    simp only [hr, if_true]
    exact .rollback _
  | replay tenantId userId taskId => simpa [replays] using hx taskId

/-- They all pass it. -/
theorem passes {I : Db → Prop} (x : Intervention) (env : Env)
    (hI : ∀ db, I db → ∀ t ∈ db.taskRuns, x.taskId = some t.id → t.workflowRunId = runId) :
    (x.program env runId).Passes (.run runId) I := by
  cases x with
  | replay tenantId userId taskId =>
    refine selectTaskRunForUpdate_passes taskId (fun tr htr => (of_decide_eq_true htr).1)
      (fun db hdb t ht hid => hI db hdb t ht (by simp [Intervention.taskId, hid])) fun r hr => ?_
    simp only [hr]
    exact .rollback _
  | _ => exact (gated (fun _ => rfl) env hI).passes

/-- A retry or a replay that does not commit ends with `ErrNotFound` or `ErrConflict`. -/
theorem raises (hx : ∀ y, x ≠ work y) (env : Env) (runId : ℕ) :
    (x.program env runId).Raises fun e => e = .notFound ∨ e = .conflict := by
  cases x with
  | work x => exact absurd rfl (hx x)
  | retry tenantId userId =>
    refine .stmt fun found => ?_
    split_ifs
    · exact .rollback (.inl rfl)
    · refine .stmt fun retried => ?_
      split
      · exact .rollback (.inr rfl)
      · exact .stmt fun _ => .stmt fun _ => .commit
  | replay tenantId userId taskId =>
    refine .stmt fun found => ?_
    split
    · exact .rollback (.inl rfl)
    · exact .stmt fun _ => .stmt fun _ => .stmt fun _ => .stmt fun _ => .stmt fun _ => .commit

end Intervention

/-- Transactions on one run, each with its time and UUIDs. -/
structure Dispute (ι : Type*) where
  runId : ℕ
  env : ι → Env
  tx : ι → Intervention

namespace Dispute

variable {ι : Type*} (c : Dispute ι)

/-- The statements of transaction `i`. -/
def program (i : ι) : SqlProgram :=
  (c.tx i).program (c.env i) c.runId

/-- Transaction `i` as one step. -/
def call (i : ι) : Call :=
  ⟨c.env i, (c.tx i).op c.runId⟩

/-- The tasks they name are tasks of the run. -/
def OnRun (db : Db) : Prop :=
  ∀ i, ∀ t ∈ db.taskRuns, (c.tx i).taskId = some t.id → t.workflowRunId = c.runId

/-- What the transactions keep. -/
structure Kept (db : Db) : Prop where
  wellFormed : db.WellFormed
  onRun : c.OnRun db

variable {c} {db db' : Db} {reply : Reply} {i : ι}

theorem Kept.exec (h : c.Kept db) (hok : (c.call i).exec db = .ok (reply, db')) : c.Kept db' where
  wellFormed := (Intervention.moves h.wellFormed.toKeyed hok).wellFormed h.wellFormed
  onRun j t' ht' hid := by
    obtain ⟨t, ht, hmove⟩ := (Intervention.moves h.wellFormed.toKeyed hok).of_mem_task ht'
    rw [hmove.workflowRunId]
    exact h.onRun j t ht (by rw [hid, hmove.id])

theorem Kept.serial_eq_execAll (is : List ι) : ∀ {db : Db}, c.Kept db →
    serial c.program is db = execAll (is.map c.call) db := by
  induction is with
  | nil => exact fun _ => rfl
  | cons i is ih =>
    intro db h
    rw [serial, List.map_cons, execAll, program,
      (c.tx i).program_exec h.wellFormed.toKeyed (c.env i) c.runId]
    cases hok : (c.call i).exec db with
    | error e =>
      rw [call] at hok
      rw [hok]
      rfl
    | ok r =>
      obtain ⟨reply, db'⟩ := r
      have hkept := h.exec hok
      rw [call] at hok
      rw [hok]
      exact ih hkept

variable [DecidableEq ι]

/-- The transactions under READ COMMITTED, after the steps `as` from `db`. -/
def after (c : Dispute ι) (db : Db) (as : List (Action ι)) :
    System ι Db RowKey Result StoreError :=
  (readCommitted ι Db RowKey Result StoreError).run (.init db c.program) as

/-- The steps are possible one after the other from `db`. -/
def Steps (c : Dispute ι) (db : Db) (as : List (Action ι)) : Prop :=
  (readCommitted ι Db RowKey Result StoreError).Valid (.init db c.program) as

instance [Fintype ι] (as : List (Action ι)) : Decidable (c.Steps db as) :=
  inferInstanceAs (Decidable (Machine.Valid _ _ as))

omit [DecidableEq ι] in
theorem Kept.program_exec (h : c.Kept db) (hok : (c.program i).exec db = .ok db') : c.Kept db' := by
  rw [program, (c.tx i).program_exec h.wellFormed.toKeyed] at hok
  obtain ⟨⟨reply, _⟩, hcall, rfl⟩ := map_eq_ok.1 hok
  exact h.exec hcall

/-- The committed transactions one after the other give the committed state. -/
theorem Kept.execAll_committed (h : c.Kept db) {as : List (Action ι)} (has : c.Steps db as) :
    execAll ((c.after db as).committed.map c.call) db = .ok (c.after db as).db := by
  rw [← h.serial_eq_execAll]
  exact (passes_serial (fun i => (c.tx i).passes _ fun d hd => hd.onRun i)
    (fun i d d' hd hok => hd.program_exec hok) h has).serial

end Dispute

/-! ## Dead tasks -/

/-- What becomes of a dead task `t` : it stays as it is, or it is revived and has one more attempt,
whatever happens to it then. -/
def Fate (t : TaskRun) (revived : Bool) (t' : TaskRun) : Prop :=
  if revived then
    (t'.status.waiting = true ∨ t'.status = .cancelled) ∧ t'.attemptCount = t.attemptCount ∧
      t'.maximumAttempts = max t.maximumAttempts (t.attemptCount + 1)
  else t' = t

section Fate

variable {env : Env} {runId : ℕ} {db db' : Db} {reply : Reply} {t t₁ t₂ : TaskRun} {b : Bool}

theorem Fate.of_revive (h : t₂.status = .ready) (hc : t₂.attemptCount = t.attemptCount)
    (hm : t₂.maximumAttempts = max t.maximumAttempts (t.attemptCount + 1)) : Fate t true t₂ :=
  ⟨.inl (by rw [h]; rfl), hc, hm⟩

/-- A start, a completion or a cancellation moves a task that a worker holds, wakes a blocked one or
cancels a waiting one. -/
theorem TaskMove.of_work {x : RunTx} (h : TaskMove env db (x.op runId) t₁ t₂) :
    t₂ = t₁ ∨ t₁.status.active = true ∨ t₁.status.waiting = true ∧
      (t₂.status = .ready ∨ t₂.status = .cancelled) ∧ t₂.attemptCount = t₁.attemptCount ∧
        t₂.maximumAttempts = t₁.maximumAttempts := by
  cases x with
  | start taskId w =>
    cases h with
    | keep => exact .inl rfl
    | start _ hst _ => exact .inr (.inl (by simp [hst, TaskStatus.active]))
  | complete taskId w o a logs =>
    cases h with
    | keep => exact .inl rfl
    | succeed _ _ hst _ => exact .inr (.inl (by simp [hst, TaskStatus.active]))
    | wake _ _ _ hwake =>
      exact .inr (.inr ⟨by simp [hwake.2.1, TaskStatus.waiting], .inl rfl, rfl, rfl⟩)
  | cancel tenantId userId =>
    cases h with
    | keep => exact .inl rfl
    | cancel _ _ _ _ hwait => exact .inr (.inr ⟨hwait, .inr rfl, rfl, rfl⟩)

theorem Fate.work (h : Fate t b t₁) (hdead : t.status = .dead) {x : RunTx}
    (hmove : TaskMove env db (x.op runId) t₁ t₂) : Fate t b t₂ := by
  rcases hmove.of_work with rfl | hactive | ⟨hwait, hst, hcount, hmax⟩
  · exact h
  · -- no worker holds it
    cases b with
    | false =>
      obtain rfl : t₁ = t := h
      simp [hdead, TaskStatus.active] at hactive
    | true =>
      rcases h.1 with hst | hst <;> revert hst hactive <;> cases t₁.status <;>
        simp [TaskStatus.waiting, TaskStatus.active]
  · cases b with
    | false =>
      obtain rfl : t₁ = t := h
      simp [hdead, TaskStatus.waiting] at hwait
    | true =>
      refine ⟨hst.imp_left fun hready => ?_, hcount.trans h.2.1, hmax.trans h.2.2⟩
      rw [hready]
      rfl

theorem Fate.ne_dead (h : Fate t true t₁) : t₁.status ≠ .dead := by
  rintro hdead
  rcases h.1 with hst | hst <;> simp [hdead, TaskStatus.waiting] at hst

/-- What a retry makes of it. -/
theorem Fate.retry (h : Fate t b t₁) (hdead : t.status = .dead) (hrun : t.workflowRunId = runId) :
    Fate t true (if t₁.workflowRunId = runId ∧ t₁.status = .dead then
      { revive env t₁ with leaseOwner := none, leaseExpiresAt := none } else t₁) := by
  cases b with
  | false =>
    obtain rfl : t₁ = t := h
    rw [if_pos ⟨hrun, hdead⟩]
    exact .of_revive rfl rfl rfl
  | true =>
    rw [if_neg fun hp => h.ne_dead hp.2]
    exact h

/-- What a replay makes of it, if that is a replay of the task or of another. -/
theorem Fate.replay (h : Fate t b t₁) (hdead : t.status = .dead) (hid : t₁.id = t.id) {u : TaskRun}
    (hsame : u.id = t.id → u = t₁) (hu : u.status = .dead) :
    Fate t (b || decide (u.id = t.id)) (replayRow env db u t₁) := by
  unfold replayRow
  by_cases hut : u.id = t.id
  · obtain rfl := hsame hut
    cases b with
    | false =>
      obtain rfl : u = t := h
      rw [if_pos rfl, decide_eq_true hut, Bool.or_true]
      exact .of_revive rfl rfl rfl
    | true => exact absurd hu h.ne_dead
  · rw [if_neg (by rw [hid]; exact Ne.symm hut)]
    simp only [hut, decide_false, Bool.or_false]
    split_ifs with hp
    · cases b with
      | false =>
        obtain rfl : t₁ = t := h
        simp [hdead] at hp
      | true =>
        refine ⟨.inl ?_, h.2.1, h.2.2⟩
        unfold rebuild
        dsimp only
        split_ifs <;> rfl
    · exact h

/-- What an intervention makes of it. A replay of the task finds it dead. -/
theorem Fate.exec (h : Fate t b t₁) (hk : db.Keyed) (ht₁ : t₁ ∈ db.taskRuns) (hid : t₁.id = t.id)
    (hdead : t.status = .dead) (hrun : t.workflowRunId = runId) {x : Intervention}
    (hok : (x.op runId).exec env db = .ok (reply, db')) :
    (x.replays t.id = true → b = false) ∧
      ∃ t₂ ∈ db'.taskRuns, t₂.id = t.id ∧ Fate t (b || x.revives t.id) t₂ := by
  cases x with
  | work x =>
    obtain ⟨t₂, ht₂, hmove⟩ := (RunTx.moves hk hok).mem_task ht₁
    refine ⟨fun hr => absurd hr Bool.false_ne_true, t₂, ht₂, hmove.id.trans hid, ?_⟩
    simpa [Intervention.revives, Intervention.retries, Intervention.replays] using
      h.work hdead hmove
  | retry tenantId userId =>
    obtain ⟨-, -, rfl⟩ := retryRun_ok (of_map_done hok)
    refine ⟨fun hr => absurd hr Bool.false_ne_true, _, Table.mem_update.2 ⟨t₁, ht₁, rfl⟩, ?_, ?_⟩
    · split_ifs <;> exact hid
    · simpa [Intervention.revives, Intervention.retries] using h.retry hdead hrun
  | replay tenantId userId taskId =>
    obtain ⟨u, hu, r, -, rfl, -, -, hudead, rfl⟩ := replayDead_ok (of_map_done hok)
    have hsame : u.id = t.id → u = t₁ := fun hut =>
      Table.eq_of_key hk.tasks hu ht₁ (hut.trans hid.symm)
    refine ⟨fun hr => ?_, replayRow env db u t₁, List.mem_map_of_mem ht₁, ?_, ?_⟩
    · obtain rfl := hsame (of_decide_eq_true hr)
      by_contra hb
      rw [Bool.not_eq_false] at hb
      exact (hb ▸ h).ne_dead hudead
    · unfold replayRow
      split_ifs <;> exact hid
    · exact h.replay hdead hid hsame hudead

end Fate

/-! ## Serial histories -/

/-- No task of the run is dead. -/
def Db.NoDead (db : Db) (runId : ℕ) : Prop :=
  ∀ t ∈ db.taskRuns, t.workflowRunId = runId → t.status ≠ .dead

/-- The event `task.replayed` of the task. -/
def isReplayedOf (id : ℕ) (e : OutboxEvent) : Bool :=
  e.eventType = .replayed ∧ e.aggregateType = .taskRun ∧ e.aggregateId = id

namespace Intervention

variable {x : Intervention} {env : Env} {runId : ℕ} {db db' : Db} {reply : Reply}

/-- An intervention kills no task. -/
theorem eq_of_dead {t t' : TaskRun} (h : TaskMove env db (x.op runId) t t')
    (hdead : t'.status = .dead) : t = t' := by
  cases x with
  | work x =>
    rcases h.of_work with rfl | hactive | ⟨-, hst, -⟩
    · rfl
    · cases x <;> cases h <;> simp_all [TaskStatus.waiting, RunMesh.wake, RunMesh.succeed]
    · simp [hdead] at hst
  | retry tenantId userId =>
    cases h with
    | keep => rfl
    | retry => simp [revive] at hdead
  | replay tenantId userId taskId =>
    cases h with
    | keep => rfl
    | replay => simp [revive] at hdead
    | rebuild =>
      simp only [RunMesh.rebuild] at hdead
      split_ifs at hdead

theorem noDead (hk : db.Keyed) (hok : (x.op runId).exec env db = .ok (reply, db'))
    (h : db.NoDead runId) : db'.NoDead runId := by
  intro t' ht' hrun hdead
  obtain ⟨t, ht, hmove⟩ := (moves hk hok).of_mem_task ht'
  obtain rfl := eq_of_dead hmove hdead
  exact h t ht hrun hdead

/-- A retry finds a dead task, and leaves none. -/
theorem noDead_of_retries (hx : x.retries = true)
    (hok : (x.op runId).exec env db = .ok (reply, db')) :
    ¬db.NoDead runId ∧ db'.NoDead runId := by
  cases x with
  | work x => cases hx
  | replay tenantId userId taskId => cases hx
  | retry tenantId userId =>
    obtain ⟨-, ⟨t, ht, hrun, hdead⟩, rfl⟩ := retryRun_ok (of_map_done hok)
    refine ⟨fun h => h t ht hrun hdead, fun t' ht' hrun' hdead' => ?_⟩
    obtain ⟨u, -, rfl⟩ := Table.mem_update.1 ht'
    split_ifs at hrun' hdead' with hp
    · simp [revive] at hdead'
    · simp [hrun', hdead'] at hp

/-- A replay writes one event `task.replayed`, and no other transaction does. -/
theorem replayed (hk : db.Keyed) (hok : (x.op runId).exec env db = .ok (reply, db')) (id : ℕ) :
    ∃ new, db'.outboxEvents = db.outboxEvents ++ new ∧
      new.countP (isReplayedOf id) = if x.replays id then 1 else 0 := by
  have hnone : (EventType.replayed ∉ (x.op runId).emits) → ∃ new,
      db'.outboxEvents = db.outboxEvents ++ new ∧ new.countP (isReplayedOf id) = 0 := by
    intro hemits
    obtain ⟨new, hnew, hty⟩ := (exec_grows hk hok).events
    refine ⟨new, hnew, List.countP_eq_zero.2 fun e he hp => hemits ?_⟩
    rw [← (of_decide_eq_true hp).1]
    exact hty e he
  cases x with
  | work x => exact hnone (by cases x <;> simp [op, RunTx.op, Op.emits])
  | retry tenantId userId => exact hnone (by simp [op, Op.emits])
  | replay tenantId userId taskId =>
    obtain ⟨u, -, r, -, rfl, -, -, -, rfl⟩ := replayDead_ok (of_map_done hok)
    refine ⟨_, rfl, ?_⟩
    simp [replayedEvent, newEvent, isReplayedOf, replays]

end Intervention

/-- What is known of a dead task `t` of `db₀` after the transactions `is` one after the other. -/
structure Dispute.Revival {ι : Type*} (c : Dispute ι) (db₀ : Db) (t : TaskRun) (is : List ι)
    (db : Db) : Prop where
  kept : c.Kept db
  fate : ∃ t' ∈ db.taskRuns, t'.id = t.id ∧ Fate t (is.any fun i => (c.tx i).revives t.id) t'
  replayed : is.countP (fun i => (c.tx i).replays t.id) ≤ 1
  events : ∃ new, db.outboxEvents = db₀.outboxEvents ++ new ∧
    new.countP (isReplayedOf t.id) = is.countP fun i => (c.tx i).replays t.id

section Serial

variable {ι : Type*} {c : Dispute ι} {db₀ db : Db}

theorem execAll_snoc_ok {i : ι} {is : List ι} (h : execAll ((is ++ [i]).map c.call) db₀ = .ok db) :
    ∃ db₁ reply, execAll (is.map c.call) db₀ = .ok db₁ ∧ (c.call i).exec db₁ = .ok (reply, db) := by
  rw [List.map_append] at h
  obtain ⟨db₁, his, hi⟩ := execAll_append_ok h
  obtain ⟨reply, db₂, hexec, hnil⟩ := execAll_cons_ok.1 hi
  cases hnil
  exact ⟨db₁, reply, his, hexec⟩

/-- The induction is on the transactions from the last to the first. -/
theorem Dispute.Kept.revival (h : c.Kept db₀) {t : TaskRun} (ht : t ∈ db₀.taskRuns)
    (hrun : t.workflowRunId = c.runId) (hdead : t.status = .dead) (is : List ι) :
    ∀ {db}, execAll (is.map c.call) db₀ = .ok db → c.Revival db₀ t is db := by
  induction is using List.reverseRecOn with
  | nil =>
    intro db hok
    cases hok
    exact ⟨h, ⟨t, ht, rfl, rfl⟩, by simp, [], by simp, rfl⟩
  | append_singleton is i ih =>
    intro db hok
    obtain ⟨db₁, reply, his, hexec⟩ := execAll_snoc_ok hok
    obtain ⟨hkept, ⟨t₁, ht₁, hid, hfate⟩, hone, new, hnew, hcount⟩ := ih his
    have hk := hkept.wellFormed.toKeyed
    obtain ⟨hfirst, t₂, ht₂, hid₂, hfate₂⟩ := hfate.exec hk ht₁ hid hdead hrun hexec
    obtain ⟨new', hnew', hcount'⟩ := Intervention.replayed hk hexec t.id
    refine ⟨hkept.exec hexec, ⟨t₂, ht₂, hid₂, by simpa using hfate₂⟩, ?_, new ++ new', ?_, ?_⟩
    · rw [List.countP_append, List.countP_singleton]
      split_ifs with hr
      · -- nothing has revived the task before
        have hnone := hfirst hr
        have hzero : is.countP (fun i => (c.tx i).replays t.id) = 0 := by
          refine List.countP_eq_zero.2 fun j hj hj' => ?_
          have := List.any_eq_false.1 hnone j hj
          simp [Intervention.revives, hj'] at this
        omega
      · simpa using hone
    · rw [hnew', hnew, List.append_assoc]
    · rw [List.countP_append, List.countP_append, hcount, hcount', List.countP_singleton]

/-- After a retry there is no dead task, so there is one retry at most. -/
theorem Dispute.Kept.retries (h : c.Kept db₀) (is : List ι) :
    ∀ {db}, execAll (is.map c.call) db₀ = .ok db → c.Kept db ∧
      is.countP (fun i => (c.tx i).retries) ≤ 1 ∧
      (0 < is.countP (fun i => (c.tx i).retries) → db.NoDead c.runId) := by
  induction is using List.reverseRecOn with
  | nil =>
    intro db hok
    cases hok
    exact ⟨h, by simp, by simp⟩
  | append_singleton is i ih =>
    intro db hok
    obtain ⟨db₁, reply, his, hexec⟩ := execAll_snoc_ok hok
    obtain ⟨hkept, hone, hnone⟩ := ih his
    rw [List.countP_append, List.countP_singleton]
    refine ⟨hkept.exec hexec, ?_⟩
    split_ifs with hr
    · obtain ⟨hsome, hleft⟩ := Intervention.noDead_of_retries hr hexec
      have hzero := mt hnone hsome
      exact ⟨by omega, fun _ => hleft⟩
    · refine ⟨by simpa using hone, fun hpos => ?_⟩
      exact Intervention.noDead hkept.wellFormed.toKeyed hexec (hnone (by simpa using hpos))

end Serial

/-! ## The results -/

/-- Retries and replays serialise. Let any number of them, with starts, completions and
cancellations, be interleaved statement by statement on one run, from any reachable state. The
committed state is that of the committed transactions one after the other. One retry commits at
most, and one replay of a task at most, with one event. A task that was dead is still as it was if
none of them has committed, and otherwise it has got its new limit of attempts once. A retry or
a replay that rolls back by itself returns `ErrNotFound` or `ErrConflict`. One that is aborted to
break a deadlock (`retry_and_replay_wait`) gets the error of the database instead, and is here one
that goes on waiting. -/
theorem revivals_serialise {s : State} (h : Reachable s) {ι : Type*} [DecidableEq ι]
    (c : Dispute ι) (hon : c.OnRun s.db) {as : List (Action ι)} (has : c.Steps s.db as)
    {is : List ι} (his : (c.after s.db as).committed = is) :
    is.Nodup ∧ execAll (is.map c.call) s.db = .ok (c.after s.db as).db ∧
    is.countP (fun i => (c.tx i).retries) ≤ 1 ∧
    (∀ t ∈ s.db.taskRuns, t.workflowRunId = c.runId → t.status = .dead →
      is.countP (fun i => (c.tx i).replays t.id) ≤ 1 ∧
      (∃ t' ∈ (c.after s.db as).db.taskRuns, t'.id = t.id ∧
        Fate t (is.any fun i => (c.tx i).revives t.id) t') ∧
      ∃ new, (c.after s.db as).db.outboxEvents = s.db.outboxEvents ++ new ∧
        new.countP (isReplayedOf t.id) = is.countP fun i => (c.tx i).replays t.id) ∧
    ∀ i, (∀ x, c.tx i ≠ .work x) → ∀ e, ((c.after s.db as).tx i).outcome = some (.error e) →
      e = .notFound ∨ e = .conflict := by
  subst his
  have hkept : c.Kept s.db := ⟨h.wellFormed, hon⟩
  have hall := hkept.execAll_committed has
  have hrec := recorded_run s.db c.program has
  refine ⟨hrec.nodup, hall, (hkept.retries _ hall).2.1, fun t ht hrun hdead => ?_, ?_⟩
  · have hrevival := hkept.revival ht hrun hdead _ hall
    exact ⟨hrevival.replayed, hrevival.fate, hrevival.events⟩
  · intro i hx e he
    have hraises : ((c.after s.db as).tx i).Raises fun e => e = .notFound ∨ e = .conflict :=
      raises_run (p := c.program) (Intervention.raises hx _ _) as
    exact hraises.outcome e he

/-- The first of two tasks has failed for good while the other is running. -/
def joinDead : State :=
  joinDefined.after [(1, .createRun 1 none 1 "k" "" none), (2, .dispatchReady (.ofList [3, 4])),
    (3, .leaseTask 3 "w" 100), (4, .leaseTask 4 "v" 100), (5, .startTask 3 "w"),
    (6, .startTask 4 "v"), (7, .failTask 3 "w" ⟨false, "ValueError", "", ""⟩)]

theorem reachable_joinDead : Reachable joinDead :=
  reachable_after init_joinDefined (by decide)

/-- A retry of the run, and a replay of the dead task. -/
def retryAndReplay : Dispute Bool where
  runId := 2
  env i := .at (if i then 9 else 8) (if i then 200 else 100)
  tx i := if i then .replay 1 none 3 else .retry 1 none

/-- The replay finds the task dead, but the retry is first. -/
def retryFirst : List (Action Bool) :=
  [.start true, .start false, .lock false, .finish false, .start false, .lock false, .finish false,
    .start false, .lock false, .finish false, .start false, .finish false, .close false,
    .lock true, .lock true, .finish true, .close true]

theorem revivals_serialise_retryFirst :
    (retryAndReplay.after joinDead.db retryFirst).committed = [false] ∧
      ∃ t ∈ joinDead.db.taskRuns, t.status = .dead ∧
        ∃ t' ∈ (retryAndReplay.after joinDead.db retryFirst).db.taskRuns, t'.id = t.id ∧
          Fate t true t' := by
  have hon : retryAndReplay.OnRun joinDead.db := by unfold Dispute.OnRun; decide +kernel
  have hsteps : retryAndReplay.Steps joinDead.db retryFirst := by decide +kernel
  have hcommitted : (retryAndReplay.after joinDead.db retryFirst).committed = [false] := by
    decide +kernel
  obtain ⟨t, ht, hrun, hdead⟩ : ∃ t ∈ joinDead.db.taskRuns, t.workflowRunId = 2 ∧
      t.status = .dead := by decide +kernel
  obtain ⟨-, -, -, htasks, -⟩ :=
    revivals_serialise reachable_joinDead retryAndReplay hon hsteps hcommitted
  exact ⟨hcommitted, t, ht, hdead, (htasks t ht hrun hdead).2.1⟩

/-- Transactions on one run that lock its row first never wait for each other in a circle. As long
as one of any number of starts, completions, cancellations and retries has not ended, one of them
can go on, from any reachable state and after any steps. -/
theorem run_transactions_progress {s : State} (h : Reachable s) {ι : Type*} [DecidableEq ι]
    (c : Dispute ι) (hon : c.OnRun s.db) (hno : ∀ i id, (c.tx i).replays id = false)
    {as : List (Action ι)} (has : c.Steps s.db as) {i : ι}
    (hi : ((c.after s.db as).tx i).outcome = none) : ∃ a, (c.after s.db as).Enabled a :=
  gate_progress (I := c.Kept) (fun i => (c.tx i).gated (hno i) _ fun _ hd => hd.onRun i)
    (fun _ _ _ hd hok => hd.program_exec hok) ⟨h.wellFormed, hon⟩ has hi

/-- A retry of the run, and a completion of the other task. -/
def retryAndComplete : Dispute Bool where
  runId := 2
  env i := .at (if i then 9 else 8) (if i then 200 else 100)
  tx i := if i then .work (.complete 4 "v" "" "" []) else .retry 1 none

/-- The completion waits for the run, which the retry has. -/
theorem run_transactions_progress_retryAndComplete :
    ∃ a, (retryAndComplete.after joinDead.db
      [.start true, .start false, .lock false, .finish false]).Enabled a := by
  have hon : retryAndComplete.OnRun joinDead.db := by unfold Dispute.OnRun; decide +kernel
  have hsteps : retryAndComplete.Steps joinDead.db
      [.start true, .start false, .lock false, .finish false] := by decide +kernel
  exact run_transactions_progress reachable_joinDead retryAndComplete hon
    (fun i id => by cases i <;> rfl) hsteps (i := true) rfl

/-- A replay that has its task and a retry that has the run wait for each other. -/
theorem retry_and_replay_wait :
    Reachable joinDead ∧ retryAndReplay.OnRun joinDead.db ∧
      retryAndReplay.Steps joinDead.db
        [.start true, .lock true, .start false, .lock false, .finish false, .start false] ∧
      ∀ a, ¬(retryAndReplay.after joinDead.db
        [.start true, .lock true, .start false, .lock false, .finish false, .start false]).Enabled
          a := by
  refine ⟨reachable_joinDead, by unfold Dispute.OnRun; decide +kernel, by decide +kernel, ?_⟩
  rintro (i | i | i | i) <;> cases i <;> decide +kernel

end RunMesh
