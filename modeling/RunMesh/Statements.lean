import RunMesh.Effects
import RunMesh.ReadCommitted

/-!
# The transactions statement by statement

`RunMesh.Store`, `RunMesh.Worker` and `RunMesh.Scheduler` take a transaction as one step.
Here `StartTask`, `CompleteTask`, `FailTask`, `CancelRun` and `recoverExpired` are programs
of their SQL statements, to be interleaved under READ COMMITTED. An `UPDATE`, or a
`SELECT ... FOR UPDATE`, finds its rows on the state it starts from and evaluates them again
once they are locked (`Table.requalifies`). Whatever else it reads is as of its start.

Run alone, each program is the transaction of those modules (`startTaskTx_exec` and the
lemmas after it).
-/

namespace RunMesh

open ReadCommitted Fallible

/-- The rows a statement can lock. -/
inductive RowKey
  | run (id : ℕ)
  | task (id : ℕ)
  | attempt (taskRunId attemptNumber : ℕ)
  deriving DecidableEq, Repr

/-- What a statement returns : rows, or the number of rows it counts or affects. -/
structure Result where
  joined : List (TaskRun × Run) := []
  tasks : List TaskRun := []
  count : ℕ := 0

/-- A transaction of statements. -/
abbrev SqlProgram := Program Db RowKey Result StoreError

/-- Its state while it runs. -/
abbrev SqlTx := ReadCommitted.Tx Db RowKey Result StoreError

/-! ## Statements -/

/-- `SELECT ... FROM task_runs t JOIN workflow_runs r ON r.id=t.workflow_run_id WHERE p
FOR UPDATE OF r,t`. -/
def selectForUpdate (p : TaskRun → Bool) : Stmt Db RowKey Result where
  locks snap := (snap.tasksWithRun.filter fun tr => p tr.1).flatMap fun tr =>
    [.run tr.2.id, .task tr.1.id]
  result snap db :=
    { joined := db.tasksWithRun.filter (Table.requalifies (fun tr => (tr.1.id, tr.2.id))
        (fun tr => p tr.1) snap.tasksWithRun) }
  write _ db := db

/-- `SELECT ... FROM task_runs t JOIN workflow_runs r ON r.id=t.workflow_run_id WHERE p
FOR UPDATE OF t`. The run is not locked, and read as of the start of the statement. -/
def selectTaskForUpdate (p : TaskRun → Bool) : Stmt Db RowKey Result where
  locks snap := (snap.tasksWithRun.filter fun tr => p tr.1).map fun tr => .task tr.1.id
  result snap db :=
    { joined := Table.join TaskRun.workflowRunId Run.id
        (db.taskRuns.filter (Table.requalifies TaskRun.id p snap.taskRuns)) snap.workflowRuns }
  write _ db := db

/-- `t.status IN ('LEASED','RUNNING') AND t.lease_expires_at<=now()`. -/
def isExpired (env : Env) (t : TaskRun) : Bool :=
  t.status.active && t.leaseExpiresAt.any (· ≤ env.now)

/-- The `SELECT ... FOR UPDATE OF t SKIP LOCKED LIMIT 100` of `recoverExpired`. The rows it
skips are not in the scan. -/
def selectExpired (env : Env) (scan : Scan) : Stmt Db RowKey Result where
  locks snap := (expiredLeases env scan snap).map fun e => .task e.1.id
  result snap db :=
    { joined := (expiredLeases env scan snap).filterMap fun e =>
        (db.taskRuns.find? fun t => t.id = e.1.id && isExpired env t).map fun t => (t, e.2) }
  write _ db := db

/-- `UPDATE task_runs SET f WHERE p RETURNING ...`, the subqueries of `p` being read as of
the start of the statement. -/
def updateTasks (p : Db → TaskRun → Bool) (f : TaskRun → TaskRun) : Stmt Db RowKey Result where
  locks snap := (snap.taskRuns.filter (p snap)).map fun t => .task t.id
  result snap db :=
    { tasks := Table.returning (Table.requalifies TaskRun.id (p snap) snap.taskRuns) f db.taskRuns }
  write snap db :=
    { db with taskRuns :=
        Table.update (Table.requalifies TaskRun.id (p snap) snap.taskRuns) f db.taskRuns }

/-- `UPDATE workflow_runs SET f WHERE p`. -/
def updateRuns (p : Run → Bool) (f : Run → Run) : Stmt Db RowKey Result where
  locks snap := (snap.workflowRuns.filter p).map fun r => .run r.id
  result snap db :=
    { count := db.workflowRuns.countP (Table.requalifies Run.id p snap.workflowRuns) }
  write snap db :=
    { db with workflowRuns :=
        Table.update (Table.requalifies Run.id p snap.workflowRuns) f db.workflowRuns }

/-- `UPDATE task_attempts SET f WHERE p`. -/
def updateAttempts (p : TaskAttempt → Bool) (f : TaskAttempt → TaskAttempt) :
    Stmt Db RowKey Result where
  locks snap := (snap.taskAttempts.filter p).map fun a => .attempt a.taskRunId a.attemptNumber
  result _ _ := {}
  write snap db :=
    { db with taskAttempts := Table.update (Table.requalifies
        (fun a => (a.taskRunId, a.attemptNumber)) p snap.taskAttempts) f db.taskAttempts }

/-- `INSERT INTO outbox_events`. -/
def insertEvent (e : OutboxEvent) : Stmt Db RowKey Result where
  locks _ := []
  result _ _ := {}
  write _ db := { db with outboxEvents := db.outboxEvents ++ [e] }

/-- `INSERT INTO outbox_events ... SELECT ..., trace_parent FROM workflow_runs WHERE id=$4`. -/
def insertExpiredEvent (env : Env) (n : ℕ) (e : TaskRun × Run) : Stmt Db RowKey Result where
  locks _ := []
  result _ _ := {}
  write snap db :=
    { db with outboxEvents := db.outboxEvents ++
        (snap.workflowRuns.filter fun r => r.id = e.1.workflowRunId).map fun r =>
          { expiredEvent env n e with traceParent := r.traceParent } }

/-- `INSERT INTO audit_events`. -/
def insertAudit (a : AuditEvent) : Stmt Db RowKey Result where
  locks _ := []
  result _ _ := {}
  write _ db := { db with auditEvents := db.auditEvents ++ [a] }

/-- `SELECT count(*) FROM task_runs WHERE p`. -/
def countTasks (p : TaskRun → Bool) : Stmt Db RowKey Result where
  locks _ := []
  result snap _ := { count := snap.taskRuns.countP p }
  write _ db := db

/-- `SELECT true FROM workflow_runs WHERE p`. -/
def countRuns (p : Run → Bool) : Stmt Db RowKey Result where
  locks _ := []
  result snap _ := { count := snap.workflowRuns.countP p }
  write _ db := db

/-- One `INSERT` for each event. -/
def insertEvents : List OutboxEvent → SqlProgram → SqlProgram
  | [], rest => rest
  | e :: es, rest => .stmt (insertEvent e) fun _ => insertEvents es rest

/-! ## Programs -/

/-- The statements of `Store.StartTask`. -/
def startTaskTx (env : Env) (taskId : ℕ) (workerId : String) : SqlProgram :=
  let leased := fun t : TaskRun => heldBy env taskId workerId t && t.status = .leased
  .stmt (selectForUpdate leased) fun found =>
    match found.joined with
    | [] => .rollback .leaseLost
    | tr :: _ =>
      if tr.2.status = .running then
        .stmt (updateTasks (fun _ => leased)
            fun t => { t with status := .running, updatedAt := env.now }) fun started =>
          match started.tasks with
          | [] => .rollback .leaseLost
          | t :: _ =>
            .stmt (updateAttempts
                (fun a => a.taskRunId = t.id ∧ a.attemptNumber = t.attemptCount ∧
                  a.executingAt = none)
                fun a => { a with executingAt := some env.now }) fun _ => .commit
      else .rollback .leaseLost

/-- The statements of `Store.CompleteTask` from the wake-up of the children on, `t` being
the completed row. -/
def wakeChildrenTx (env : Env) (t : TaskRun) : SqlProgram :=
  .stmt (updateTasks (fun db => wakeable db db.taskRuns t.workflowRunId t.id) (wake env))
    fun children =>
      insertEvents (readyEvents env t.workflowRunId children.tasks ++
          [succeededEvent env children.tasks.length t])
        (.stmt (countTasks fun u => u.workflowRunId = t.workflowRunId ∧ u.status ≠ .succeeded)
          fun remaining =>
            if remaining.count = 0 then
              .stmt (updateRuns (fun r => r.id = t.workflowRunId ∧ r.status = .running)
                fun r => { r with status := .succeeded, completedAt := some env.now })
                fun _ => .commit
            else .commit)

/-- The statements of `Store.CompleteTask`. -/
def completeTaskTx (env : Env) (taskId : ℕ) (workerId output artifactUri : String)
    (logArtifactUris : List String) : SqlProgram :=
  let output := if output = "" then "\x7b\x7d" else output
  let running := fun t : TaskRun => heldBy env taskId workerId t && t.status = .running
  .stmt (selectForUpdate running) fun found =>
    match found.joined with
    | [] => .rollback .leaseLost
    | tr :: _ =>
      if tr.2.status = .running then
        .stmt (updateTasks (fun _ => running) (succeed env output artifactUri)) fun completed =>
          match completed.tasks with
          | [] => .rollback .leaseLost
          | t :: _ =>
            .stmt (updateAttempts
                (fun a => a.taskRunId = t.id ∧ a.attemptNumber = t.attemptCount)
                fun a => { a with
                  endedAt := some env.now
                  exitStatus := some .succeeded
                  artifactUri := nullIfEmpty artifactUri
                  logArtifactUri := nullIfEmpty (logArtifactUris.headD "") })
              fun _ => wakeChildrenTx env t
      else .rollback .leaseLost

/-- `status='CANCELLED'` for the tasks of the run that wait. -/
def cancelTasks (env : Env) (runId : ℕ) : Stmt Db RowKey Result :=
  updateTasks (fun _ t => t.workflowRunId = runId ∧ t.status.waiting)
    fun t => { t with status := .cancelled, updatedAt := env.now }

/-- The statements of `Store.CancelRun`. -/
def cancelRunTx (env : Env) (tenantId : ℕ) (userId : Option ℕ) (id : ℕ) : SqlProgram :=
  .stmt (updateRuns (fun r => r.id = id ∧ r.tenantId = tenantId ∧ r.status.open = true)
      fun r => { r with status := .cancelled, completedAt := some env.now }) fun cancelled =>
    if cancelled.count = 0 then
      .stmt (countRuns fun r => r.id = id ∧ r.tenantId = tenantId) fun existing =>
        .rollback (if existing.count = 0 then .notFound else .conflict)
    else
      .stmt (cancelTasks env id) fun _ =>
        .stmt (insertAudit (newAuditEvent env tenantId userId "run.cancel" "workflow_run" id))
          fun _ => .commit

/-- `UPDATE workflow_runs SET status='FAILED',completed_at=now() WHERE id=$1 AND
status='RUNNING'`. -/
def failRuns (env : Env) (runId : ℕ) : Stmt Db RowKey Result :=
  updateRuns (fun r => r.id = runId ∧ r.status = .running)
    fun r => { r with status := .failed, completedAt := some env.now }

/-- The statements of `Store.FailTask` after the row is found. -/
def failFoundTx (env : Env) (taskId : ℕ) (workerId : String) (f : Failure) (tr : TaskRun × Run) :
    SqlProgram :=
  let status := failureStatus tr.2.status f.retryable tr.1.attemptCount tr.1.maximumAttempts
  let available := failureAvailable env status tr.1.attemptCount
  let finish : SqlProgram :=
    .stmt (insertEvent (failedEvent env f status available tr.1)) fun _ => .commit
  .stmt (updateTasks (fun _ t => t.id = taskId ∧ t.leaseOwner = some workerId)
      (endLease env status available)) fun failed =>
    match failed.tasks with
    | [] => .rollback .noRows
    | _ :: _ =>
      .stmt (updateAttempts
          (fun a => a.taskRunId = taskId ∧ a.attemptNumber = tr.1.attemptCount)
          fun a => { a with
            endedAt := some env.now
            exitStatus := some status
            errorType := some f.errorType
            errorMessage := some f.errorMessage
            traceId := nullIfEmpty f.traceId }) fun _ =>
        if status = .dead then
          .stmt (failRuns env tr.1.workflowRunId) fun _ =>
            .stmt (cancelTasks env tr.1.workflowRunId) fun _ => finish
        else finish

/-- The statements of `Store.FailTask`. -/
def failTaskTx (env : Env) (taskId : ℕ) (workerId : String) (f : Failure) : SqlProgram :=
  .stmt (selectTaskForUpdate fun t => heldBy env taskId workerId t && t.status.active) fun found =>
    match found.joined with
    | [] => .rollback .leaseLost
    | tr :: _ => failFoundTx env taskId workerId f tr

/-- The loop of `Service.recoverExpired`, each lease with the number of UUIDs drawn before. -/
def recoverLeasesTx (env : Env) : List ((TaskRun × Run) × ℕ) → SqlProgram
  | [] => .commit
  | e :: es =>
    .stmt (updateTasks (fun _ t => t.id = e.1.1.id) (endLease env (expiryStatus e.1)
        (failureAvailable env (expiryStatus e.1) e.1.1.attemptCount))) fun _ =>
      .stmt (updateAttempts
          (fun a => a.taskRunId = e.1.1.id ∧ a.attemptNumber = e.1.1.attemptCount)
          fun a => { a with
            endedAt := some env.now
            exitStatus := some (expiryStatus e.1)
            errorType := some "LeaseExpired"
            errorMessage := some "worker heartbeat lease expired" }) fun _ =>
        .stmt (insertExpiredEvent env e.2 e.1) fun _ =>
          if expiryStatus e.1 = .dead then
            .stmt (failRuns env e.1.1.workflowRunId) fun _ => recoverLeasesTx env es
          else recoverLeasesTx env es

/-- The statements of `Service.recoverExpired`. -/
def recoverExpiredTx (env : Env) (scan : Scan) : SqlProgram :=
  .stmt (selectExpired env scan) fun found => recoverLeasesTx env found.joined.zipIdx

/-! ## The programs alone -/

theorem insertEvents_exec (es : List OutboxEvent) (rest : SqlProgram) : ∀ db : Db,
    (insertEvents es rest).exec db =
      rest.exec { db with outboxEvents := db.outboxEvents ++ es } := by
  induction es with
  | nil => intro db; simp [insertEvents]
  | cons e es ih =>
    intro db
    simp [insertEvents, Program.exec, ih, insertEvent]

/-- The events name the children by id and key, which the wake-up leaves alone. -/
theorem readyEvents_map_wake (env env' : Env) (runId : ℕ) (children : List TaskRun) :
    readyEvents env runId (children.map (wake env')) = readyEvents env runId children := by
  simp [readyEvents, List.zipIdx_map, wake, Function.comp_def]

theorem wakeChildrenTx_exec (env : Env) (t : TaskRun) (db : Db) :
    (wakeChildrenTx env t).exec db =
      let awake := wakeable db db.taskRuns t.workflowRunId t.id
      let children := db.taskRuns.filter awake
      let tasks := Table.update awake (wake env) db.taskRuns
      .ok { db with
        workflowRuns :=
          if tasks.countP (fun u => u.workflowRunId = t.workflowRunId ∧ u.status ≠ .succeeded) = 0
          then db.workflowRuns.map (completeRun env t.workflowRunId) else db.workflowRuns
        taskRuns := tasks
        outboxEvents := db.outboxEvents ++
          (readyEvents env t.workflowRunId children ++
            [succeededEvent env children.length t]) } := by
  simp only [wakeChildrenTx, Program.exec, updateTasks, Table.update_requalifies,
    insertEvents_exec, countTasks, Table.returning, Table.filter_requalifies,
    readyEvents_map_wake, List.length_map]
  split_ifs with hcount
  · simp only [Program.exec, updateRuns, Table.update_requalifies]
    simp [Table.update, completeRun]
  · rfl

theorem startTaskTx_exec (env : Env) (taskId : ℕ) (workerId : String) (db : Db) :
    (startTaskTx env taskId workerId).exec db =
      (startTask env taskId workerId db).map Prod.snd := by
  simp only [startTaskTx, startTask, Program.exec, selectForUpdate, Table.filter_requalifies,
    ← List.head?_filter]
  cases db.tasksWithRun.filter _ with
  | nil => rfl
  | cons tr trs =>
    simp only [List.head?_cons, orError, ok_bind]
    by_cases hrun : tr.2.status = .running
    · simp only [hrun, if_true, Program.exec, updateTasks, Table.returning_requalifies,
        Table.update_requalifies, decide_true, require, ok_bind]
      cases Table.returning _ _ db.taskRuns with
      | nil => rfl
      | cons t ts => simp only [Program.exec, updateAttempts, Table.update_requalifies]; rfl
    · simp only [hrun, if_false, decide_false, require, Bool.false_eq_true, error_bind]
      rfl

theorem completeTaskTx_exec (env : Env) (taskId : ℕ) (workerId output artifactUri : String)
    (logs : List String) (db : Db) :
    (completeTaskTx env taskId workerId output artifactUri logs).exec db =
      (completeTask env taskId workerId output artifactUri logs db).map Prod.snd := by
  simp only [completeTaskTx, completeTask, Program.exec, selectForUpdate,
    Table.filter_requalifies, ← List.head?_filter]
  cases db.tasksWithRun.filter _ with
  | nil => rfl
  | cons tr trs =>
    simp only [List.head?_cons, orError, ok_bind]
    by_cases hrun : tr.2.status = .running
    · simp only [hrun, if_true, Program.exec, updateTasks, Table.returning_requalifies,
        Table.update_requalifies, decide_true, require, ok_bind]
      cases Table.returning _ _ db.taskRuns with
      | nil => rfl
      | cons t ts =>
        simp only [Program.exec, updateAttempts, Table.update_requalifies, wakeChildrenTx_exec]
        rfl
    · simp only [hrun, if_false, decide_false, require, Bool.false_eq_true, error_bind]
      rfl

theorem cancelRunTx_exec (env : Env) (tenantId : ℕ) (userId : Option ℕ) (id : ℕ) (db : Db) :
    (cancelRunTx env tenantId userId id).exec db = cancelRun env tenantId userId id db := by
  simp only [cancelRunTx, cancelRun, Program.exec, updateRuns, Table.countP_requalifies,
    Table.update_requalifies]
  by_cases hany : ∃ r ∈ db.workflowRuns,
      (decide (r.id = id ∧ r.tenantId = tenantId ∧ r.status.open = true)) = true
  · rw [if_neg (List.countP_pos_iff.2 hany).ne', if_pos (List.any_eq_true.2 hany)]
    simp only [Program.exec, cancelTasks, updateTasks, Table.update_requalifies, insertAudit]
    simp [Table.update, cancelWaiting]
  · have hnone : ∀ r ∈ db.workflowRuns,
        ¬(decide (r.id = id ∧ r.tenantId = tenantId ∧ r.status.open = true)) = true :=
      fun r hr hp => hany ⟨r, hr, hp⟩
    rw [if_pos (List.countP_eq_zero.2 hnone), if_neg (mt List.any_eq_true.1 hany),
      Table.update_eq_self hnone]
    simp only [Program.exec, countRuns, List.countP_eq_zero]
    by_cases hexists : db.workflowRuns.any fun r => r.id = id ∧ r.tenantId = tenantId <;>
      simp_all

theorem selectTaskForUpdate_result (p : TaskRun → Bool) (db : Db) :
    (selectTaskForUpdate p).result db db =
      { joined := db.tasksWithRun.filter fun tr => p tr.1 } := by
  simp only [selectTaskForUpdate, Table.filter_requalifies]
  rw [Table.join_filter]
  rfl

theorem failTaskTx_exec (env : Env) (taskId : ℕ) (workerId : String) (f : Failure) (db : Db) :
    (failTaskTx env taskId workerId f).exec db =
      (failTask env taskId workerId f db).map Prod.snd := by
  simp only [failTaskTx, failTask, Program.exec, selectTaskForUpdate_result,
    ← List.head?_filter]
  cases db.tasksWithRun.filter _ with
  | nil => rfl
  | cons tr trs =>
    simp only [List.head?_cons, orError, ok_bind, failFoundTx, Program.exec,
      show ∀ p, (selectTaskForUpdate p).write db db = db from fun _ => rfl, updateTasks,
      Table.returning_requalifies, Table.update_requalifies]
    cases Table.returning _ _ db.taskRuns with
    | nil => rfl
    | cons t ts =>
      simp only [Program.exec, updateAttempts, Table.update_requalifies]
      split_ifs with hdead
      · simp only [Program.exec, failRuns, updateRuns, cancelTasks, updateTasks, insertEvent,
          Table.update_requalifies]
        simp [Except.map, bind, Except.bind, pure, Except.pure, Table.update, failRun,
          cancelWaiting, hdead]
      · simp only [Program.exec, insertEvent]
        rfl

/-- The recovery of one lease as updates of the tables. -/
theorem recoverLease_eq (env : Env) (db : Db) (e : (TaskRun × Run) × ℕ) :
    recoverLease env db e = { db with
      workflowRuns :=
        if expiryStatus e.1 = .dead then
          Table.update (fun r => r.id = e.1.1.workflowRunId ∧ r.status = .running)
            (fun r => { r with status := .failed, completedAt := some env.now }) db.workflowRuns
        else db.workflowRuns
      taskRuns := Table.update (fun t => t.id = e.1.1.id) (endLease env (expiryStatus e.1)
        (failureAvailable env (expiryStatus e.1) e.1.1.attemptCount)) db.taskRuns
      taskAttempts := Table.update
        (fun a => a.taskRunId = e.1.1.id ∧ a.attemptNumber = e.1.1.attemptCount)
        (fun a => { a with
          endedAt := some env.now
          exitStatus := some (expiryStatus e.1)
          errorType := some "LeaseExpired"
          errorMessage := some "worker heartbeat lease expired" }) db.taskAttempts
      outboxEvents := db.outboxEvents ++ [expiredEvent env e.2 e.1] } := by
  have hruns : db.workflowRuns.map (expireRun env e.1) =
      if expiryStatus e.1 = .dead then
        Table.update (fun r => r.id = e.1.1.workflowRunId ∧ r.status = .running)
          (fun r => { r with status := .failed, completedAt := some env.now }) db.workflowRuns
      else db.workflowRuns := by
    split_ifs with hdead
    · exact List.map_congr_left fun r _ => by simp [expireRun, failRun, hdead]
    · exact (List.map_congr_left fun r _ => by simp [expireRun, hdead]).trans (List.map_id' _)
  simp only [recoverLease, hruns, Table.update, decide_eq_true_eq]
  rfl

/-- The recovery of the leases, if the run of each has the trace parent that was read. -/
theorem recoverLeasesTx_exec (env : Env) (es : List ((TaskRun × Run) × ℕ)) : ∀ db : Db,
    (∀ e ∈ es, (db.workflowRuns.filter fun r => r.id = e.1.1.workflowRunId).map Run.traceParent =
      [e.1.2.traceParent]) →
    (recoverLeasesTx env es).exec db = .ok (es.foldl (recoverLease env) db) := by
  induction es with
  | nil => exact fun _ _ => rfl
  | cons e es ih =>
    intro db hdb
    have hevents : (db.workflowRuns.filter fun r => r.id = e.1.1.workflowRunId).map
        (fun r => { expiredEvent env e.2 e.1 with traceParent := r.traceParent }) =
        [expiredEvent env e.2 e.1] := by
      have hmap := congrArg (List.map fun tp =>
        { expiredEvent env e.2 e.1 with traceParent := tp }) (hdb e (by simp))
      rw [List.map_map] at hmap
      exact hmap
    have hstep : (recoverLeasesTx env (e :: es)).exec db =
        (recoverLeasesTx env es).exec (recoverLease env db e) := by
      rw [recoverLease_eq]
      simp only [recoverLeasesTx, Program.exec, updateTasks, updateAttempts, insertExpiredEvent,
        Table.update_requalifies, hevents]
      split_ifs with hdead
      · simp only [Program.exec, failRuns, updateRuns, Table.update_requalifies]
      · rfl
    rw [hstep, List.foldl_cons]
    refine ih _ fun e' he' => ?_
    have hkeys : ∀ r, (expireRun env e.1 r).id = r.id ∧
        (expireRun env e.1 r).traceParent = r.traceParent := by
      intro r
      unfold expireRun failRun
      split_ifs <;> exact ⟨rfl, rfl⟩
    rw [← hdb e' (by simp [he'])]
    simp only [recoverLease, List.filter_map, List.map_map, Function.comp_def, hkeys]

/-- The rows the `SELECT` locks are those it found, if they have not changed. -/
theorem selectExpired_result_of_mem {env : Env} {scan : Scan} {snap db : Db}
    (hk : (db.taskRuns.map TaskRun.id).Nodup)
    (hmem : ∀ e ∈ expiredLeases env scan snap, e.1 ∈ db.taskRuns) :
    (selectExpired env scan).result snap db = { joined := expiredLeases env scan snap } := by
  simp only [selectExpired, Result.mk.injEq, and_true]
  refine (List.filterMap_congr fun e he => ?_).trans List.filterMap_some
  obtain ⟨t, r⟩ := e
  obtain ⟨-, -, -, hact, x, hx, hle⟩ := mem_expiredLeases he
  have hfind : db.taskRuns.find? (fun u => u.id = t.id && isExpired env u) = some t := by
    refine Table.find?_of_key hk (hmem _ he) (by simp [isExpired, hact, hx, hle])
      fun u _ hu => ?_
    simp only [Bool.and_eq_true, decide_eq_true_eq] at hu
    exact hu.1
  simp [hfind]

theorem selectExpired_result {env : Env} {scan : Scan} {db : Db} (hk : db.Keyed) :
    (selectExpired env scan).result db db = { joined := expiredLeases env scan db } :=
  selectExpired_result_of_mem hk.tasks fun _ he => (mem_expiredLeases he).1

theorem recoverExpiredTx_exec (env : Env) (scan : Scan) {db : Db} (hk : db.Keyed) :
    (recoverExpiredTx env scan).exec db = .ok (recoverExpired env scan db) := by
  rw [recoverExpiredTx, Program.exec, selectExpired_result hk]
  refine recoverLeasesTx_exec env _ db fun e he => ?_
  obtain ⟨-, hr, hrid, -⟩ := mem_expiredLeases (List.fst_mem_of_mem_zipIdx he)
  rw [← hrid, Table.filter_key hk.runs hr, List.map_singleton]

end RunMesh
