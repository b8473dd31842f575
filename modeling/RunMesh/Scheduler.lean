import RunMesh.Worker
import Mathlib.Data.List.Sort

/-!
# The scheduler

The phases of `Service.tick` after the schedules have fired : the promotion of tasks
whose retry delay is over, the recovery of expired leases, and the dispatch of ready
tasks. Each phase is one transaction.

A `SELECT ... FOR UPDATE SKIP LOCKED LIMIT n` reads the rows in an order of the planner's
and leaves out those another transaction has locked. `Scan` is that choice : the ids of
the rows the statement gets to see, in the order it sees them.
-/

namespace RunMesh

/-- The unlocked rows a statement sees, in the order it sees them. -/
structure Scan where
  ids : List ℕ
  /-- A row is seen once. -/
  nodup : ids.Nodup
  deriving DecidableEq

/-- The rows of the scan, each with its run. -/
def Scan.rows (scan : Scan) (db : Db) : List (TaskRun × Run) :=
  Table.join TaskRun.workflowRunId Run.id
    (scan.ids.filterMap fun id => db.taskRuns.find? fun t => t.id = id) db.workflowRuns

/-! ## Promotion -/

/-- `UPDATE task_runs SET status='READY',updated_at=now() WHERE status='RETRY_WAIT' AND
available_at<=now()`. -/
def promote (env : Env) (t : TaskRun) : TaskRun :=
  if t.status = .retryWait ∧ t.availableAt ≤ env.now then
    { t with status := .ready, updatedAt := env.now }
  else t

/-- The promotion phase. -/
def promoteRetries (env : Env) (db : Db) : Db :=
  { db with taskRuns := db.taskRuns.map (promote env) }

/-! ## Recovery -/

/-- The leases a recovery finds expired. -/
def expiredLeases (env : Env) (scan : Scan) (db : Db) : List (TaskRun × Run) :=
  ((scan.rows db).filter fun e =>
    e.1.status.active && e.1.leaseExpiresAt.any (· ≤ env.now)).take 100

/-- The status a task with an expired lease gets, as its row and its run were read. -/
def expiryStatus (e : TaskRun × Run) : TaskStatus :=
  failureStatus e.2.status true e.1.attemptCount e.1.maximumAttempts

/-- The event of an expired lease, `n` being the number of UUIDs drawn before. -/
def expiredEvent (env : Env) (n : ℕ) (e : TaskRun × Run) : OutboxEvent :=
  newEvent env n .taskRun e.1.id (failureEventType (expiryStatus e))
    { workflowRunId := some e.1.workflowRunId, taskRunId := some e.1.id,
      taskKey := some e.1.taskKey, attempt := some e.1.attemptCount,
      availableAt := some (failureAvailable env (expiryStatus e) e.1.attemptCount),
      errorType := some "LeaseExpired" } e.2.traceParent

/-- The attempt row of an expired lease. -/
def endAttempt (env : Env) (e : TaskRun × Run) (a : TaskAttempt) : TaskAttempt :=
  if a.taskRunId = e.1.id ∧ a.attemptNumber = e.1.attemptCount then
    { a with
      endedAt := some env.now
      exitStatus := some (expiryStatus e)
      errorType := some "LeaseExpired"
      errorMessage := some "worker heartbeat lease expired" }
  else a

/-- The task row of an expired lease. -/
def expire (env : Env) (e : TaskRun × Run) (t : TaskRun) : TaskRun :=
  if t.id = e.1.id then
    endLease env (expiryStatus e) (failureAvailable env (expiryStatus e) e.1.attemptCount) t
  else t

/-- The run row of an expired lease : a dead task fails its run. -/
def expireRun (env : Env) (e : TaskRun × Run) (r : Run) : Run :=
  if expiryStatus e = .dead then failRun env e.1.workflowRunId r else r

/-- The recovery of one expired lease. -/
def recoverLease (env : Env) (db : Db) (e : (TaskRun × Run) × ℕ) : Db :=
  { db with
    workflowRuns := db.workflowRuns.map (expireRun env e.1)
    taskRuns := db.taskRuns.map (expire env e.1)
    taskAttempts := db.taskAttempts.map (endAttempt env e.1)
    outboxEvents := db.outboxEvents ++ [expiredEvent env e.2 e.1] }

/-- `Service.recoverExpired`. -/
def recoverExpired (env : Env) (scan : Scan) (db : Db) : Db :=
  (expiredLeases env scan db).zipIdx.foldl (recoverLease env) db

/-! ## Dispatch -/

/-- `ORDER BY t.priority DESC,t.available_at`. -/
def dispatchOrder (a b : TaskRun × Run) : Prop :=
  b.1.priority < a.1.priority ∨
    (a.1.priority = b.1.priority ∧ a.1.availableAt ≤ b.1.availableAt)

instance : DecidableRel dispatchOrder := fun _ _ => inferInstanceAs (Decidable (_ ∨ _))

/-- The tasks a dispatch selects. -/
def readyTasks (env : Env) (scan : Scan) (db : Db) : List (TaskRun × Run) :=
  (((scan.rows db).filter fun e => e.1.status = .ready ∧ e.1.availableAt ≤ env.now).insertionSort
    dispatchOrder).take 100

/-- `id=$1 AND status='READY'`. -/
def isReady (id : ℕ) (t : TaskRun) : Bool :=
  t.id = id ∧ t.status = .ready

/-- The event `task.dispatch`, `n` being the number of UUIDs drawn before. -/
def dispatchEvent (env : Env) (n : ℕ) (e : TaskRun × Run) : OutboxEvent :=
  newEvent env n .taskRun e.1.id .dispatch
    { taskRunId := some e.1.id, workflowRunId := some e.1.workflowRunId,
      taskKey := some e.1.taskKey, handler := some e.1.handler } e.2.traceParent

/-- The dispatch of one task, with the number of UUIDs drawn so far. A row that is no
longer ready is passed over. -/
def dispatchTask (env : Env) (st : Db × ℕ) (e : TaskRun × Run) : Db × ℕ :=
  if st.1.taskRuns.countP (isReady e.1.id) = 1 then
    ({ st.1 with
      taskRuns := Table.update (isReady e.1.id)
        (fun t => { t with status := .dispatching, updatedAt := env.now }) st.1.taskRuns
      outboxEvents := st.1.outboxEvents ++ [dispatchEvent env st.2 e] }, st.2 + 1)
  else st

/-- The dispatch phase. -/
def dispatchReady (env : Env) (scan : Scan) (db : Db) : Db :=
  ((readyTasks env scan db).foldl (dispatchTask env) (db, 0)).1

end RunMesh
