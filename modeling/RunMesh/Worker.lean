import RunMesh.Store

/-!
# The worker protocol

The operations of `internal/storage/worker.go` : a worker leases a dispatched task,
starts it, renews its lease, and completes or fails it, and an operator replays a dead
task. As in `RunMesh.Store`, each is one transaction, and an error leaves no database.

A worker is known to the database by its id only. Every mutation after the lease is
guarded by `heldBy` : the row has the worker as `lease_owner` and a lease that has not
expired.
-/

namespace RunMesh

open Fallible

/-- `id=$1 AND lease_owner=$2 AND lease_expires_at>now()`. -/
def heldBy (env : Env) (taskId : ℕ) (workerId : String) (t : TaskRun) : Bool :=
  t.id = taskId && t.leaseOwner = some workerId && t.leaseExpiresAt.any (env.now < ·)

/-! ## Lease, start and heartbeat -/

/-- The columns `LeaseTask` sets. -/
def lease (env : Env) (workerId : String) (duration : ℤ) (t : TaskRun) : TaskRun :=
  { t with
    status := .leased
    leaseOwner := some workerId
    leaseExpiresAt := some (env.now + duration)
    attemptCount := t.attemptCount + 1
    updatedAt := env.now }

/-- The attempt row of a leased task. -/
def newAttempt (env : Env) (workerId : String) (t : TaskRun) : TaskAttempt where
  taskRunId := t.id
  attemptNumber := t.attemptCount
  workerId := workerId
  scheduledAt := t.availableAt
  executingAt := none
  startedAt := env.now
  endedAt := none
  exitStatus := none
  errorType := none
  errorMessage := none
  traceId := none
  artifactUri := none
  logArtifactUri := none

/-- The event `task.leased`. -/
def leasedEvent (env : Env) (workerId : String) (t : TaskRun) : OutboxEvent :=
  newEvent env 0 .taskRun t.id .leased
    { workflowRunId := some t.workflowRunId, taskRunId := some t.id, taskKey := some t.taskKey,
      workerId := some workerId, attempt := some t.attemptCount } env.traceParent

/-- `Store.LeaseTask` : the leased row and the run's input artifact. -/
def leaseTask (env : Env) (taskId : ℕ) (workerId : String) (duration : ℤ) (db : Db) :
    Except StoreError ((TaskRun × Option String) × Db) := do
  let dispatched := fun t : TaskRun => decide (t.id = taskId ∧ t.status = .dispatching)
  let t ← orError .leaseLost
    (Table.returning dispatched (lease env workerId duration) db.taskRuns).head?
  let run ← orError .noRows (db.workflowRuns.find? fun r => r.id = t.workflowRunId)
  -- `UNIQUE (task_run_id, attempt_number)`
  require .database (db.taskAttempts.all fun a =>
    ¬(a.taskRunId = t.id ∧ a.attemptNumber = t.attemptCount))
  pure ((t, run.inputArtifactUri), { db with
    taskRuns := Table.update dispatched (lease env workerId duration) db.taskRuns
    taskAttempts := db.taskAttempts ++ [newAttempt env workerId t]
    outboxEvents := db.outboxEvents ++ [leasedEvent env workerId t] })

/-- `Store.StartTask`. -/
def startTask (env : Env) (taskId : ℕ) (workerId : String) (db : Db) :
    Except StoreError (TaskRun × Db) := do
  let leased := fun t : TaskRun => heldBy env taskId workerId t && t.status = .leased
  let tr ← orError .leaseLost (db.tasksWithRun.find? fun tr => leased tr.1)
  require .leaseLost (tr.2.status = .running)
  let start := fun t : TaskRun => { t with status := .running, updatedAt := env.now }
  let t ← orError .leaseLost (Table.returning leased start db.taskRuns).head?
  pure (t, { db with
    taskRuns := Table.update leased start db.taskRuns
    taskAttempts := Table.update
      (fun a => a.taskRunId = t.id ∧ a.attemptNumber = t.attemptCount ∧ a.executingAt = none)
      (fun a => { a with executingAt := some env.now }) db.taskAttempts })

/-- `Store.HeartbeatTask` : the new expiry, and whether the run was cancelled. -/
def heartbeatTask (env : Env) (taskId : ℕ) (workerId : String) (duration : ℤ) (db : Db) :
    Except StoreError ((ℤ × Bool) × Db) := do
  let held := fun t : TaskRun => heldBy env taskId workerId t && t.status.active
  let renew := fun t : TaskRun =>
    { t with leaseExpiresAt := some (env.now + duration), updatedAt := env.now }
  let renewed := Table.returning held renew db.taskRuns
  let tr ← orError .leaseLost
    (Table.join TaskRun.workflowRunId Run.id renewed db.workflowRuns).head?
  pure ((env.now + duration, tr.2.status = .cancelled),
    { db with taskRuns := Table.update held renew db.taskRuns })

/-! ## Completion -/

/-- `NULLIF($1,'')`. -/
def nullIfEmpty (s : String) : Option String :=
  if s = "" then none else some s

/-- The columns a completion sets. -/
def succeed (env : Env) (output artifactUri : String) (t : TaskRun) : TaskRun :=
  { t with
    status := .succeeded
    output := some output
    outputArtifactUri := nullIfEmpty artifactUri
    leaseExpiresAt := none
    updatedAt := env.now }

/-- A blocked task of the run that depends on `taskId`, all of whose upstreams among
`tasks` have succeeded. -/
def wakeable (db : Db) (tasks : List TaskRun) (runId taskId : ℕ) (child : TaskRun) : Bool :=
  child.workflowRunId = runId && child.status = .blocked &&
    (db.taskDependencies.any fun d =>
      d.taskRunId = child.id && d.dependsOnTaskRunId = taskId) &&
    !db.hasUnfinishedUpstream tasks child

/-- `status='READY',available_at=now()`. -/
def wake (env : Env) (t : TaskRun) : TaskRun :=
  { t with status := .ready, availableAt := env.now, updatedAt := env.now }

/-- The events `task.ready` of the tasks a completion wakes. -/
def readyEvents (env : Env) (runId : ℕ) (children : List TaskRun) : List OutboxEvent :=
  children.zipIdx.map fun c =>
    newEvent env c.2 .taskRun c.1.id .ready
      { workflowRunId := some runId, taskRunId := some c.1.id, taskKey := some c.1.taskKey }
      env.traceParent

/-- The event `task.succeeded`, `n` being the number of UUIDs drawn before. -/
def succeededEvent (env : Env) (n : ℕ) (t : TaskRun) : OutboxEvent :=
  newEvent env n .taskRun t.id .succeeded
    { workflowRunId := some t.workflowRunId, taskRunId := some t.id, taskKey := some t.taskKey,
      attempt := some t.attemptCount } env.traceParent

/-- `UPDATE workflow_runs SET status='SUCCEEDED',completed_at=now() WHERE id=$1 AND
status='RUNNING'`. -/
def completeRun (env : Env) (runId : ℕ) (r : Run) : Run :=
  if r.id = runId ∧ r.status = .running then
    { r with status := .succeeded, completedAt := some env.now }
  else r

/-- `Store.CompleteTask`. -/
def completeTask (env : Env) (taskId : ℕ) (workerId output artifactUri : String)
    (logArtifactUris : List String) (db : Db) : Except StoreError (TaskRun × Db) := do
  let output := if output = "" then "\x7b\x7d" else output
  let running := fun t : TaskRun => heldBy env taskId workerId t && t.status = .running
  let tr ← orError .leaseLost (db.tasksWithRun.find? fun tr => running tr.1)
  require .leaseLost (tr.2.status = .running)
  let t ← orError .leaseLost
    (Table.returning running (succeed env output artifactUri) db.taskRuns).head?
  let tasks := Table.update running (succeed env output artifactUri) db.taskRuns
  let awake := wakeable db tasks t.workflowRunId t.id
  let children := tasks.filter awake
  let tasks' := Table.update awake (wake env) tasks
  let remaining := tasks'.countP fun u => u.workflowRunId = t.workflowRunId ∧ u.status ≠ .succeeded
  pure (t, { db with
    workflowRuns :=
      if remaining = 0 then db.workflowRuns.map (completeRun env t.workflowRunId)
      else db.workflowRuns
    taskRuns := tasks'
    taskAttempts := Table.update
      (fun a => a.taskRunId = t.id ∧ a.attemptNumber = t.attemptCount)
      (fun a => { a with
        endedAt := some env.now
        exitStatus := some .succeeded
        artifactUri := nullIfEmpty artifactUri
        logArtifactUri := nullIfEmpty (logArtifactUris.headD "") }) db.taskAttempts
    outboxEvents := db.outboxEvents ++
      (readyEvents env t.workflowRunId children ++ [succeededEvent env children.length t]) })

/-! ## Failure -/

/-- The body of a failure report. -/
structure Failure where
  retryable : Bool
  errorType : String
  errorMessage : String
  traceId : String
  deriving DecidableEq, Repr

/-- The status a task that did not complete its attempt gets. -/
def failureStatus (runStatus : RunStatus) (retryable : Bool) (attempt max : ℕ) : TaskStatus :=
  if runStatus = .cancelled then .cancelled
  else if retryable ∧ attempt < max then .retryWait
  else .dead

/-- When a task that did not complete its attempt is available again, by the clock of the
process. The rows of one recovery share a reading. -/
def failureAvailable (env : Env) (status : TaskStatus) (attempt : ℕ) : ℤ :=
  if status = .retryWait then env.wall + retryDelay attempt else env.wall

/-- The event of a task that did not complete its attempt. -/
def failureEventType (status : TaskStatus) : EventType :=
  if status = .cancelled then .cancelled else if status = .dead then .dead else .retryWait

/-- The columns the end of a lease sets. -/
def endLease (env : Env) (status : TaskStatus) (available : ℤ) (t : TaskRun) : TaskRun :=
  { t with
    status := status
    availableAt := available
    leaseOwner := none
    leaseExpiresAt := none
    updatedAt := env.now }

/-- `UPDATE workflow_runs SET status='FAILED',completed_at=now() WHERE id=$1 AND
status='RUNNING'`. -/
def failRun (env : Env) (runId : ℕ) (r : Run) : Run :=
  if r.id = runId ∧ r.status = .running then
    { r with status := .failed, completedAt := some env.now }
  else r

/-- The event of a failed task. -/
def failedEvent (env : Env) (f : Failure) (status : TaskStatus) (available : ℤ) (t : TaskRun) :
    OutboxEvent :=
  newEvent env 0 .taskRun t.id (failureEventType status)
    { workflowRunId := some t.workflowRunId, taskRunId := some t.id, taskKey := some t.taskKey,
      attempt := some t.attemptCount, errorType := some f.errorType,
      errorMessage := some f.errorMessage, availableAt := some available } env.traceParent

/-- `Store.FailTask`. The row is read under its lease but written under its owner only. -/
def failTask (env : Env) (taskId : ℕ) (workerId : String) (f : Failure) (db : Db) :
    Except StoreError (TaskRun × Db) := do
  let held := fun t : TaskRun => heldBy env taskId workerId t && t.status.active
  let tr ← orError .leaseLost (db.tasksWithRun.find? fun tr => held tr.1)
  let status := failureStatus tr.2.status f.retryable tr.1.attemptCount tr.1.maximumAttempts
  let available := failureAvailable env status tr.1.attemptCount
  let owned := fun t : TaskRun => decide (t.id = taskId ∧ t.leaseOwner = some workerId)
  let t ← orError .noRows (Table.returning owned (endLease env status available) db.taskRuns).head?
  let tasks := Table.update owned (endLease env status available) db.taskRuns
  let runId := tr.1.workflowRunId
  pure (t, { db with
    workflowRuns :=
      if status = .dead then db.workflowRuns.map (failRun env runId) else db.workflowRuns
    taskRuns := if status = .dead then tasks.map (cancelWaiting env runId) else tasks
    taskAttempts := Table.update
      (fun a => a.taskRunId = taskId ∧ a.attemptNumber = tr.1.attemptCount)
      (fun a => { a with
        endedAt := some env.now
        exitStatus := some status
        errorType := some f.errorType
        errorMessage := some f.errorMessage
        traceId := nullIfEmpty f.traceId }) db.taskAttempts
    outboxEvents := db.outboxEvents ++ [failedEvent env f status available tr.1] })

/-! ## Replay -/

/-- A cancelled task goes back to the state its dependencies and its delay give it. -/
def rebuild (env : Env) (db : Db) (tasks : List TaskRun) (t : TaskRun) : TaskRun :=
  { t with
    status :=
      if db.hasUnfinishedUpstream tasks t then .blocked
      else if env.now < t.availableAt then .retryWait
      else .ready
    updatedAt := env.now }

/-- `UPDATE workflow_runs SET status='RUNNING',completed_at=NULL WHERE id=$1 AND
status='FAILED'`. -/
def reopenRun (runId : ℕ) (r : Run) : Run :=
  if r.id = runId ∧ r.status = .failed then { r with status := .running, completedAt := none }
  else r

/-- The event `task.replayed`. -/
def replayedEvent (env : Env) (t : TaskRun) (r : Run) : OutboxEvent :=
  newEvent env 0 .taskRun t.id .replayed
    { workflowRunId := some t.workflowRunId, taskRunId := some t.id, taskKey := some t.taskKey }
    r.traceParent

/-- `Store.ReplayDead`. -/
def replayDead (env : Env) (tenantId : ℕ) (userId : Option ℕ) (taskId : ℕ) (db : Db) :
    Except StoreError Db := do
  let tr ← orError .notFound (db.tasksWithRun.find? fun tr =>
    tr.1.id = taskId ∧ tr.2.tenantId = tenantId ∧ tr.1.status = .dead)
  let runId := tr.1.workflowRunId
  let tasks := Table.update (fun t => t.id = taskId) (revive env) db.taskRuns
  pure { db with
    workflowRuns := db.workflowRuns.map (reopenRun runId)
    taskRuns := Table.update (fun t => t.workflowRunId = runId ∧ t.status = .cancelled)
      (rebuild env db tasks) tasks
    outboxEvents := db.outboxEvents ++ [replayedEvent env tr.1 tr.2]
    auditEvents := db.auditEvents ++
      [newAuditEvent env tenantId userId "task.replay" "task_run" taskId] }

end RunMesh
