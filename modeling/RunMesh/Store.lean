import RunMesh.Fallible
import RunMesh.Schema

/-!
# Runs and definitions

The operations of `internal/storage/postgres.go` that write. Each is one transaction, a
function from the database to an error or to its result and the database it commits : an
operation that returns an error has rolled back, so it leaves no database.

`createRun` copies the definition's graph. The run gets the first UUID drawn, the task of
the `i`-th key the `i + 1`-st, and the event the one after them.
-/

namespace RunMesh

open Fallible

/-! ## Definitions -/

/-- A row of `audit_events`. -/
def newAuditEvent (env : Env) (tenantId : ℕ) (userId : Option ℕ) (action resourceType : String)
    (resourceId : ℕ) : AuditEvent :=
  ⟨tenantId, userId, action, resourceType, resourceId, env.now⟩

/-- Where a parameter of a statement stands. pgx prepares a statement without the types of its
parameters. PostgreSQL takes the type from the column the parameter is stored in or from its cast,
and finds none for an argument of a function that takes `"any"`. -/
inductive Parameter
  | column | cast | anyArgument
  deriving DecidableEq, Repr

/-- `INSERT INTO audit_events` with these parameters. A parameter without a type is error 42P18,
`could not determine data type of parameter`. -/
def insertAuditEvent (parameters : List Parameter) (a : AuditEvent) (log : List AuditEvent) :
    Except StoreError (List AuditEvent) := do
  require .database (.anyArgument ∉ parameters)
  pure (log ++ [a])

/-- `VALUES($1,$2,'workflow.version','workflow',$3,jsonb_build_object('version',$4))`. -/
def versionAuditParameters : List Parameter :=
  [.column, .column, .column, .anyArgument]

/-- `VALUES($1,$2,'api_key.create','api_key',$3,jsonb_build_object('name',$4,'scopes',
$5::text[]))`. -/
def keyAuditParameters : List Parameter :=
  [.column, .column, .column, .anyArgument, .cast]

/-- The two audit rows with metadata are refused. -/
@[simp]
theorem insertAuditEvent_version (a : AuditEvent) (log : List AuditEvent) :
    insertAuditEvent versionAuditParameters a log = .error .database := rfl

@[simp]
theorem insertAuditEvent_key (a : AuditEvent) (log : List AuditEvent) :
    insertAuditEvent keyAuditParameters a log = .error .database := rfl

/-- `Store.CreateWorkflow`. -/
def createWorkflow (env : Env) (tenantId : ℕ) (userId : Option ℕ) (name : String) (dag : DAG)
    (db : Db) : Except StoreError (Definition × Db) := do
  let _ ← (validateDAG dag).mapError .invalidDag
  let name := if name = "" then dag.name else name
  require .nameRequired (name ≠ "")
  require .conflict (db.workflowDefinitions.all fun d =>
    ¬(d.tenantId = tenantId ∧ d.name = name ∧ d.version = 1))
  let d : Definition := ⟨env.uuid 0, tenantId, name, 1, dag, userId, env.now⟩
  pure (d, { db with
    workflowDefinitions := db.workflowDefinitions ++ [d]
    auditEvents := db.auditEvents ++
      [newAuditEvent env tenantId userId "workflow.create" "workflow" d.id] })

/-- A value fits a 32-bit `INTEGER` column. -/
def isInteger (n : ℤ) : Bool :=
  -2147483648 ≤ n ∧ n ≤ 2147483647

/-- `Store.CreateVersion`. The row locked by `ORDER BY version DESC LIMIT 1` is the one
with the largest version. The audit row is part of the transaction. -/
def createVersion (env : Env) (tenantId : ℕ) (userId : Option ℕ) (definitionId : ℕ) (dag : DAG)
    (db : Db) : Except StoreError (Definition × Db) := do
  let _ ← (validateDAG dag).mapError .invalidDag
  let named ← orError .notFound
    (db.workflowDefinitions.find? fun d => d.id = definitionId ∧ d.tenantId = tenantId)
  let version ← orError .noRows
    ((db.workflowDefinitions.filter fun d =>
      d.tenantId = tenantId ∧ d.name = named.name).map Definition.version).max?
  require .database (isInteger (version + 1))
  let d : Definition := ⟨env.uuid 0, tenantId, named.name, version + 1, dag, userId, env.now⟩
  let auditEvents ← insertAuditEvent versionAuditParameters
    (newAuditEvent env tenantId userId "workflow.version" "workflow" d.id) db.auditEvents
  pure (d, { db with workflowDefinitions := db.workflowDefinitions ++ [d], auditEvents })

/-! ## Creating a run -/

/-- `SELECT object_uri FROM artifacts WHERE id=$1 AND tenant_id=$2 AND kind='input' AND
status='READY' FOR UPDATE`, or nothing if no artifact is given. -/
def selectInputArtifact (tenantId : ℕ) (inputArtifactId : Option ℕ) (db : Db) :
    Except StoreError String :=
  match inputArtifactId with
  | none => .ok ""
  | some id => orError .notFound ((db.artifacts.find? fun a =>
      a.id = id ∧ a.tenantId = tenantId ∧ a.kind = .input ∧ a.status = .ready).map
        Artifact.objectUri)

/-- `UPDATE artifacts SET workflow_run_id=$2 WHERE id=$1 AND workflow_run_id IS NULL`, a
conflict unless it affects one row. -/
def attachInputArtifact (inputArtifactId : Option ℕ) (runId : ℕ) (artifacts : List Artifact) :
    Except StoreError (List Artifact) :=
  match inputArtifactId with
  | none => .ok artifacts
  | some id =>
    let unattached := fun a : Artifact => decide (a.id = id ∧ a.workflowRunId = none)
    if artifacts.countP unattached = 1 then
      .ok (Table.update unattached (fun a => { a with workflowRunId := some runId }) artifacts)
    else .error .conflict

/-- `ids[key]`, for a key of the map. -/
def taskId (env : Env) (dag : DAG) (key : String) : ℕ :=
  env.uuid (dag.keys.idxOf key + 1)

/-- The row of one task, its columns left out of the `INSERT` at their defaults. -/
def newTaskRun (env : Env) (run : Run) (dag : DAG) (entry : String × TaskSpec) : TaskRun :=
  let spec := withDefaults entry.2
  { id := taskId env dag entry.1
    workflowRunId := run.id
    taskKey := entry.1
    handler := spec.handler
    status := if spec.dependsOn.length = 0 then .ready else .blocked
    priority := spec.priority
    availableAt := env.now
    attemptCount := 0
    maximumAttempts := spec.maximumAttempts.toNat
    timeoutSeconds := spec.timeoutSeconds.toNat
    leaseOwner := none
    leaseExpiresAt := none
    input := run.input
    output := none
    outputArtifactUri := none
    createdAt := env.now
    updatedAt := env.now }

/-- The column types and `CHECK`s of `task_runs`. -/
def taskRunInsertable (spec : TaskSpec) : Bool :=
  isInteger spec.priority && isInteger spec.maximumAttempts && isInteger spec.timeoutSeconds &&
    0 < spec.maximumAttempts && 0 < spec.timeoutSeconds

/-- The dependency rows, one per entry of a `depends_on` list. -/
def newDependencies (env : Env) (run : Run) (dag : DAG) : List Dependency :=
  dag.tasks.flatMap fun entry => entry.2.dependsOn.map fun dep =>
    ⟨run.id, taskId env dag entry.1, taskId env dag dep⟩

/-- The dependency rows can be inserted : `ids[dep]` is a UUID, the pair is new
(`PRIMARY KEY`), and its parts differ (`CHECK`). -/
def dependenciesInsertable (env : Env) (run : Run) (dag : DAG) : Bool :=
  (dag.tasks.all fun entry => entry.2.dependsOn.all fun dep => dep ∈ dag.keys) &&
    (newDependencies env run dag).Nodup &&
    (newDependencies env run dag).all fun d => d.taskRunId ≠ d.dependsOnTaskRunId

/-- An event of the transaction, `n` being the number of UUIDs drawn before. -/
def newEvent (env : Env) (n : ℕ) (aggregateType : AggregateType) (aggregateId : ℕ)
    (eventType : EventType) (payload : Payload) (traceParent : String) : OutboxEvent where
  id := env.uuid n
  aggregateType := aggregateType
  aggregateId := aggregateId
  eventType := eventType
  payload := payload
  traceParent := traceParent
  createdAt := env.now

/-- The event `workflow.run.created`. -/
def runCreatedEvent (env : Env) (run : Run) (dag : DAG) : OutboxEvent :=
  newEvent env (dag.tasks.length + 1) .workflowRun run.id .runCreated
    { workflowRunId := some run.id, definitionId := some run.workflowDefinitionId,
      status := some .running } env.traceParent

/-- The inserts of a run that has no earlier one with its key. -/
def insertRun (env : Env) (userId : Option ℕ) (inputArtifactId : Option ℕ) (run : Run)
    (dag : DAG) (db : Db) : Except StoreError Db := do
  let artifacts ← attachInputArtifact inputArtifactId run.id db.artifacts
  require .database (dag.tasks.all fun entry => taskRunInsertable (withDefaults entry.2))
  require .database (dependenciesInsertable env run dag)
  pure { db with
    workflowRuns := db.workflowRuns ++ [run]
    taskRuns := db.taskRuns ++ dag.tasks.map (newTaskRun env run dag)
    taskDependencies := db.taskDependencies ++ newDependencies env run dag
    outboxEvents := db.outboxEvents ++ [runCreatedEvent env run dag]
    artifacts := artifacts
    auditEvents := db.auditEvents ++
      [newAuditEvent env run.tenantId userId "run.create" "workflow_run" run.id] }

/-- The row of a new run. -/
def newRun (env : Env) (tenantId : ℕ) (d : Definition) (idempotencyKey input uri : String) :
    Run where
  id := env.uuid 0
  tenantId := tenantId
  workflowDefinitionId := d.id
  workflowVersion := d.version
  status := .running
  input := if input = "" then "\x7b\x7d" else input
  inputArtifactUri := if uri = "" then none else some uri
  idempotencyKey := idempotencyKey
  traceParent := env.traceParent
  startedAt := some env.now
  completedAt := none
  createdAt := env.now

/-- `Store.CreateRun` : the run, and whether it was created. -/
def createRun (env : Env) (tenantId : ℕ) (userId : Option ℕ) (definitionId : ℕ)
    (idempotencyKey input : String) (inputArtifactId : Option ℕ) (db : Db) :
    Except StoreError ((Run × Bool) × Db) := do
  require .idempotencyKeyRequired (idempotencyKey ≠ "")
  let uri ← selectInputArtifact tenantId inputArtifactId db
  let d ← orError .notFound
    (db.workflowDefinitions.find? fun d => d.id = definitionId ∧ d.tenantId = tenantId)
  -- `ON CONFLICT(tenant_id,idempotency_key) DO NOTHING`, then `getRunTx`
  match db.workflowRuns.find? fun r =>
      r.tenantId = tenantId ∧ r.idempotencyKey = idempotencyKey with
  | some existing => pure ((existing, false), db)
  | none =>
    let run := newRun env tenantId d idempotencyKey input uri
    let db' ← insertRun env userId inputArtifactId run d.dag db
    pure ((run, true), db')

/-! ## Cancelling and retrying a run -/

/-- `UPDATE task_runs SET status='CANCELLED',updated_at=now() WHERE workflow_run_id=$1 AND
status IN ('BLOCKED','READY','DISPATCHING','RETRY_WAIT')`. -/
def cancelWaiting (env : Env) (runId : ℕ) (t : TaskRun) : TaskRun :=
  if t.workflowRunId = runId ∧ t.status.waiting then
    { t with status := .cancelled, updatedAt := env.now }
  else t

/-- `status NOT IN ('SUCCEEDED','FAILED','CANCELLED')`. -/
def RunStatus.open : RunStatus → Bool
  | .succeeded | .failed | .cancelled => false
  | _ => true

/-- `Store.CancelRun`. -/
def cancelRun (env : Env) (tenantId : ℕ) (userId : Option ℕ) (id : ℕ) (db : Db) :
    Except StoreError Db :=
  let cancellable := fun r : Run =>
    decide (r.id = id ∧ r.tenantId = tenantId ∧ r.status.open = true)
  if db.workflowRuns.any cancellable then
    .ok { db with
      workflowRuns := Table.update cancellable
        (fun r => { r with status := .cancelled, completedAt := some env.now }) db.workflowRuns
      taskRuns := db.taskRuns.map (cancelWaiting env id)
      auditEvents := db.auditEvents ++
        [newAuditEvent env tenantId userId "run.cancel" "workflow_run" id] }
  else if db.workflowRuns.any fun r => r.id = id ∧ r.tenantId = tenantId then .error .conflict
  else .error .notFound

/-- `status='READY',available_at=now(),maximum_attempts=GREATEST(maximum_attempts,
attempt_count+1)`. -/
def revive (env : Env) (t : TaskRun) : TaskRun :=
  { t with
    status := .ready
    availableAt := env.now
    maximumAttempts := max t.maximumAttempts (t.attemptCount + 1)
    updatedAt := env.now }

/-- `Store.RetryRun`. -/
def retryRun (env : Env) (tenantId : ℕ) (userId : Option ℕ) (id : ℕ) (db : Db) :
    Except StoreError Db := do
  require .notFound (db.workflowRuns.any fun r => r.id = id ∧ r.tenantId = tenantId)
  let dead := fun t : TaskRun => decide (t.workflowRunId = id ∧ t.status = .dead)
  require .conflict (db.taskRuns.any dead)
  pure { db with
    workflowRuns := Table.update (fun r => r.id = id)
      (fun r => { r with status := .running, completedAt := none }) db.workflowRuns
    taskRuns := Table.update dead
      (fun t => { revive env t with leaseOwner := none, leaseExpiresAt := none }) db.taskRuns
    auditEvents := db.auditEvents ++
      [newAuditEvent env tenantId userId "run.retry" "workflow_run" id] }

end RunMesh
