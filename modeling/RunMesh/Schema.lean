import RunMesh.Table
import RunMesh.Workflow

/-!
# The database schema

The tables of `migrations/`, each a list of rows, and the values the code writes into
them. A nullable column is an `Option`, and SQL comparisons with a null are false. JSON
texts are opaque strings, except for the event payloads, whose fields the outbox reads.

`Env` is what a transaction takes from outside : `now()` and `time.Now()`, the values of
its `gen_random_uuid()` and `uuid.NewString()` calls in order, and the trace context.
`Db.Fresh` is what those UUIDs promise.
-/

namespace RunMesh

/-! ## Rows -/

/-- A row of `workflow_definitions`. -/
structure Definition where
  id : ℕ
  tenantId : ℕ
  name : String
  version : ℕ
  dag : DAG
  createdBy : Option ℕ
  createdAt : ℤ
  deriving DecidableEq

/-- A row of `workflow_runs`. -/
structure Run where
  id : ℕ
  tenantId : ℕ
  workflowDefinitionId : ℕ
  workflowVersion : ℕ
  status : RunStatus
  input : String
  inputArtifactUri : Option String
  idempotencyKey : String
  traceParent : String
  startedAt : Option ℤ
  completedAt : Option ℤ
  createdAt : ℤ
  deriving DecidableEq, Repr

/-- A row of `task_runs`. -/
structure TaskRun where
  id : ℕ
  workflowRunId : ℕ
  taskKey : String
  handler : String
  status : TaskStatus
  priority : ℤ
  availableAt : ℤ
  attemptCount : ℕ
  maximumAttempts : ℕ
  timeoutSeconds : ℕ
  leaseOwner : Option String
  leaseExpiresAt : Option ℤ
  input : String
  output : Option String
  outputArtifactUri : Option String
  createdAt : ℤ
  updatedAt : ℤ
  deriving DecidableEq, Repr

/-- A row of `task_dependencies`. -/
structure Dependency where
  workflowRunId : ℕ
  taskRunId : ℕ
  dependsOnTaskRunId : ℕ
  deriving DecidableEq, Repr

/-- A row of `task_attempts`. -/
structure TaskAttempt where
  taskRunId : ℕ
  attemptNumber : ℕ
  workerId : String
  scheduledAt : ℤ
  executingAt : Option ℤ
  startedAt : ℤ
  endedAt : Option ℤ
  exitStatus : Option TaskStatus
  errorType : Option String
  errorMessage : Option String
  traceId : Option String
  artifactUri : Option String
  logArtifactUri : Option String
  deriving DecidableEq, Repr

/-- The type `artifact_kind`. -/
inductive ArtifactKind
  | input | output | log
  deriving DecidableEq, Repr

/-- The type `artifact_status`. -/
inductive ArtifactStatus
  | pending | ready
  deriving DecidableEq, Repr

/-- A row of `artifacts`. -/
structure Artifact where
  id : ℕ
  tenantId : ℕ
  kind : ArtifactKind
  status : ArtifactStatus
  objectKey : String
  objectUri : String
  contentType : String
  declaredSize : ℕ
  sizeBytes : Option ℕ
  checksumSha256 : Option String
  workflowRunId : Option ℕ
  taskRunId : Option ℕ
  createdBy : Option ℕ
  readyAt : Option ℤ
  createdAt : ℤ
  deriving DecidableEq, Repr

/-- The values of `aggregate_type`. -/
inductive AggregateType
  | workflowRun | taskRun
  deriving DecidableEq, Repr

/-- The event types, `workflow.run.created` and `task.*`. -/
inductive EventType
  | runCreated | dispatch | leased | ready | succeeded | retryWait | dead | cancelled | replayed
  deriving DecidableEq, Repr

/-- The JSON object of an event : the fields the code sets, each absent when `none`. -/
structure Payload where
  workflowRunId : Option ℕ := none
  taskRunId : Option ℕ := none
  taskKey : Option String := none
  handler : Option String := none
  workerId : Option String := none
  attempt : Option ℕ := none
  errorType : Option String := none
  errorMessage : Option String := none
  availableAt : Option ℤ := none
  definitionId : Option ℕ := none
  status : Option RunStatus := none
  deriving DecidableEq, Repr

/-- A row of `outbox_events`. -/
structure OutboxEvent where
  id : ℕ
  aggregateType : AggregateType
  aggregateId : ℕ
  eventType : EventType
  payload : Payload
  traceParent : String
  publishedAt : Option ℤ := none
  createdAt : ℤ
  claimToken : Option ℕ := none
  claimExpiresAt : Option ℤ := none
  publishAttempts : ℕ := 0
  deriving DecidableEq, Repr

/-- The generated column `ordering_key`. -/
def OutboxEvent.orderingKey (e : OutboxEvent) : ℕ :=
  e.payload.workflowRunId.getD e.aggregateId

/-- The row as it was inserted, without the columns the publishers write. -/
def OutboxEvent.asInserted (e : OutboxEvent) : OutboxEvent :=
  { e with publishedAt := none, claimToken := none, claimExpiresAt := none, publishAttempts := 0 }

/-- A row of `audit_events`. -/
structure AuditEvent where
  tenantId : ℕ
  actorId : Option ℕ
  action : String
  resourceType : String
  resourceId : ℕ
  createdAt : ℤ
  deriving DecidableEq, Repr

/-! ## The database -/

/-- The tables. -/
structure Db where
  workflowDefinitions : List Definition
  workflowRuns : List Run
  taskRuns : List TaskRun
  taskDependencies : List Dependency
  taskAttempts : List TaskAttempt
  outboxEvents : List OutboxEvent
  artifacts : List Artifact
  auditEvents : List AuditEvent
  deriving DecidableEq

/-- The errors a store operation returns. `noRows` is `pgx.ErrNoRows`, `database` any
error of the database itself, a violated constraint included. -/
inductive StoreError
  | notFound | conflict | leaseLost | noRows | database
  | invalidDag (e : DagError)
  | nameRequired
  | idempotencyKeyRequired
  deriving DecidableEq, Repr

/-- What a transaction takes from outside the database. -/
structure Env where
  /-- `now()`, the time of the transaction's `BEGIN`. A `time.Now()` that the process reads before
  the transaction waits for a lock is taken to be the same. -/
  now : ℤ
  /-- The time from then on until the process reads `time.Now()` with the locks held, the same for
  all rows of a batch. The clocks of the process and of the database are taken to agree. -/
  elapsed : ℕ
  /-- The UUIDs drawn during the transaction, in order. -/
  uuid : ℕ → ℕ
  /-- `tracecontext.FromContext`. -/
  traceParent : String

/-- `time.Now()` with the locks held. -/
def Env.wall (env : Env) : ℤ :=
  env.now + env.elapsed

namespace Db

/-- `task_runs t JOIN workflow_runs r ON r.id=t.workflow_run_id`. -/
def tasksWithRun (db : Db) : List (TaskRun × Run) :=
  Table.join TaskRun.workflowRunId Run.id db.taskRuns db.workflowRuns

/-- `task_dependencies d JOIN task_runs upstream ON upstream.id=d.depends_on_task_run_id
WHERE d.task_run_id=t.id`, over the task rows `tasks`. -/
def upstream (db : Db) (tasks : List TaskRun) (t : TaskRun) : List TaskRun :=
  ((Table.join Dependency.dependsOnTaskRunId TaskRun.id db.taskDependencies tasks).filter
    fun du => du.1.taskRunId = t.id).map Prod.snd

/-- `EXISTS(... AND upstream.status<>'SUCCEEDED')`. -/
def hasUnfinishedUpstream (db : Db) (tasks : List TaskRun) (t : TaskRun) : Bool :=
  (db.upstream tasks t).any fun u => u.status ≠ .succeeded

/-- The UUIDs in use. -/
def ids (db : Db) : List ℕ :=
  db.workflowDefinitions.map Definition.id ++ db.workflowRuns.map Run.id ++
    db.taskRuns.map TaskRun.id ++ db.outboxEvents.map OutboxEvent.id

/-- The UUIDs a transaction draws are new and differ from each other. -/
structure Fresh (db : Db) (env : Env) : Prop where
  notMem : ∀ n, env.uuid n ∉ db.ids
  injective : Function.Injective env.uuid

theorem mem_upstream {db : Db} {tasks : List TaskRun} {t u : TaskRun} :
    u ∈ db.upstream tasks t ↔ u ∈ tasks ∧
      ∃ d ∈ db.taskDependencies, d.taskRunId = t.id ∧ d.dependsOnTaskRunId = u.id := by
  unfold upstream
  simp only [List.mem_map, List.mem_filter, decide_eq_true_eq, Prod.exists, exists_eq_right]
  constructor
  · rintro ⟨d, hd, hdt⟩
    obtain ⟨hd, hu, hk⟩ := Table.mem_join.1 hd
    exact ⟨hu, d, hd, hdt, hk.symm⟩
  · rintro ⟨hu, d, hd, hdt, hk⟩
    exact ⟨d, Table.mem_join.2 ⟨hd, hu, hk.symm⟩, hdt⟩

/-- Upstreams after an update of the rows are the updated upstreams. -/
theorem mem_upstream_map {db : Db} {tasks : List TaskRun} {f : TaskRun → TaskRun}
    (hf : ∀ u, (f u).id = u.id) {t u' : TaskRun} :
    u' ∈ db.upstream (tasks.map f) t ↔ ∃ u ∈ db.upstream tasks t, f u = u' := by
  simp only [mem_upstream, List.mem_map]
  constructor
  · rintro ⟨⟨u, hu, rfl⟩, d, hd, hdt, hdu⟩
    exact ⟨u, ⟨hu, d, hd, hdt, hdu.trans (hf u)⟩, rfl⟩
  · rintro ⟨u, ⟨hu, d, hd, hdt, hdu⟩, rfl⟩
    exact ⟨⟨u, hu, rfl⟩, d, hd, hdt, hdu.trans (hf u).symm⟩

theorem hasUnfinishedUpstream_iff {db : Db} {tasks : List TaskRun} {t : TaskRun} :
    db.hasUnfinishedUpstream tasks t = true ↔
      ∃ u ∈ db.upstream tasks t, u.status ≠ .succeeded := by
  simp [hasUnfinishedUpstream]

end Db

/-- The trace context, the time and the UUIDs `base`, `base + 1`, ... -/
def Env.at (now : ℤ) (base : ℕ) : Env where
  now := now
  elapsed := 0
  uuid n := base + n
  traceParent := ""

/-- Consecutive UUIDs past all those in use are fresh. -/
theorem Db.fresh_at {db : Db} {base : ℕ} (h : ∀ i ∈ db.ids, i < base) (now : ℤ) :
    db.Fresh (Env.at now base) where
  notMem n hn := by
    have := h _ hn
    simp only [Env.at] at this
    omega
  injective m n hmn := by
    simp only [Env.at] at hmn
    omega

end RunMesh
