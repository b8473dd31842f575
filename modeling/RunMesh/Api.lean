import RunMesh.Artifacts
import RunMesh.Calls
import RunMesh.Handlers
import Mathlib.Data.List.Sort

/-!
# The HTTP API

The handlers of `internal/api/server.go`, for the public routes and for those of the workers,
with the queries they make. Each is a `Handler` over the tables and the objects of the bucket
(`Backend`) : a call of the store is a transaction, and so is each statement that is executed
outside of one. Between two transactions of a handler, other requests are served.

A handler is given the principal of the request and its decoded body. Ids arrive as texts. A
response has the rows its JSON is made of, and an error response is a `Refusal`.
-/

namespace RunMesh

open Fallible Handler

/-! ## State and configuration -/

/-- A row of `worker_heartbeats`. -/
structure WorkerHeartbeat where
  tenantId : ℕ
  workerId : String
  handlers : List String
  activeTasks : ℤ
  metadata : String
  lastSeenAt : ℤ
  deriving DecidableEq, Repr

/-- The tables and the bucket. -/
structure Backend where
  db : Db
  schedules : List Schedule
  apiKeys : List ApiKey
  workerHeartbeats : List WorkerHeartbeat
  objects : Objects

/-- What a transaction takes from outside, and the random bytes of a token. -/
structure Draw where
  env : Env
  secret : Secret

/-- Where the artifacts are, and `Checksum`. -/
structure ObjectStorage where
  bucket : String
  expiry : ℤ
  checksum : List UInt8 → String

/-- The fields of `Server`, and the libraries it uses. -/
structure ApiConfig where
  keys : KeyConfig
  calendar : Calendar
  leaseDuration : ℤ
  /-- `Artifacts`, which may be nil. -/
  storage : Option ObjectStorage
  /-- `json.Unmarshal` finds an object. -/
  isObject : String → Bool
  /-- The order of texts in the database. -/
  textLe : String → String → Bool
  /-- The response of `handleErr` to an error of the object store. -/
  objectError : String → Refusal
  /-- The text of an error of the database. -/
  databaseText : String

namespace ApiConfig

variable (cfg : ApiConfig)

/-- The texts of ids. -/
def uuid : UuidText :=
  cfg.keys.uuid

/-- The response to an error of the store. -/
def handleErr : StoreError → Refusal :=
  RunMesh.handleErr cfg.keys.quote

/-- The manager of the artifacts in a bucket. -/
def manager (storage : ObjectStorage) : Manager :=
  ⟨cfg.uuid, storage.bucket, storage.expiry, storage.checksum⟩

end ApiConfig

/-- An id in the text of a statement. -/
def ApiConfig.idOf (cfg : ApiConfig) (text : String) : Except StoreError ℕ :=
  orError .database (cfg.uuid.value text)

/-! ## Queries -/

/-- `DISTINCT ON` of sorted rows. -/
def distinctOn {α κ : Type*} [DecidableEq κ] (key : α → κ) : List α → List α
  | [] => []
  | a :: as => a :: (distinctOn key as).filter fun b => key b ≠ key a

/-- `Store.ListWorkflows`. -/
def listWorkflows (cfg : ApiConfig) (tenantId : ℕ) (db : Db) : List Definition :=
  distinctOn Definition.name ((db.workflowDefinitions.filter fun d =>
    d.tenantId = tenantId).insertionSort fun a b =>
      cfg.textLe a.name b.name = true ∧ (a.name = b.name → b.version ≤ a.version))

/-- `Store.GetWorkflow`. -/
def getWorkflow (cfg : ApiConfig) (tenantId : ℕ) (id : String) (db : Db) :
    Except StoreError Definition := do
  let id ← cfg.idOf id
  orError .notFound
    (db.workflowDefinitions.find? fun d => d.id = id ∧ d.tenantId = tenantId)

/-- `Store.ListRuns` with the limit of the handler. -/
def listRuns (tenantId : ℕ) (db : Db) : List Run :=
  ((db.workflowRuns.filter fun r => r.tenantId = tenantId).insertionSort fun a b =>
    b.createdAt ≤ a.createdAt).take 50

/-- The first query of `Store.GetRun`, and the check of `Store.Events`. -/
def findRun (cfg : ApiConfig) (tenantId : ℕ) (id : String) (db : Db) : Except StoreError Run := do
  let id ← cfg.idOf id
  orError .notFound (db.workflowRuns.find? fun r => r.id = id ∧ r.tenantId = tenantId)

/-- A row of the second query of `Store.GetRun`. -/
structure TaskRow where
  task : TaskRun
  logArtifactUri : Option String
  dependsOn : List String
  deriving DecidableEq

/-- `ORDER BY created_at,task_key`. -/
def taskOrder (cfg : ApiConfig) (a b : TaskRun) : Prop :=
  a.createdAt < b.createdAt ∨ a.createdAt = b.createdAt ∧ cfg.textLe a.taskKey b.taskKey = true

instance (cfg : ApiConfig) : DecidableRel (taskOrder cfg) := fun _ _ =>
  inferInstanceAs (Decidable (_ ∨ _))

/-- The last `log_artifact_uri` of the attempts of a task. -/
def lastLog (db : Db) (t : TaskRun) : Option String :=
  ((db.taskAttempts.filter fun a => a.taskRunId = t.id ∧ a.logArtifactUri ≠ none).insertionSort
    fun a b => b.attemptNumber ≤ a.attemptNumber).head?.bind TaskAttempt.logArtifactUri

/-- The second query of `Store.GetRun`. -/
def taskRows (cfg : ApiConfig) (runId : ℕ) (db : Db) : List TaskRow :=
  ((db.taskRuns.filter fun t => t.workflowRunId = runId).insertionSort (taskOrder cfg)).map
    fun t => ⟨t, lastLog db t, ((db.upstream db.taskRuns t).map TaskRun.taskKey).insertionSort
      fun a b => cfg.textLe a b = true⟩

/-- The third query of `Store.GetRun`. -/
def attemptRows (cfg : ApiConfig) (runId : ℕ) (db : Db) : List TaskAttempt :=
  (((Table.join TaskAttempt.taskRunId TaskRun.id db.taskAttempts db.taskRuns).filter fun row =>
    row.2.workflowRunId = runId).insertionSort fun a b =>
      taskOrder cfg a.2 b.2 ∧
        (taskOrder cfg b.2 a.2 → a.1.attemptNumber ≤ b.1.attemptNumber)).map Prod.fst

/-- The second query of `Store.Events`, `aggregate_id=$1::uuid OR
payload->>'workflow_run_id'=$1::text`. The parameter is a UUID, and its text the canonical one. -/
def runEvents (cfg : ApiConfig) (runId : ℕ) (db : Db) : List OutboxEvent :=
  (db.outboxEvents.filter fun e => e.aggregateId = runId ∨
    e.payload.workflowRunId.map cfg.uuid.format = some (cfg.uuid.format runId)).insertionSort
      fun a b => a.createdAt < b.createdAt ∨ a.createdAt = b.createdAt ∧ a.id ≤ b.id

/-- `Store.DeadLetter`. -/
def listDead (tenantId : ℕ) (db : Db) : List TaskRun :=
  ((db.tasksWithRun.filter fun tr => tr.2.tenantId = tenantId ∧ tr.1.status = .dead).map
    Prod.fst).insertionSort fun a b => b.updatedAt ≤ a.updatedAt

/-- `Store.ListWorkers`. -/
def listWorkers (tenantId : ℕ) (workers : List WorkerHeartbeat) : List WorkerHeartbeat :=
  (workers.filter fun w => w.tenantId = tenantId).insertionSort fun a b =>
    b.lastSeenAt ≤ a.lastSeenAt

/-- `Store.ListAPIKeys`. -/
def listAPIKeys (tenantId : ℕ) (keys : List ApiKey) : List ApiKey :=
  (keys.filter fun k => k.tenantId = tenantId).insertionSort fun a b => b.createdAt ≤ a.createdAt

/-! ## Transactions -/

/-- A row of a run, with what is signed for it. -/
structure RunView where
  run : Run
  inputUrl : Option SignedUrl
  /-- The tasks with their output and log, and their attempts with theirs. -/
  tasks : List ((TaskRow × Option SignedUrl × Option SignedUrl) ×
    List (TaskAttempt × Option SignedUrl × Option SignedUrl))

/-- What a response is made of. -/
inductive Body
  | empty
  | reply (r : Reply)
  | definition (d : Definition)
  | definitions (items : List Definition)
  | runs (items : List Run)
  | run (view : RunView)
  | events (items : List OutboxEvent)
  | workers (items : List WorkerHeartbeat)
  | tasks (items : List TaskRun)
  | schedule (row : Schedule)
  | keys (items : List ApiKey)
  | key (row : ApiKey) (token : String)
  | artifact (a : Artifact)
  | signed (a : Artifact) (url : SignedUrl)

/-- A response : the status of HTTP, or the code 0 of gRPC, and the body. -/
structure Response where
  status : ℕ
  body : Body

/-- The code of a request. -/
abbrev Api := Handler Draw Backend Refusal

/-- A transaction of the store. -/
def store (op : Op) : Handler Draw Backend StoreError Reply :=
  transact fun d s => (op.exec d.env s.db).map fun r => (r.1, { s with db := r.2 })

/-- A query of the store. -/
def select {ε α : Type} (f : Db → Except ε α) : Handler Draw Backend ε α :=
  query fun _ s => f s.db

/-- The tables of the API keys. -/
def Backend.keyTables (s : Backend) : KeyTables :=
  ⟨s.apiKeys, s.db.auditEvents⟩

/-- The tables with those of the API keys. -/
def Backend.withKeyTables (s : Backend) (t : KeyTables) : Backend :=
  { s with apiKeys := t.apiKeys, db := { s.db with auditEvents := t.auditEvents } }

/-- `Store.WorkerHeartbeat`. -/
def workerHeartbeat (env : Env) (tenantId : ℕ) (workerId : String) (handlers : List String)
    (activeTasks : ℤ) (metadata : String) (workers : List WorkerHeartbeat) :
    Except StoreError (List WorkerHeartbeat) := do
  require .database (isInteger activeTasks)
  let row : WorkerHeartbeat := ⟨tenantId, workerId, handlers, activeTasks,
    if metadata = "" then "\x7b\x7d" else metadata, env.now⟩
  let same := fun w : WorkerHeartbeat => decide (w.tenantId = tenantId ∧ w.workerId = workerId)
  if workers.any same then pure (Table.update same (fun _ => row) workers)
  else pure (workers ++ [row])

/-! ## The manager -/

/-- `Manager.createUpload`. -/
def Manager.createUpload (m : Manager) (tenantId : ℕ) (userId : Option ℕ) (req : UploadRequest) :
    Handler Draw Backend ManagerError (Artifact × SignedUrl) := do
  let u ← select (admitUpload m tenantId userId req)
  transact fun d s => (insertUpload m d.env u s.db).map fun r => (r.1, { s with db := r.2 })

/-- The size a completion has found. -/
def Completion.size : Completion → ℕ
  | head _ => 0
  | get _ _ size | finish _ size => size

/-- `HeadObject`, in `Complete`. -/
def Manager.head (a : Artifact) : Handler Draw Backend ManagerError ℕ :=
  query fun _ s => (headObject s.objects a).map Completion.size

/-- `GetObject`, in `Complete`. -/
def Manager.verify (m : Manager) (a : Artifact) (checksum : String) (size : ℕ) :
    Handler Draw Backend ManagerError Unit :=
  query fun _ s => (getObject m s.objects a checksum size).map fun _ => ()

/-- `Store.CompleteArtifact`, in `Complete`. -/
def Manager.finish (a : Artifact) (size : ℕ) : Handler Draw Backend ManagerError Artifact :=
  transact fun d s => ((completeArtifact d.env a.tenantId a.id size s.db).mapError .store).map
    fun r => (r.1, { s with db := r.2 })

/-- `Manager.Complete`. -/
def Manager.complete (m : Manager) (tenantId : ℕ) (id : String) :
    Handler Draw Backend ManagerError Artifact := do
  let a ← (select (getArtifact m.uuid tenantId id)).mapError .store
  if a.status = .ready then pure a
  else
    let size ← Manager.head a
    match a.checksumSha256 with
    | some checksum => m.verify a checksum size
    | none => pure ()
    Manager.finish a size

/-- `Manager.download`. -/
def Manager.download (m : Manager) (tenantId : ℕ) (idOrURI : String) :
    Handler Draw Backend StoreError (Artifact × SignedUrl) :=
  query fun d s => RunMesh.download m d.env tenantId idOrURI s.db

/-! ## The handlers -/

namespace Api

variable (cfg : ApiConfig) (p : Principal)

/-- A transaction of the store, its errors being responses. -/
def call (op : Op) : Api Reply :=
  (store op).mapError cfg.handleErr

/-- `Require`. -/
def authorize (role : Role) (scope : String) : Api Unit :=
  done (requireRole role scope p)

/-- The manager, if there is one. -/
def artifacts : Api Manager :=
  done (orError ⟨503, "artifact storage is not configured"⟩ (cfg.storage.map cfg.manager))

/-- An id in the path of a request. -/
def pathId (id : String) : Api ℕ :=
  done ((cfg.idOf id).mapError cfg.handleErr)

/-- `Server.createWorkflow`, `POST /v1/workflows`. -/
def createWorkflow (dag : DAG) : Api Response := do
  authorize p .developer "workflows:write"
  let reply ← call cfg (.createWorkflow p.tenantId p.userId dag.name dag)
  pure ⟨201, .reply reply⟩

/-- `Server.createVersion`, `POST /v1/workflows/{id}/versions`. -/
def createVersion (id : String) (dag : DAG) : Api Response := do
  authorize p .developer "workflows:write"
  let dag := { dag with name := "" }
  match cfg.uuid.value id with
  | some definitionId =>
    let reply ← call cfg (.createVersion p.tenantId p.userId definitionId dag)
    pure ⟨201, .reply reply⟩
  | none =>
    -- the graph is validated before the statement fails
    let _ ← (done ((validateDAG dag).mapError fun e => cfg.handleErr (.invalidDag e)) : Api Unit)
    done (.error (cfg.handleErr .database))

/-- `Server.listWorkflows`, `GET /v1/workflows`. -/
def listWorkflows : Api Response := do
  authorize p .viewer "workflows:read"
  let items ← select fun db => .ok (RunMesh.listWorkflows cfg p.tenantId db)
  pure ⟨200, .definitions items⟩

/-- `Server.getWorkflow`, `GET /v1/workflows/{id}`. -/
def getWorkflow (id : String) : Api Response := do
  authorize p .viewer "workflows:read"
  let d ← (select (RunMesh.getWorkflow cfg p.tenantId id)).mapError cfg.handleErr
  pure ⟨200, .definition d⟩

/-- The id of the input artifact, if one is given. -/
def inputArtifact (id : String) : Api (Option ℕ) :=
  if id = "" then pure none else do
    let id ← pathId cfg id
    pure (some id)

/-- `Server.createRun`, `key` being the header `Idempotency-Key`. -/
def createRun (id key input inputArtifactId : String) : Api Response := do
  authorize p .operator "runs:execute"
  let key := trimSpace key
  done (require ⟨400, "a valid Idempotency-Key header is required"⟩
    (key ≠ "" ∧ key.utf8ByteSize ≤ 200))
  let input := if input = "" then "\x7b\x7d" else input
  done (require ⟨422, "input must be a JSON object"⟩ (cfg.isObject input))
  let artifactId ← inputArtifact cfg inputArtifactId
  match cfg.uuid.value id with
  | some definitionId =>
    let reply ← call cfg (.createRun p.tenantId p.userId definitionId key input artifactId)
    pure ⟨match reply with | .run _ true => 201 | _ => 200, .reply reply⟩
  | none =>
    -- the artifact is selected before the statement fails
    let _ ← (select (selectInputArtifact p.tenantId artifactId)).mapError cfg.handleErr
    done (.error (cfg.handleErr .database))

/-- `Server.listRuns`, `GET /v1/runs`. -/
def listRuns : Api Response := do
  authorize p .viewer "runs:read"
  let items ← select fun db => .ok (RunMesh.listRuns p.tenantId db)
  pure ⟨200, .runs items⟩

/-- The URL of an artifact, if there is a URI and it can be signed. -/
def sign (uri : Option String) : Api (Option SignedUrl) :=
  match cfg.storage, uri with
  | some storage, some uri => do
    let signed ← ((cfg.manager storage).download p.tenantId uri).toOption
    pure (signed.map Prod.snd)
  | _, _ => pure none

/-- The URLs of an attempt. -/
def signAttempt (a : TaskAttempt) : Api (TaskAttempt × Option SignedUrl × Option SignedUrl) := do
  let artifact ← sign cfg p (a.artifactUri.filter (· ≠ ""))
  let log ← sign cfg p (a.logArtifactUri.filter (· ≠ ""))
  pure (a, artifact, log)

/-- The URLs of a task and of its attempts. -/
def signTask (attempts : List TaskAttempt) (row : TaskRow) :
    Api ((TaskRow × Option SignedUrl × Option SignedUrl) ×
      List (TaskAttempt × Option SignedUrl × Option SignedUrl)) := do
  let output ← sign cfg p row.task.outputArtifactUri
  let log ← sign cfg p row.logArtifactUri
  let attempts ← forEach (signAttempt cfg p)
    (attempts.filter fun a => a.taskRunId = row.task.id)
  pure ((row, output, log), attempts)

/-- `Server.getRun`, `GET /v1/runs/{id}`. -/
def getRun (id : String) : Api Response := do
  authorize p .viewer "runs:read"
  let run ← (select (findRun cfg p.tenantId id)).mapError cfg.handleErr
  let rows ← select fun db => .ok (taskRows cfg run.id db)
  let attempts ← select fun db => .ok (attemptRows cfg run.id db)
  let input ← sign cfg p run.inputArtifactUri
  let tasks ← forEach (signTask cfg p attempts) rows
  pure ⟨200, .run ⟨run, input, tasks⟩⟩

/-- `Server.cancelRun`, `POST /v1/runs/{id}/cancel`. -/
def cancelRun (id : String) : Api Response := do
  authorize p .operator "runs:execute"
  let id ← pathId cfg id
  let _ ← call cfg (.cancelRun p.tenantId p.userId id)
  pure ⟨204, .empty⟩

/-- `Server.retryRun`, `POST /v1/runs/{id}/retry`. -/
def retryRun (id : String) : Api Response := do
  authorize p .operator "runs:execute"
  let id ← pathId cfg id
  let reply ← call cfg (.retryRun p.tenantId p.userId id)
  pure ⟨202, .reply reply⟩

/-- `Server.events`, `GET /v1/runs/{id}/events`. -/
def events (id : String) : Api Response := do
  authorize p .viewer "runs:read"
  let run ← (select (findRun cfg p.tenantId id)).mapError cfg.handleErr
  let items ← select fun db => .ok (runEvents cfg run.id db)
  pure ⟨200, .events items⟩

/-- `Server.workers`, `GET /v1/workers`. -/
def workers : Api Response := do
  authorize p .viewer "workers:read"
  let items ← query fun _ s => .ok (listWorkers p.tenantId s.workerHeartbeats)
  pure ⟨200, .workers items⟩

/-- `Server.deadLetter`, `GET /v1/dead-letter`. -/
def deadLetter : Api Response := do
  authorize p .operator "dead-letter:read"
  let items ← select fun db => .ok (listDead p.tenantId db)
  pure ⟨200, .tasks items⟩

/-- `Server.replay`, `POST /v1/dead-letter/{id}/replay`. -/
def replay (id : String) : Api Response := do
  authorize p .operator "dead-letter:replay"
  let id ← pathId cfg id
  let reply ← call cfg (.replayDead p.tenantId p.userId id)
  pure ⟨202, .reply reply⟩

/-- The body of a request for a schedule, with the id as a text. -/
structure ScheduleBody where
  workflowDefinitionId : String
  cronExpression : String
  timezone : String
  misfirePolicy : String
  nextExecutionAt : Option ℤ

/-- The body with the id that was read. -/
def ScheduleBody.request (b : ScheduleBody) (id : ℕ) : ScheduleRequest :=
  ⟨id, b.cronExpression, b.timezone, b.misfirePolicy, b.nextExecutionAt⟩

/-- `Server.createSchedule`. With a text that is no UUID the statement fails instead of finding
no definition. -/
def createSchedule (b : ScheduleBody) : Api Response := do
  authorize p .developer "schedules:write"
  let row ← transact fun d s =>
    match cfg.uuid.value b.workflowDefinitionId with
    | some id => (RunMesh.createSchedule cfg.calendar d.env p.tenantId (b.request id) s.db
        s.schedules).map fun r => (r.1, { s with schedules := r.2 })
    | none =>
      match RunMesh.createSchedule cfg.calendar d.env p.tenantId (b.request 0)
          { s.db with workflowDefinitions := [] } [] with
      | .error ⟨422, text⟩ => .error ⟨422, text⟩
      | _ => .error (cfg.handleErr .database)
  pure ⟨201, .schedule row⟩

/-- An `UPDATE` or a `DELETE` of the schedules with the id and the tenant, which finds one. -/
def changeSchedules (id : String) (change : (Schedule → Bool) → List Schedule → List Schedule) :
    Api Unit := do
  let id ← pathId cfg id
  transact fun _ s => do
    let named := fun row : Schedule => decide (row.id = id ∧ row.tenantId = p.tenantId)
    require (cfg.handleErr .notFound) (s.schedules.any named)
    pure ((), { s with schedules := change named s.schedules })

/-- `Server.patchSchedule`, `PATCH /v1/schedules/{id}`. -/
def patchSchedule (id : String) (enabled : Option Bool) (nextExecutionAt : Option ℤ) :
    Api Response := do
  authorize p .developer "schedules:write"
  changeSchedules cfg p id fun named => Table.update named fun row =>
    { row with
      enabled := enabled.getD row.enabled
      nextExecutionAt := nextExecutionAt.getD row.nextExecutionAt }
  pure ⟨204, .empty⟩

/-- `Server.deleteSchedule`, `DELETE /v1/schedules/{id}`. -/
def deleteSchedule (id : String) : Api Response := do
  authorize p .developer "schedules:write"
  changeSchedules cfg p id fun named schedules => schedules.filter fun row => !named row
  pure ⟨204, .empty⟩

/-- `Server.listAPIKeys`, `GET /v1/api-keys`. -/
def listAPIKeys : Api Response := do
  done (requireHumanRole .admin p)
  let items ← query fun _ s => .ok (RunMesh.listAPIKeys p.tenantId s.apiKeys)
  pure ⟨200, .keys items⟩

/-- `Server.createAPIKey`, `POST /v1/api-keys`. -/
def createAPIKey (request : ApiKeyRequest) : Api Response := do
  let (key, token) ← transact fun d s =>
    (Server.createAPIKey cfg.keys d.env d.secret p request s.keyTables).map fun r =>
      (r.1, s.withKeyTables r.2)
  pure ⟨201, .key key token⟩

/-- `Server.rotateAPIKey`, `POST /v1/api-keys/{id}/rotate`. -/
def rotateAPIKey (id : String) : Api Response := do
  let (key, token) ← transact fun d s =>
    (Server.rotateAPIKey cfg.keys d.env d.secret p id s.keyTables).map fun r =>
      (r.1, s.withKeyTables r.2)
  pure ⟨200, .key key token⟩

/-- `Server.revokeAPIKey`, `DELETE /v1/api-keys/{id}`. -/
def revokeAPIKey (id : String) : Api Response := do
  transact fun d s => (Server.revokeAPIKey cfg.keys d.env p id s.keyTables).map fun t =>
    ((), s.withKeyTables t)
  pure ⟨204, .empty⟩

/-! ### Artifacts -/

/-- The text of an error of the manager. -/
def errorText : ManagerError → String
  | .store .notFound => "not found"
  | .store .conflict => "conflict"
  | .store .leaseLost => "lease lost"
  | .store _ => cfg.databaseText
  | .objectStore context => (cfg.objectError context).error
  | .message text => text

/-- The response to an error of `createUpload`. -/
def uploadErr : ManagerError → Refusal
  | .store .notFound => ⟨404, "task not found"⟩
  | e => ⟨422, errorText cfg e⟩

/-- The response of `handleErr` to an error of the manager. -/
def managerErr : ManagerError → Refusal
  | .store e => cfg.handleErr e
  | .objectStore context => cfg.objectError context
  | .message text => ⟨422, text⟩

/-- `Server.authorizeActiveTask`. -/
def authorizeActiveTask (taskId workerId : String) : Api Unit :=
  (query fun d s => activeTaskLeaseBelongsToWorker cfg.uuid d.env taskId p.tenantId workerId
    s.db).mapError cfg.handleErr

/-- `Server.createArtifactUpload` on the public route. -/
def createArtifactUpload (req : UploadRequest) : Api Response := do
  authorize p .developer "artifacts:write"
  let m ← artifacts cfg
  let (a, url) ← (m.createUpload p.tenantId p.userId req).mapError (uploadErr cfg)
  pure ⟨201, .signed a url⟩

/-- `Server.completeArtifactUpload` on the public route. -/
def completeArtifactUpload (id : String) : Api Response := do
  authorize p .developer "artifacts:write"
  let m ← artifacts cfg
  let a ← (m.complete p.tenantId id).mapError (managerErr cfg)
  pure ⟨200, .artifact a⟩

/-- `Server.downloadArtifact` on the public route. -/
def downloadArtifact (id : String) : Api Response := do
  authorize p .viewer "artifacts:read"
  let m ← artifacts cfg
  let (a, url) ← (m.download p.tenantId id).mapError cfg.handleErr
  pure ⟨200, .signed a url⟩

/-- `Server.createArtifactUpload` on the route of the workers. -/
def createTaskUpload (req : UploadRequest) (workerId : String) : Api Response := do
  let m ← artifacts cfg
  let taskRunId ← (done (orError ⟨400, "task_run_id and worker_id are required"⟩ req.taskRunId) :
    Api String)
  done (require ⟨400, "task_run_id and worker_id are required"⟩ (workerId ≠ ""))
  authorizeActiveTask cfg p taskRunId workerId
  let (a, url) ← (m.createUpload p.tenantId p.userId req).mapError (uploadErr cfg)
  pure ⟨201, .signed a url⟩

/-- The artifact is one of the task, by the texts of the request. -/
def isTaskArtifact (taskRunId : String) (a : Artifact) : Bool :=
  a.taskRunId.map cfg.uuid.format = some taskRunId

/-- `Server.completeArtifactUpload` on the route of the workers. -/
def completeTaskUpload (id taskRunId workerId : String) : Api Response := do
  let m ← artifacts cfg
  done (require ⟨400, "task_run_id and worker_id are required"⟩
    (workerId ≠ "" ∧ taskRunId ≠ ""))
  authorizeActiveTask cfg p taskRunId workerId
  let pending ← (select (getArtifact cfg.uuid p.tenantId id)).mapError
    fun _ => ⟨404, "artifact not found for active task"⟩
  done (require ⟨404, "artifact not found for active task"⟩
    (isTaskArtifact cfg taskRunId pending))
  let a ← (m.complete p.tenantId id).mapError (managerErr cfg)
  pure ⟨200, .artifact a⟩

/-- `Server.downloadArtifact` on the route of the workers. -/
def downloadTaskArtifact (id taskRunId workerId : String) : Api Response := do
  let m ← artifacts cfg
  done (require ⟨400, "task_run_id and worker_id are required"⟩
    (taskRunId ≠ "" ∧ workerId ≠ ""))
  authorizeActiveTask cfg p taskRunId workerId
  let (a, url) ← (m.download p.tenantId id).mapError cfg.handleErr
  pure ⟨200, .signed a url⟩

/-! ### Workers -/

/-- `Server.authorizeTask` : the id of a task of the tenant. -/
def authorizeTask (id : String) : Api ℕ := do
  (select (taskBelongsToTenant cfg.uuid id p.tenantId)).mapError cfg.handleErr
  pathId cfg id

/-- The checks before an operation of a worker on a task. -/
def workerTask (id workerId : String) : Api ℕ := do
  done (require ⟨400, "worker_id is required"⟩ (workerId ≠ ""))
  authorizeTask cfg p id

/-- `Server.lease`, `POST /internal/v1/tasks/{id}/lease`. -/
def lease (id workerId : String) : Api Response := do
  let taskId ← workerTask cfg p id workerId
  let reply ← call cfg (.leaseTask taskId workerId cfg.leaseDuration)
  pure ⟨200, .reply reply⟩

/-- `Server.start`, `POST /internal/v1/tasks/{id}/start`. -/
def start (id workerId : String) : Api Response := do
  let taskId ← workerTask cfg p id workerId
  let reply ← call cfg (.startTask taskId workerId)
  pure ⟨200, .reply reply⟩

/-- `Server.heartbeat`, `POST /internal/v1/tasks/{id}/heartbeat`. -/
def heartbeat (id workerId : String) : Api Response := do
  let taskId ← workerTask cfg p id workerId
  let reply ← call cfg (.heartbeatTask taskId workerId cfg.leaseDuration)
  pure ⟨200, .reply reply⟩

/-- The URI of a completion names an artifact of the kind, of the tenant and of the task. -/
def checkArtifact (refusal : Refusal) (kind : ArtifactKind) (taskRunId uri : String) : Api Unit :=
  select fun db =>
    match getArtifactByURI p.tenantId uri db with
    | .ok a => require refusal (a.status = .ready ∧ a.kind = kind ∧
        isTaskArtifact cfg taskRunId a = true)
    | .error _ => .error refusal

/-- `Server.complete`, `POST /internal/v1/tasks/{id}/complete`. -/
def complete (id workerId output outputArtifactUri : String) : Api Response := do
  let taskId ← workerTask cfg p id workerId
  if outputArtifactUri ≠ "" then
    let _ ← artifacts cfg
    checkArtifact cfg p ⟨403, "invalid output artifact"⟩ .output id outputArtifactUri
  let reply ← call cfg (.completeTask taskId workerId output outputArtifactUri [])
  pure ⟨200, .reply reply⟩

/-- `Server.fail`, `POST /internal/v1/tasks/{id}/fail`. -/
def fail (id workerId : String) (failure : Failure) : Api Response := do
  let taskId ← workerTask cfg p id workerId
  let reply ← call cfg (.failTask taskId workerId failure)
  pure ⟨200, .reply reply⟩

/-- `Server.workerHeartbeat`, `POST /internal/v1/workers/{id}/heartbeat`. -/
def workerHeartbeat (workerId : String) (handlers : List String) (activeTasks : ℤ)
    (metadata : String) : Api Response := do
  transact fun d s => ((RunMesh.workerHeartbeat d.env p.tenantId workerId handlers activeTasks
    metadata s.workerHeartbeats).mapError cfg.handleErr).map fun workers =>
      ((), { s with workerHeartbeats := workers })
  pure ⟨204, .empty⟩

end Api

end RunMesh
