import RunMesh.Api

/-!
# The worker service

The methods of `internal/rpc/worker.go`, on the same tables as the HTTP API. They make their
checks themselves, and not the same ones : `Complete` asks for an active lease where the HTTP
handler asks for a task of the tenant, and it takes the URI of a log.

A `Refusal` has the code of a gRPC status. Authentication is in `RunMesh.Requests`.
-/

namespace RunMesh

open Fallible Handler

namespace WorkerServer

variable (cfg : ApiConfig) (p : Principal)

/-- `rpcError` : `FailedPrecondition`, `NotFound` or `Internal`. -/
def rpcError : StoreError → Refusal
  | .leaseLost => ⟨9, "lease lost"⟩
  | .conflict => ⟨9, "conflict"⟩
  | .notFound => ⟨5, "not found"⟩
  | _ => ⟨13, "internal worker protocol error"⟩

/-- `rpcError`, of an error of the manager. -/
def managerError : ManagerError → Refusal
  | .store e => rpcError e
  | _ => ⟨13, "internal worker protocol error"⟩

/-- `Unavailable`, without a manager. -/
def artifacts : Api Manager :=
  done (orError ⟨14, "artifact storage is not configured"⟩ (cfg.storage.map cfg.manager))

/-- A transaction of the store. -/
def call (op : Op) : Api Body := do
  let reply ← (store op).mapError rpcError
  pure (.reply reply)

/-- An id of a request. -/
def requestId (id : String) : Api ℕ :=
  done ((cfg.idOf id).mapError rpcError)

/-- `authorizeTask` : the id of a task of the tenant. -/
def authorizeTask (taskRunId : String) : Api ℕ := do
  (select (taskBelongsToTenant cfg.uuid taskRunId p.tenantId)).mapError rpcError
  requestId cfg taskRunId

/-- `principalForActiveTask` : the id of a task the worker has a lease on. -/
def activeTask (taskRunId workerId : String) : Api ℕ := do
  (query fun d s => activeTaskLeaseBelongsToWorker cfg.uuid d.env taskRunId p.tenantId workerId
    s.db).mapError rpcError
  requestId cfg taskRunId

/-- `Lease`. -/
def lease (taskRunId workerId : String) : Api Body := do
  let taskId ← authorizeTask cfg p taskRunId
  call (.leaseTask taskId workerId cfg.leaseDuration)

/-- `Start`. -/
def start (taskRunId workerId : String) : Api Body := do
  let taskId ← authorizeTask cfg p taskRunId
  call (.startTask taskId workerId)

/-- `Heartbeat`. -/
def heartbeat (taskRunId workerId : String) : Api Body := do
  let taskId ← authorizeTask cfg p taskRunId
  call (.heartbeatTask taskId workerId cfg.leaseDuration)

/-- `Complete`. An output that is absent is the empty object. -/
def complete (taskRunId workerId : String) (output : Option String)
    (outputArtifactUri logArtifactUri : String) : Api Body := do
  let taskId ← activeTask cfg p taskRunId workerId
  if outputArtifactUri ≠ "" then
    let _ ← artifacts cfg
    Api.checkArtifact cfg p ⟨7, "invalid output artifact"⟩ .output taskRunId outputArtifactUri
  if logArtifactUri ≠ "" then
    Api.checkArtifact cfg p ⟨7, "invalid log artifact"⟩ .log taskRunId logArtifactUri
  call (.completeTask taskId workerId (output.getD "\x7b\x7d") outputArtifactUri [logArtifactUri])

/-- `Fail`. -/
def fail (taskRunId workerId : String) (failure : Failure) : Api Body := do
  let taskId ← authorizeTask cfg p taskRunId
  call (.failTask taskId workerId failure)

/-- `CreateArtifactUpload`. -/
def createArtifactUpload (req : UploadRequest) (taskRunId workerId : String) : Api Body := do
  let m ← artifacts cfg
  let _ ← activeTask cfg p taskRunId workerId
  let (a, url) ← (m.createUpload p.tenantId p.userId
    { req with taskRunId := some taskRunId }).mapError managerError
  pure (.signed a url)

/-- `CompleteArtifactUpload`. -/
def completeArtifactUpload (artifactId taskRunId workerId : String) : Api Body := do
  let m ← artifacts cfg
  let _ ← activeTask cfg p taskRunId workerId
  let pending ← (select (getArtifact cfg.uuid p.tenantId artifactId)).mapError
    fun _ => ⟨7, "invalid task artifact"⟩
  done (require ⟨7, "invalid task artifact"⟩ (Api.isTaskArtifact cfg taskRunId pending))
  let a ← (m.complete p.tenantId artifactId).mapError managerError
  pure (.artifact a)

/-- `GetArtifactDownload`. -/
def getArtifactDownload (artifactUri taskRunId workerId : String) : Api Body := do
  let m ← artifacts cfg
  let _ ← activeTask cfg p taskRunId workerId
  let (a, url) ← (m.download p.tenantId artifactUri).mapError rpcError
  pure (.signed a url)

end WorkerServer

end RunMesh
