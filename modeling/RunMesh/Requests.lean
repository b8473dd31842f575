import RunMesh.Rpc

/-!
# Requests

A request is a credential and an endpoint. It is authenticated first, in a transaction of its
own, which writes the time of use of an API key. Then the endpoint is served to the principal.
The verification of an OIDC token, and the users it is looked up in, are outside of the model :
such a credential is the principal it stands for.
-/

namespace RunMesh

open Fallible Handler

/-- The endpoints of the public routes. -/
inductive PublicEndpoint
  | createWorkflow (dag : DAG)
  | listWorkflows
  | getWorkflow (id : String)
  | createVersion (id : String) (dag : DAG)
  | createRun (id key input inputArtifactId : String)
  | listRuns
  | getRun (id : String)
  | cancelRun (id : String)
  | retryRun (id : String)
  | events (id : String)
  | workers
  | deadLetter
  | replay (id : String)
  | createSchedule (body : Api.ScheduleBody)
  | patchSchedule (id : String) (enabled : Option Bool) (nextExecutionAt : Option ℤ)
  | deleteSchedule (id : String)
  | listAPIKeys
  | createAPIKey (request : ApiKeyRequest)
  | rotateAPIKey (id : String)
  | revokeAPIKey (id : String)
  | createArtifactUpload (req : UploadRequest)
  | completeArtifactUpload (id : String)
  | downloadArtifact (id : String)

/-- The endpoints of the routes of the workers. -/
inductive WorkerEndpoint
  | lease (id workerId : String)
  | start (id workerId : String)
  | heartbeat (id workerId : String)
  | complete (id workerId output outputArtifactUri : String)
  | fail (id workerId : String) (failure : Failure)
  | workerHeartbeat (workerId : String) (handlers : List String) (activeTasks : ℤ)
      (metadata : String)
  | createArtifactUpload (req : UploadRequest) (workerId : String)
  | completeArtifactUpload (id taskRunId workerId : String)
  | downloadArtifact (id taskRunId workerId : String)

/-- The methods of the gRPC service. -/
inductive RpcMethod
  | lease (taskRunId workerId : String)
  | start (taskRunId workerId : String)
  | heartbeat (taskRunId workerId : String)
  | complete (taskRunId workerId : String) (output : Option String)
      (outputArtifactUri logArtifactUri : String)
  | fail (taskRunId workerId : String) (failure : Failure)
  | createArtifactUpload (req : UploadRequest) (taskRunId workerId : String)
  | completeArtifactUpload (artifactId taskRunId workerId : String)
  | getArtifactDownload (artifactUri taskRunId workerId : String)

/-- What is asked for. -/
inductive Endpoint
  | http (e : PublicEndpoint)
  | worker (e : WorkerEndpoint)
  | rpc (m : RpcMethod)

/-- What a bearer token is. -/
inductive Credential
  | development (p : Principal)
  | oidc (p : Principal)
  | apiKey (raw : String)

/-- A request. -/
structure Request where
  credential : Credential
  endpoint : Endpoint

section

variable (cfg : ApiConfig) (p : Principal)

/-- The handlers of the public routes. -/
def PublicEndpoint.handler : PublicEndpoint → Api Response
  | createWorkflow dag => Api.createWorkflow cfg p dag
  | listWorkflows => Api.listWorkflows cfg p
  | getWorkflow id => Api.getWorkflow cfg p id
  | createVersion id dag => Api.createVersion cfg p id dag
  | createRun id key input inputArtifactId => Api.createRun cfg p id key input inputArtifactId
  | listRuns => Api.listRuns p
  | getRun id => Api.getRun cfg p id
  | cancelRun id => Api.cancelRun cfg p id
  | retryRun id => Api.retryRun cfg p id
  | events id => Api.events cfg p id
  | workers => Api.workers p
  | deadLetter => Api.deadLetter p
  | replay id => Api.replay cfg p id
  | createSchedule body => Api.createSchedule cfg p body
  | patchSchedule id enabled nextExecutionAt => Api.patchSchedule cfg p id enabled nextExecutionAt
  | deleteSchedule id => Api.deleteSchedule cfg p id
  | listAPIKeys => Api.listAPIKeys p
  | createAPIKey request => Api.createAPIKey cfg p request
  | rotateAPIKey id => Api.rotateAPIKey cfg p id
  | revokeAPIKey id => Api.revokeAPIKey cfg p id
  | createArtifactUpload req => Api.createArtifactUpload cfg p req
  | completeArtifactUpload id => Api.completeArtifactUpload cfg p id
  | downloadArtifact id => Api.downloadArtifact cfg p id

/-- The handlers of the routes of the workers. -/
def WorkerEndpoint.handler : WorkerEndpoint → Api Response
  | lease id workerId => Api.lease cfg p id workerId
  | start id workerId => Api.start cfg p id workerId
  | heartbeat id workerId => Api.heartbeat cfg p id workerId
  | complete id workerId output uri => Api.complete cfg p id workerId output uri
  | fail id workerId failure => Api.fail cfg p id workerId failure
  | workerHeartbeat workerId handlers activeTasks metadata =>
    Api.workerHeartbeat cfg p workerId handlers activeTasks metadata
  | createArtifactUpload req workerId => Api.createTaskUpload cfg p req workerId
  | completeArtifactUpload id taskRunId workerId =>
    Api.completeTaskUpload cfg p id taskRunId workerId
  | downloadArtifact id taskRunId workerId => Api.downloadTaskArtifact cfg p id taskRunId workerId

/-- The methods of the gRPC service. -/
def RpcMethod.handler : RpcMethod → Api Body
  | lease taskRunId workerId => WorkerServer.lease cfg p taskRunId workerId
  | start taskRunId workerId => WorkerServer.start cfg p taskRunId workerId
  | heartbeat taskRunId workerId => WorkerServer.heartbeat cfg p taskRunId workerId
  | complete taskRunId workerId output outputUri logUri =>
    WorkerServer.complete cfg p taskRunId workerId output outputUri logUri
  | fail taskRunId workerId failure => WorkerServer.fail cfg p taskRunId workerId failure
  | createArtifactUpload req taskRunId workerId =>
    WorkerServer.createArtifactUpload cfg p req taskRunId workerId
  | completeArtifactUpload artifactId taskRunId workerId =>
    WorkerServer.completeArtifactUpload cfg p artifactId taskRunId workerId
  | getArtifactDownload uri taskRunId workerId =>
    WorkerServer.getArtifactDownload cfg p uri taskRunId workerId

/-- The code an endpoint runs for a principal. -/
def Endpoint.handler : Endpoint → Api Response
  | http e => e.handler cfg p
  | worker e => e.handler cfg p
  | rpc m => do
    let body ← m.handler cfg p
    pure ⟨0, body⟩

end

/-- `Authenticator.Authenticate`, and the key that was used. -/
def Credential.authenticate (cfg : ApiConfig) (d : Draw) (s : Backend) :
    Credential → Option Principal × Backend
  | development p => (some { p with kind := .development }, s)
  | oidc p => (some { p with kind := .oidc }, s)
  | apiKey raw =>
    match authenticateAPIKey cfg.keys d.env.now raw s.apiKeys with
    | .ok (p, keys) => (some p, { s with apiKeys := keys })
    | .error _ => (none, s)

/-- `Authenticator.AuthenticateWorker`. The time of use is written before the scope is looked
at. -/
def Credential.authenticateWorker (cfg : ApiConfig) (d : Draw) (s : Backend) :
    Credential → Option Principal × Backend
  | development p =>
    (some { p with kind := .development, scopes := ["workers:execute"] }, s)
  | c =>
    let r := c.authenticate cfg d s
    (r.1.filter fun p => p.kind = .apiKey ∧ hasScope p "workers:execute" = true, r.2)

/-- Who makes the request, and the tables after that is known. -/
def Request.authenticate (cfg : ApiConfig) (d : Draw) (s : Backend) (req : Request) :
    Option Principal × Backend :=
  match req.endpoint with
  | .http _ => req.credential.authenticate cfg d s
  | _ => req.credential.authenticateWorker cfg d s

/-- The response to a request that is not authenticated. -/
def Endpoint.unauthenticated : Endpoint → Refusal
  | http _ => ⟨401, "unauthenticated"⟩
  | worker _ => ⟨401, "invalid worker credential"⟩
  | rpc _ => ⟨16, "invalid worker credential"⟩

/-- Serve a request by itself, each transaction with the next input. -/
def Request.serve (cfg : ApiConfig) (req : Request) (inputs : ℕ → Draw) (s : Backend) :
    Except Refusal Response × Backend :=
  match req.authenticate cfg (inputs 0) s with
  | (none, s') => (.error req.endpoint.unauthenticated, s')
  | (some p, s') => (req.endpoint.handler cfg p).run (fun n => inputs (n + 1)) s'

end RunMesh
