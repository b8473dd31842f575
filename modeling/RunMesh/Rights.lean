import RunMesh.Transactions

/-!
# Rights

Who may change what ? Every transaction of a request is one of those in `Touches` : it changes
nothing, it executes one operation of the store, or it writes one other table, and each change
has a right behind it (`Right`) that the principal of the request was granted. The rights are
checked in many places, by the middleware of the public routes, by the handlers of the keys
and, for the routes of the workers, when a request is authenticated. `Endpoint.within` goes
through all of them. Besides, only one endpoint shows a run (`Endpoint.Shows`).
-/

namespace RunMesh

open Fallible Handler

variable {cfg : ApiConfig} {p : Principal} {s s' : Backend} {d : Draw}

/-! ## Rights -/

/-- What a principal has to have. -/
inductive Right
  /-- The role, or the scope of an API key. -/
  | role (role : Role) (scope : String)
  /-- The role, and no API key. -/
  | human (role : Role)
  /-- The scope of the workers. -/
  | worker
  /-- Nobody : the scheduler does it. -/
  | nobody
  deriving DecidableEq

/-- The principal has the right. -/
def Right.Grants (p : Principal) : Right → Prop
  | role r scope => requireRole r scope p = .ok ()
  | human r => requireHumanRole r p = .ok ()
  | worker => hasScope p "workers:execute" = true
  | nobody => False

/-- The right an operation of the store needs. -/
def Op.right : Op → Right
  | createWorkflow .. | createVersion .. => .role .developer "workflows:write"
  | createRun .. | cancelRun .. | retryRun .. => .role .operator "runs:execute"
  | replayDead .. => .role .operator "dead-letter:replay"
  | leaseTask .. | startTask .. | heartbeatTask .. | completeTask .. | failTask .. => .worker
  | promoteRetries | recoverExpired _ | dispatchReady _ => .nobody

/-- What a transaction of a request does to the tables, and the right it needs. -/
inductive Touches (p : Principal) (d : Draw) (s : Backend) : Backend → Prop
  | nothing : Touches p d s s
  | call {op : Op} {reply : Reply} {db : Db} (hexec : op.exec d.env s.db = .ok (reply, db))
      (hright : op.right.Grants p) : Touches p d s { s with db := db }
  | artifacts (rows : List Artifact)
      (hright : (Right.role .developer "artifacts:write").Grants p ∨ Right.worker.Grants p)
      (hkept : ∀ a ∈ s.db.artifacts, a.status = .ready → a ∈ rows) :
      Touches p d s { s with db := { s.db with artifacts := rows } }
  | schedules (rows : List Schedule)
      (hright : (Right.role .developer "schedules:write").Grants p) :
      Touches p d s { s with schedules := rows }
  | keys (t : KeyTables) (hright : (Right.human .admin).Grants p)
      (hown : Table.Confined (· = p.tenantId) ApiKey.tenantId s.apiKeys t.apiKeys) :
      Touches p d s (s.withKeyTables t)
  | heartbeats (rows : List WorkerHeartbeat) (hright : Right.worker.Grants p) :
      Touches p d s { s with workerHeartbeats := rows }

/-- The result is not the page of a run. -/
def Response.noRun (r : Response) : Prop :=
  ∀ view, r.body ≠ .run view

/-- The result is not the page of a run. -/
def Body.noRun (b : Body) : Prop :=
  ∀ view, b ≠ .run view

/-- The page of the run, with the rows that were read. -/
structure RunView.Shows (run : Run) (rows : List TaskRow)
    (attempts : List TaskAttempt) (view : RunView) : Prop where
  run : view.run = run
  tasks : List.Forall₂ (fun row task => task.1.1 = row ∧
    task.2.map Prod.fst = attempts.filter fun a => a.taskRunId = row.task.id) rows view.tasks

/-! ## Steps -/

section Steps

variable {ε α : Type}

theorem select_within (f : Db → Except ε α) : (select f).Within (Touches p) (fun _ => True) :=
  within_query fun _ _ => .nothing

theorem query_within (f : Draw → Backend → Except ε α) :
    (query f).Within (Touches p) (fun _ => True) :=
  within_query fun _ _ => .nothing

theorem store_within {op : Op} (h : op.right.Grants p) :
    (store op).Within (Touches p) (fun _ => True) := by
  refine within_transact (fun _ _ => .nothing) fun d s reply s' hok => ?_
  simp only [map_eq_ok, Prod.mk.injEq, Prod.exists] at hok
  obtain ⟨_, db, hexec, rfl, rfl⟩ := hok
  exact .call hexec h

end Steps

/-! ## The manager -/

section Manager

variable {m : Manager}

theorem createUpload_within {tenantId : ℕ} {userId : Option ℕ} {req : UploadRequest}
    (h : (Right.role .developer "artifacts:write").Grants p ∨ Right.worker.Grants p) :
    (m.createUpload tenantId userId req).Within (Touches p) (fun _ => True) := by
  refine (select_within _).bind fun u _ => ?_
  refine within_transact (fun _ _ => .nothing) fun d s r s' hok => ?_
  simp only [insertUpload, map_eq_ok, bind_eq_ok, Prod.mk.injEq, Prod.exists] at hok
  obtain ⟨_, _, db, ⟨-, -, hrow⟩, -, rfl⟩ := hok
  cases hrow
  exact .artifacts _ h fun a ha _ => List.mem_append_left _ ha

theorem complete_within {tenantId : ℕ} {id : String}
    (h : (Right.role .developer "artifacts:write").Grants p ∨ Right.worker.Grants p) :
    (m.complete tenantId id).Within (Touches p) (fun _ => True) := by
  have hfinish : ∀ a size, (Manager.finish a size).Within (Touches p) (fun _ => True) := by
    intro a size
    refine within_transact (fun _ _ => .nothing) fun d s r s' hok => ?_
    simp only [completeArtifact, map_eq_ok, mapError_eq_ok, bind_eq_ok, Prod.mk.injEq,
      Prod.exists] at hok
    obtain ⟨_, db, ⟨_, -, hrow⟩, rfl, rfl⟩ := hok
    cases hrow
    refine .artifacts _ h fun a ha hready => Table.mem_update.2 ⟨a, ha, if_neg ?_⟩
    simp [hready]
  refine (select_within _).mapError.bind fun a _ => ?_
  split_ifs
  · exact within_pure trivial
  · refine (query_within _).bind fun size _ => ?_
    split
    · exact (query_within _).bind fun _ _ => hfinish a size
    · exact hfinish a size

theorem download_within {tenantId : ℕ} {idOrURI : String} :
    (m.download tenantId idOrURI).Within (Touches p) (fun _ => True) :=
  query_within _

end Manager

/-! ## The handlers -/

namespace Api

/-- A call that answers the request. -/
theorem call_within {op : Op} {g : Reply → Response} (h : op.right.Grants p)
    (hg : ∀ reply, (g reply).noRun) :
    (call cfg op >>= fun reply => pure (g reply)).Within (Touches p) Response.noRun :=
  (store_within h).mapError.bind fun reply _ => within_pure (hg reply)

/-- A query that answers the request. -/
theorem answer_within {α : Type} {h : Api α} {g : α → Response}
    (hh : h.Within (Touches p) (fun _ => True)) (hg : ∀ a, (g a).noRun) :
    (h >>= fun a => pure (g a)).Within (Touches p) Response.noRun :=
  hh.bind fun a _ => within_pure (hg a)

theorem authorize_within {role : Role} {scope : String} {α : Type} {Q : α → Prop} {f : Unit → Api α}
    (h : (Right.role role scope).Grants p → (f ()).Within (Touches p) Q) :
    (authorize p role scope >>= f).Within (Touches p) Q :=
  within_check fun _ hgrant => h hgrant

theorem pathId_bind_within {id : String} {α : Type} {Q : α → Prop} {f : ℕ → Api α}
    (h : ∀ n, (f n).Within (Touches p) Q) : (pathId cfg id >>= f).Within (Touches p) Q :=
  within_check fun n _ => h n

theorem createVersion_within (id : String) (dag : DAG) :
    (createVersion cfg p id dag).Within (Touches p) Response.noRun := by
  refine authorize_within fun h => ?_
  dsimp only
  split
  · exact call_within h fun _ _ => by simp
  · exact within_check fun _ _ => within_error _

theorem inputArtifact_within (id : String) :
    (inputArtifact cfg id).Within (Touches p) (fun _ => True) := by
  unfold inputArtifact
  split_ifs
  · exact within_pure trivial
  · exact pathId_bind_within fun _ => within_pure trivial

theorem createRun_within (id key input inputArtifactId : String) :
    (createRun cfg p id key input inputArtifactId).Within (Touches p) Response.noRun := by
  refine authorize_within fun h => within_check fun _ _ => within_check fun _ _ => ?_
  refine (inputArtifact_within inputArtifactId).bind fun artifactId _ => ?_
  split
  · exact call_within h fun _ _ => by simp
  · exact (select_within _).mapError.bind fun _ _ => within_error _

theorem sign_within (uri : Option String) :
    (sign cfg p uri).Within (Touches p) (fun _ => True) := by
  unfold sign
  split
  · refine Within.bind (Q := fun _ => True) ?_ fun _ _ => within_pure trivial
    exact download_within.mapResult fun _ _ _ _ => trivial
  · exact within_pure trivial

theorem signAttempt_within (a : TaskAttempt) :
    (signAttempt cfg p a).Within (Touches p) (fun r => r.1 = a) :=
  (sign_within _).bind fun _ _ => (sign_within _).bind fun _ _ => within_pure rfl

/-- The rows are those that were read. -/
theorem signTask_within (attempts : List TaskAttempt) (row : TaskRow) :
    (signTask cfg p attempts row).Within (Touches p) (fun r => r.1.1 = row ∧
      r.2.map Prod.fst = attempts.filter fun a => a.taskRunId = row.task.id) := by
  refine (sign_within _).bind fun _ _ => (sign_within _).bind fun _ _ => ?_
  refine (within_forEach fun a _ => signAttempt_within a).bind fun signed hsigned => ?_
  refine within_pure ⟨rfl, ?_⟩
  rw [← List.forall₂_eq_eq_eq, List.forall₂_map_left_iff]
  exact hsigned.flip

/-- What is left of `getRun` after its queries. -/
theorem signRun_within (run : Run) (rows : List TaskRow) (attempts : List TaskAttempt) :
    (do
      let input ← sign cfg p run.inputArtifactUri
      let tasks ← forEach (signTask cfg p attempts) rows
      pure ⟨200, .run ⟨run, input, tasks⟩⟩ : Api Response).Within (Touches p)
        (fun r => ∃ view, r.body = .run view ∧ view.Shows run rows attempts) := by
  refine (sign_within _).bind fun input _ => ?_
  refine (within_forEach fun row _ => signTask_within attempts row).bind fun tasks htasks => ?_
  exact within_pure ⟨_, rfl, rfl, htasks⟩

theorem getRun_within (id : String) :
    (getRun cfg p id).Within (Touches p) (fun _ => True) := by
  refine authorize_within fun _ => (select_within _).mapError.bind fun run _ => ?_
  refine (select_within _).bind fun rows _ => (select_within _).bind fun attempts _ => ?_
  exact (signRun_within run rows attempts).mono (fun _ _ _ h => h) fun _ _ => trivial

theorem createSchedule_within (b : ScheduleBody) :
    (createSchedule cfg p b).Within (Touches p) Response.noRun := by
  refine authorize_within fun h => answer_within ?_ fun _ _ => by simp
  refine within_transact (fun _ _ => .nothing) fun d s row s' hok => ?_
  dsimp only at hok
  split at hok
  · simp only [map_eq_ok, Prod.mk.injEq, Prod.exists] at hok
    obtain ⟨_, rows, -, rfl, rfl⟩ := hok
    exact .schedules rows h
  · split at hok <;> cases hok

theorem changeSchedules_within (id : String)
    {change : (Schedule → Bool) → List Schedule → List Schedule}
    (h : (Right.role .developer "schedules:write").Grants p) :
    (changeSchedules cfg p id change).Within (Touches p) (fun _ => True) := by
  refine pathId_bind_within fun n => within_transact (fun _ _ => .nothing) fun d s u s' hok => ?_
  simp only [bind_eq_ok] at hok
  obtain ⟨-, -, hrow⟩ := hok
  cases hrow
  exact .schedules _ h

theorem createAPIKey_within (request : ApiKeyRequest) :
    (createAPIKey cfg p request).Within (Touches p) Response.noRun := by
  refine answer_within (within_transact (fun _ _ => .nothing) fun d s r s' hok => ?_)
    fun _ _ => by simp
  simp only [Server.createAPIKey, RunMesh.createAPIKey, map_eq_ok, bind_eq_ok, mapError_eq_ok,
    Prod.mk.injEq, Prod.exists] at hok
  obtain ⟨_, _, t, ⟨_, hright, -, -, -, -, -, -, tok, hash, -, k, t₁, ⟨-, -, hrow⟩, hout⟩, -,
    rfl⟩ := hok
  cases hrow
  cases hout
  exact .keys _ hright (.append (by simp))

theorem rotateAPIKey_within (id : String) :
    (rotateAPIKey cfg p id).Within (Touches p) Response.noRun := by
  refine answer_within (within_transact (fun _ _ => .nothing) fun d s r s' hok => ?_)
    fun _ _ => by simp
  simp only [Server.rotateAPIKey, RunMesh.rotateAPIKey, map_eq_ok, bind_eq_ok, mapError_eq_ok,
    Prod.mk.injEq, Prod.exists] at hok
  obtain ⟨_, _, t, ⟨_, hright, -, -, tok, hash, -, k, t₁, ⟨value, -, -, -, row, -, hrow⟩, hout⟩,
    -, rfl⟩ := hok
  cases hrow
  cases hout
  exact .keys _ hright (.update (fun _ => rfl) fun k _ hp => (of_decide_eq_true hp).2)

theorem revokeAPIKey_within (id : String) :
    (revokeAPIKey cfg p id).Within (Touches p) Response.noRun := by
  refine answer_within (within_transact (fun _ _ => .nothing) fun d s r s' hok => ?_)
    fun _ _ => by simp
  simp only [Server.revokeAPIKey, RunMesh.revokeAPIKey, map_eq_ok, bind_eq_ok, mapError_eq_ok,
    Prod.mk.injEq] at hok
  obtain ⟨t, ⟨_, hright, value, -, -, -, hout⟩, -, rfl⟩ := hok
  cases hout
  exact .keys _ hright (.update (fun _ => rfl) fun k _ hp => (of_decide_eq_true hp).2.1)

/-- The manager, and what is done with it. -/
theorem artifacts_bind_within {α : Type} {Q : α → Prop} {f : Manager → Api α}
    (h : ∀ m, (f m).Within (Touches p) Q) : (artifacts cfg >>= f).Within (Touches p) Q :=
  within_check fun m _ => h m

theorem workerTask_within (id workerId : String) :
    (workerTask cfg p id workerId).Within (Touches p) (fun _ => True) := by
  refine within_check fun _ _ => (select_within _).mapError.bind fun _ _ => ?_
  exact fun _ _ => trivial

/-- A worker's call on a task. -/
theorem workerTask_call_within {op : ℕ → Op} (id workerId : String)
    (h : ∀ taskId, (op taskId).right.Grants p) :
    (do
      let taskId ← workerTask cfg p id workerId
      let reply ← call cfg (op taskId)
      pure (⟨200, .reply reply⟩ : Response)).Within (Touches p) Response.noRun :=
  (workerTask_within id workerId).bind fun taskId _ => call_within (h taskId) fun _ _ => by simp

theorem complete_within (id workerId output uri : String) (h : Right.worker.Grants p) :
    (complete cfg p id workerId output uri).Within (Touches p) Response.noRun := by
  refine (workerTask_within id workerId).bind fun taskId _ => ?_
  dsimp only
  have hcall : (call cfg (.completeTask taskId workerId output uri []) >>= fun reply =>
      (pure ⟨200, .reply reply⟩ : Api Response)).Within (Touches p) Response.noRun :=
    call_within h fun _ _ => by simp
  split_ifs
  · exact artifacts_bind_within fun _ => (select_within _).bind fun _ _ => hcall
  · exact hcall

theorem workerHeartbeat_within (workerId : String) (handlers : List String) (activeTasks : ℤ)
    (metadata : String) (h : Right.worker.Grants p) :
    (workerHeartbeat cfg p workerId handlers activeTasks metadata).Within (Touches p)
      Response.noRun := by
  refine answer_within (within_transact (fun _ _ => .nothing) fun d s r s' hok => ?_)
    fun _ _ => by simp
  simp only [map_eq_ok, Prod.mk.injEq] at hok
  obtain ⟨rows, -, -, rfl⟩ := hok
  exact .heartbeats rows h

theorem createTaskUpload_within (req : UploadRequest) (workerId : String)
    (h : Right.worker.Grants p) :
    (createTaskUpload cfg p req workerId).Within (Touches p) Response.noRun := by
  refine artifacts_bind_within fun m => within_check fun _ _ => within_check fun _ _ => ?_
  refine (query_within _).mapError.bind fun _ _ => ?_
  exact answer_within (createUpload_within (.inr h)).mapError fun _ _ => by simp

theorem completeTaskUpload_within (id taskRunId workerId : String) (h : Right.worker.Grants p) :
    (completeTaskUpload cfg p id taskRunId workerId).Within (Touches p) Response.noRun := by
  refine artifacts_bind_within fun m => within_check fun _ _ => ?_
  refine (query_within _).mapError.bind fun _ _ => (select_within _).mapError.bind fun _ _ => ?_
  refine within_check fun _ _ => ?_
  exact answer_within (RunMesh.complete_within (.inr h)).mapError fun _ _ => by simp

theorem downloadTaskArtifact_within (id taskRunId workerId : String) :
    (downloadTaskArtifact cfg p id taskRunId workerId).Within (Touches p) Response.noRun := by
  refine artifacts_bind_within fun m => within_check fun _ _ => ?_
  refine (query_within _).mapError.bind fun _ _ => ?_
  exact answer_within download_within.mapError fun _ _ => by simp

end Api

/-! ## The worker service -/

namespace WorkerServer

theorem call_within {op : Op} (h : op.right.Grants p) :
    (call op).Within (Touches p) Body.noRun :=
  (store_within h).mapError.bind fun _ _ => within_pure fun _ => by simp

theorem authorizeTask_within (taskRunId : String) :
    (authorizeTask cfg p taskRunId).Within (Touches p) (fun _ => True) :=
  (select_within _).mapError.bind fun _ _ _ _ => trivial

theorem activeTask_within (taskRunId workerId : String) :
    (activeTask cfg p taskRunId workerId).Within (Touches p) (fun _ => True) :=
  (query_within _).mapError.bind fun _ _ _ _ => trivial

/-- A worker's call on a task. -/
theorem authorizeTask_call_within {op : ℕ → Op} (taskRunId : String)
    (h : ∀ taskId, (op taskId).right.Grants p) :
    (authorizeTask cfg p taskRunId >>= fun taskId => call (op taskId)).Within (Touches p)
      Body.noRun :=
  (authorizeTask_within taskRunId).bind fun taskId _ => call_within (h taskId)

theorem complete_within (taskRunId workerId : String) (output : Option String)
    (outputArtifactUri logArtifactUri : String) (h : Right.worker.Grants p) :
    (complete cfg p taskRunId workerId output outputArtifactUri logArtifactUri).Within (Touches p)
      Body.noRun := by
  refine (activeTask_within taskRunId workerId).bind fun taskId _ => ?_
  have hcall : (call (.completeTask taskId workerId (output.getD "\x7b\x7d") outputArtifactUri
      [logArtifactUri])).Within (Touches p) Body.noRun := call_within h
  dsimp only
  split_ifs
  · exact within_check fun _ _ => (select_within _).bind fun _ _ =>
      (select_within _).bind fun _ _ => hcall
  · exact within_check fun _ _ => (select_within _).bind fun _ _ => hcall
  · exact (select_within _).bind fun _ _ => hcall
  · exact hcall

theorem createArtifactUpload_within (req : UploadRequest) (taskRunId workerId : String)
    (h : Right.worker.Grants p) :
    (createArtifactUpload cfg p req taskRunId workerId).Within (Touches p) Body.noRun := by
  refine within_check fun m _ => (activeTask_within taskRunId workerId).bind fun _ _ => ?_
  exact (createUpload_within (.inr h)).mapError.bind fun _ _ => within_pure fun _ => by simp

theorem completeArtifactUpload_within (artifactId taskRunId workerId : String)
    (h : Right.worker.Grants p) :
    (completeArtifactUpload cfg p artifactId taskRunId workerId).Within (Touches p)
      Body.noRun := by
  refine within_check fun m _ => (activeTask_within taskRunId workerId).bind fun _ _ => ?_
  refine (select_within _).mapError.bind fun _ _ => within_check fun _ _ => ?_
  exact (RunMesh.complete_within (.inr h)).mapError.bind fun _ _ => within_pure fun _ => by simp

theorem getArtifactDownload_within (artifactUri taskRunId workerId : String) :
    (getArtifactDownload cfg p artifactUri taskRunId workerId).Within (Touches p)
      Body.noRun := by
  refine within_check fun m _ => (activeTask_within taskRunId workerId).bind fun _ _ => ?_
  exact download_within.mapError.bind fun _ _ => within_pure fun _ => by simp

end WorkerServer

/-! ## Endpoints -/

/-- What authentication has checked, before the handler runs. -/
def Endpoint.Admits (p : Principal) : Endpoint → Prop
  | http _ => True
  | worker _ | rpc _ => Right.worker.Grants p

/-- Only one endpoint shows a run. -/
def Endpoint.Shows (e : Endpoint) (r : Response) : Prop :=
  (∃ id, e = .http (.getRun id)) ∨ r.noRun

theorem PublicEndpoint.within (e : PublicEndpoint) :
    (e.handler cfg p).Within (Touches p) (Endpoint.http e).Shows := by
  have hshown : ∀ {h : Api Response}, h.Within (Touches p) Response.noRun →
      h.Within (Touches p) (Endpoint.http e).Shows := fun h =>
    h.mono (fun _ _ _ h => h) fun _ h => .inr h
  cases e with
  | createWorkflow dag =>
    exact hshown (Api.authorize_within fun h => Api.call_within h fun _ _ => by simp)
  | listWorkflows | listRuns | deadLetter =>
    exact hshown (Api.authorize_within fun _ =>
      Api.answer_within (select_within _) fun _ _ => by simp)
  | getWorkflow id =>
    exact hshown (Api.authorize_within fun _ =>
      Api.answer_within (select_within _).mapError fun _ _ => by simp)
  | createVersion id dag => exact hshown (Api.createVersion_within id dag)
  | createRun id key input inputArtifactId =>
    exact hshown (Api.createRun_within id key input inputArtifactId)
  | getRun id => exact (Api.getRun_within id).mono (fun _ _ _ h => h) fun _ _ => .inl ⟨id, rfl⟩
  | cancelRun id | retryRun id | replay id =>
    exact hshown (Api.authorize_within fun h => Api.pathId_bind_within fun _ =>
      Api.call_within h fun _ _ => by simp)
  | events id =>
    exact hshown (Api.authorize_within fun _ => (select_within _).mapError.bind fun _ _ =>
      Api.answer_within (select_within _) fun _ _ => by simp)
  | workers =>
    exact hshown (Api.authorize_within fun _ =>
      Api.answer_within (query_within _) fun _ _ => by simp)
  | createSchedule body => exact hshown (Api.createSchedule_within body)
  | patchSchedule id | deleteSchedule id =>
    exact hshown (Api.authorize_within fun h =>
      Api.answer_within (Api.changeSchedules_within id h) fun _ _ => by simp)
  | listAPIKeys =>
    exact hshown (within_check fun _ _ =>
      Api.answer_within (query_within _) fun _ _ => by simp)
  | createAPIKey request => exact hshown (Api.createAPIKey_within request)
  | rotateAPIKey id => exact hshown (Api.rotateAPIKey_within id)
  | revokeAPIKey id => exact hshown (Api.revokeAPIKey_within id)
  | createArtifactUpload req =>
    exact hshown (Api.authorize_within fun h => Api.artifacts_bind_within fun m =>
      Api.answer_within (createUpload_within (.inl h)).mapError fun _ _ => by simp)
  | completeArtifactUpload id =>
    exact hshown (Api.authorize_within fun h => Api.artifacts_bind_within fun m =>
      Api.answer_within (complete_within (.inl h)).mapError fun _ _ => by simp)
  | downloadArtifact id =>
    exact hshown (Api.authorize_within fun _ => Api.artifacts_bind_within fun m =>
      Api.answer_within download_within.mapError fun _ _ => by simp)

theorem WorkerEndpoint.within (e : WorkerEndpoint) (h : Right.worker.Grants p) :
    (e.handler cfg p).Within (Touches p) Response.noRun := by
  cases e with
  | lease id workerId | start id workerId | heartbeat id workerId | fail id workerId =>
    exact Api.workerTask_call_within id workerId fun _ => h
  | complete id workerId output uri => exact Api.complete_within id workerId output uri h
  | workerHeartbeat workerId handlers activeTasks metadata =>
    exact Api.workerHeartbeat_within workerId handlers activeTasks metadata h
  | createArtifactUpload req workerId => exact Api.createTaskUpload_within req workerId h
  | completeArtifactUpload id taskRunId workerId =>
    exact Api.completeTaskUpload_within id taskRunId workerId h
  | downloadArtifact id taskRunId workerId =>
    exact Api.downloadTaskArtifact_within id taskRunId workerId

theorem RpcMethod.within (m : RpcMethod) (h : Right.worker.Grants p) :
    (m.handler cfg p).Within (Touches p) Body.noRun := by
  cases m with
  | lease taskRunId | start taskRunId | heartbeat taskRunId | fail taskRunId =>
    exact WorkerServer.authorizeTask_call_within taskRunId fun _ => h
  | complete taskRunId workerId output outputUri logUri =>
    exact WorkerServer.complete_within taskRunId workerId output outputUri logUri h
  | createArtifactUpload req taskRunId workerId =>
    exact WorkerServer.createArtifactUpload_within req taskRunId workerId h
  | completeArtifactUpload artifactId taskRunId workerId =>
    exact WorkerServer.completeArtifactUpload_within artifactId taskRunId workerId h
  | getArtifactDownload uri taskRunId workerId =>
    exact WorkerServer.getArtifactDownload_within uri taskRunId workerId

/-- Every transaction of a request has its right. -/
theorem Endpoint.within {e : Endpoint} (h : e.Admits p) :
    (e.handler cfg p).Within (Touches p) e.Shows := by
  cases e with
  | http e => exact e.within
  | worker e => exact (e.within h).mono (fun _ _ _ h => h) fun _ h => .inr h
  | rpc m => exact (m.within h).bind fun body hbody => within_pure (.inr fun view => hbody view)

end RunMesh
