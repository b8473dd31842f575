import RunMesh.Transactions

/-!
# The contracts of the endpoints

Every handler of the API and of the worker service stays with the tenant of its principal
(`Endpoint.handler_stays`). A handler is followed transaction by transaction. What an earlier one
has found is what a later one may rely on : that a task is one of the tenant before an operation by
its id, and that a URI names an artifact of the task before it is recorded.
-/

namespace RunMesh

open Fallible Handler

variable {cfg : ApiConfig} {A : ℕ} {p : Principal} {s : Backend}

/-- The handler stays with the tenant. -/
def Stays (cfg : ApiConfig) (tenantId : ℕ) {ε α : Type} (h : Handler Draw Backend ε α) : Prop :=
  ∀ s, s.Sound cfg → h.Obeys (discipline cfg tenantId) (fun _ _ => True) s

/-! ## Steps -/

section Steps

variable {ε α β : Type}

theorem stays_pure (a : α) : Stays cfg A (pure a : Handler Draw Backend ε α) :=
  fun _ _ => obeys_pure fun _ _ _ => trivial

theorem stays_error (e : ε) : Stays cfg A (done (.error e) : Handler Draw Backend ε α) :=
  fun _ _ => obeys_error e

/-- A check, before the rest. -/
theorem stays_check {r : Except ε α} {f : α → Handler Draw Backend ε β}
    (h : ∀ a, r = .ok a → Stays cfg A (f a)) :
    Stays cfg A ((done r : Handler Draw Backend ε α) >>= f) :=
  fun s hs => obeys_check fun a ha => h a ha s hs

theorem Stays.bind {h : Handler Draw Backend ε α} {f : α → Handler Draw Backend ε β}
    (hh : Stays cfg A h) (hf : ∀ a, Stays cfg A (f a)) : Stays cfg A (h >>= f) :=
  fun s hs => (hh s hs).bind hs fun a u hu _ => hf a u hu

theorem Stays.mapError {ε' : Type} {g : ε → ε'} {h : Handler Draw Backend ε α}
    (hh : Stays cfg A h) : Stays cfg A (h.mapError g) :=
  fun s hs => (hh s hs).mapError

/-- A query of the rows of the tenant. -/
theorem stays_query {f : Draw → Backend → Except ε α}
    (hf : ∀ d s, s.Sound cfg → f d (s.view cfg A) = f d s) : Stays cfg A (query f) :=
  fun _ _ => obeys_query (fun u _ hu d _ => hf d u hu) (fun _ _ _ _ _ _ => trivial)
    fun _ _ _ _ _ => trivial

theorem stays_select {f : Db → Except ε α}
    (hf : ∀ db : Db, db.WellFormed → f (db.view A) = f db) : Stays cfg A (select f) :=
  stays_query fun _ s hs => hf s.db hs.linked.toWellFormed

theorem stays_transact {f : Draw → Backend → Except ε (α × Backend)}
    (hf : ∀ d s, s.Sound cfg → d.Fresh cfg s → (discipline cfg A).Transaction f d s) :
    Stays cfg A (transact f) :=
  fun _ _ => obeys_transact (fun u _ hu d hd => hf d u hu hd) fun _ _ _ _ _ _ _ _ _ _ => trivial

/-- A call of the tenant. -/
theorem stays_store {op : Op} (h : ∀ db, op.For db A ∧ op.Checked db) : Stays cfg A (store op) :=
  stays_transact fun _ s hs hd => store_transaction hs hd (h s.db).1 (h s.db).2

/-- A call on a task of the tenant, or with artifacts, which it is by what was found before. -/
theorem obeys_store {op : Op}
    (h : ∀ s' : Backend, s.db.Evolves s'.db → op.For s'.db A ∧ op.Checked s'.db) :
    (store op).Obeys (discipline cfg A) (fun _ _ => True) s :=
  obeys_transact (fun u hle hu _ hd => store_transaction hu hd (h u hle).1 (h u hle).2)
    fun _ _ _ _ _ _ _ _ _ _ => trivial

end Steps

namespace Api

/-- A call that answers the request. -/
theorem call_stays {op : Op} {g : Reply → Response} (h : ∀ db, op.For db A ∧ op.Checked db) :
    Stays cfg A (call cfg op >>= fun reply => pure (g reply)) :=
  (stays_store h).mapError.bind fun _ => stays_pure _

/-! ## Workflows and runs -/

theorem createWorkflow_stays (dag : DAG) : Stays cfg p.tenantId (createWorkflow cfg p dag) := by
  refine stays_check fun _ _ => ?_
  exact call_stays fun _ => ⟨rfl, trivial⟩

theorem createVersion_stays (id : String) (dag : DAG) :
    Stays cfg p.tenantId (createVersion cfg p id dag) := by
  refine stays_check fun _ _ => ?_
  split
  · exact call_stays fun _ => ⟨rfl, trivial⟩
  · exact stays_check fun _ _ => stays_error _

theorem listWorkflows_stays : Stays cfg p.tenantId (listWorkflows cfg p) := by
  refine stays_check fun _ _ => ?_
  exact (stays_select fun _ _ => by simp).bind fun _ => stays_pure _

theorem getWorkflow_stays (id : String) : Stays cfg p.tenantId (getWorkflow cfg p id) := by
  refine stays_check fun _ _ => ?_
  exact (stays_select fun _ _ => by simp).mapError.bind fun _ => stays_pure _

theorem inputArtifact_stays (id : String) : Stays cfg p.tenantId (inputArtifact cfg id) := by
  unfold inputArtifact
  split_ifs
  · exact stays_pure _
  · exact stays_check fun _ _ => stays_pure _

theorem createRun_stays (id key input inputArtifactId : String) :
    Stays cfg p.tenantId (createRun cfg p id key input inputArtifactId) := by
  refine stays_check fun _ _ => stays_check fun _ _ => stays_check fun _ _ => ?_
  refine (inputArtifact_stays inputArtifactId).bind fun artifactId => ?_
  split
  · exact call_stays fun _ => ⟨rfl, trivial⟩
  · exact (stays_select fun _ _ => by simp).mapError.bind fun _ => stays_error _

theorem listRuns_stays : Stays cfg p.tenantId (listRuns p) := by
  refine stays_check fun _ _ => ?_
  exact (stays_select fun _ _ => by simp).bind fun _ => stays_pure _

theorem cancelRun_stays (id : String) : Stays cfg p.tenantId (cancelRun cfg p id) := by
  refine stays_check fun _ _ => stays_check fun _ _ => ?_
  exact call_stays fun _ => ⟨rfl, trivial⟩

theorem retryRun_stays (id : String) : Stays cfg p.tenantId (retryRun cfg p id) := by
  refine stays_check fun _ _ => stays_check fun _ _ => ?_
  exact call_stays fun _ => ⟨rfl, trivial⟩

/-! ## Reading a run -/

theorem sign_stays (uri : Option String) : Stays cfg p.tenantId (sign cfg p uri) := by
  unfold sign
  split
  · have hdownload : ∀ (m : Manager) (uri : String),
        Stays cfg p.tenantId (m.download p.tenantId uri) := fun m uri =>
      stays_query fun _ s _ => download_view m uri
    exact Stays.bind (fun s hs => (hdownload _ _ s hs).toOption) fun _ => stays_pure _
  · exact stays_pure _

theorem signAttempt_stays (a : TaskAttempt) : Stays cfg p.tenantId (signAttempt cfg p a) :=
  (sign_stays _).bind fun _ => (sign_stays _).bind fun _ => stays_pure _

theorem signTask_stays (attempts : List TaskAttempt) (row : TaskRow) :
    Stays cfg p.tenantId (signTask cfg p attempts row) := by
  refine (sign_stays _).bind fun _ => (sign_stays _).bind fun _ => Stays.bind ?_ fun _ =>
    stays_pure _
  exact fun s hs => obeys_forEach (fun a _ => signAttempt_stays a) hs

/-- The run that is found stays a run of the tenant. -/
theorem findRun_obeys (id : String) : ((select (findRun cfg p.tenantId id)).mapError
    cfg.handleErr).Obeys (discipline cfg p.tenantId)
      (fun run s => s.db.ownsRun p.tenantId run.id = true) s := by
  refine Obeys.mapError (obeys_query (fun u _ _ _ _ => findRun_view id) ?_ ?_)
  · intro _ _ _ _ _ h
    exact findRun_ok h
  · intro _ _ _ hle h
    exact hle.ownsRun h

/-- A query of the rows of a run of the tenant. -/
theorem obeys_select_run {α : Type} {runId : ℕ} {f : Db → α}
    (hf : ∀ db : Db, db.Linked → db.ownsRun A runId = true → f (db.view A) = f db)
    (hown : s.db.ownsRun A runId = true) :
    (select fun db => .ok (f db) : Api α).Obeys (discipline cfg A)
      (fun _ s => s.db.ownsRun A runId = true) s :=
  obeys_query (fun u hle hu _ _ => congrArg Except.ok (hf u.db hu.linked (hle.ownsRun hown)))
    (fun _ _ _ hle _ _ => Db.Evolves.ownsRun hle hown) fun _ _ _ hle h => Db.Evolves.ownsRun hle h

theorem getRun_stays (id : String) : Stays cfg p.tenantId (getRun cfg p id) := by
  refine stays_check fun _ _ s hs => ?_
  refine (findRun_obeys id).bind hs fun run s hs hrun => ?_
  refine (obeys_select_run (fun _ hl hown => taskRows_view hl.toWellFormed hown) hrun).bind hs
    fun rows s hs hown => ?_
  refine (obeys_select_run (fun _ hl hown => attemptRows_view hl.toWellFormed hown) hown).bind hs
    fun attempts s hs _ => ?_
  refine Stays.bind (sign_stays _) (fun _ => Stays.bind ?_ fun _ => stays_pure _) s hs
  exact fun s hs => obeys_forEach (fun row _ => signTask_stays attempts row) hs

theorem events_stays (id : String) : Stays cfg p.tenantId (events cfg p id) := by
  refine stays_check fun _ _ s hs => ?_
  refine (findRun_obeys id).bind hs fun run s hs hrun => ?_
  refine (obeys_select_run (fun _ hl hown => runEvents_view hl hown) hrun).bind hs
    fun items s hs _ => ?_
  exact stays_pure _ s hs

theorem workers_stays : Stays cfg p.tenantId (workers p) := by
  refine stays_check fun _ _ => ?_
  refine (stays_query fun _ s _ => ?_).bind fun _ => stays_pure _
  simp [listWorkers, Backend.view, List.filter_filter]

theorem deadLetter_stays : Stays cfg p.tenantId (deadLetter p) := by
  refine stays_check fun _ _ => ?_
  exact (stays_select fun _ hw => by rw [listDead_view hw]).bind fun _ => stays_pure _

theorem replay_stays (id : String) : Stays cfg p.tenantId (replay cfg p id) := by
  refine stays_check fun _ _ => stays_check fun _ _ => ?_
  exact call_stays fun _ => ⟨rfl, trivial⟩

/-! ## Schedules and keys -/

/-- A statement that fails, whatever the tables are. -/
theorem refused_transaction {ε α : Type} {d : Draw} {f : Draw → Backend → Except ε (α × Backend)}
    (hconst : f d (s.view cfg A) = f d s) (hrefused : ∀ r, f d s ≠ .ok r) :
    (discipline cfg A).Transaction f d s where
  view := by
    change f d (s.view cfg A) = _
    rw [hconst]
    cases hf : f d s with
    | error e => rfl
    | ok r => exact absurd hf (hrefused r)
  ok a s' h := absurd h (hrefused (a, s'))

theorem createSchedule_stays (b : ScheduleBody) :
    Stays cfg p.tenantId (createSchedule cfg p b) := by
  refine stays_check fun _ _ => Stays.bind (stays_transact fun d s hs _ => ?_) fun _ => stays_pure _
  cases cfg.uuid.value b.workflowDefinitionId with
  | some id =>
    exact schedules_transaction hs createSchedule_view fun _ _ h B hB =>
      (createSchedule_confined h).filter_ne hB
  | none =>
    refine refused_transaction rfl fun r h => ?_
    dsimp only at h
    split at h <;> cases h

/-- A change of the schedules of the tenant with an id. -/
theorem changeSchedules_stays (id : String)
    {change : (Schedule → Bool) → List Schedule → List Schedule}
    (hview : ∀ named rows, (∀ row, named row = true → row.tenantId = p.tenantId) →
      change named (rows.filter fun row => row.tenantId = p.tenantId) =
        (change named rows).filter fun row => row.tenantId = p.tenantId)
    (hother : ∀ named rows, (∀ row, named row = true → row.tenantId = p.tenantId) →
      ∀ B, B ≠ p.tenantId → ((change named rows).filter fun row => row.tenantId = B) =
        rows.filter fun row => row.tenantId = B) :
    Stays cfg p.tenantId (changeSchedules cfg p id change) := by
  refine stays_check fun id _ => stays_transact fun d s hs _ => ?_
  have hnamed : ∀ row : Schedule, decide (row.id = id ∧ row.tenantId = p.tenantId) = true →
      row.tenantId = p.tenantId := fun row hp => (of_decide_eq_true hp).2
  have hany : ((s.view cfg p.tenantId).schedules.any fun row =>
      decide (row.id = id ∧ row.tenantId = p.tenantId)) = s.schedules.any fun row =>
        decide (row.id = id ∧ row.tenantId = p.tenantId) :=
    Table.any_filter_of fun row _ hp => decide_eq_true (hnamed row hp)
  have h : (discipline cfg p.tenantId).Transaction (fun (_ : Draw) (s : Backend) =>
      (do
        require (cfg.handleErr .notFound) (s.schedules.any fun row =>
          decide (row.id = id ∧ row.tenantId = p.tenantId))
        pure ((), change (fun row => decide (row.id = id ∧ row.tenantId = p.tenantId))
          s.schedules) : Except Refusal (Unit × List Schedule)).map
            fun r => (r.1, { s with schedules := r.2 })) d s := by
    refine schedules_transaction hs ?_ fun a rows h B hB => ?_
    · rw [hany]
      refine bind_eq_map_bind fun _ _ => ?_
      exact congrArg (fun rows => Except.ok ((), rows)) (hview _ _ hnamed)
    · simp only [bind_eq_ok] at h
      obtain ⟨-, -, h⟩ := h
      cases h
      exact hother _ _ hnamed B hB
  refine (congrArg (fun f => (discipline cfg p.tenantId).Transaction f d s)
    (funext fun _ => funext fun _ => ?_)).mpr h
  exact bind_eq_map_bind fun _ _ => rfl

theorem patchSchedule_stays (id : String) (enabled : Option Bool) (nextExecutionAt : Option ℤ) :
    Stays cfg p.tenantId (patchSchedule cfg p id enabled nextExecutionAt) := by
  refine stays_check fun _ _ => Stays.bind (changeSchedules_stays id ?_ ?_) fun _ => stays_pure _
  · intro named rows _
    exact update_filter fun _ => rfl
  · intro named rows hnamed B hB
    have hconfined : Table.Confined (· = p.tenantId) Schedule.tenantId rows (Table.update named
        (fun row => { row with
          enabled := enabled.getD row.enabled
          nextExecutionAt := nextExecutionAt.getD row.nextExecutionAt }) rows) :=
      .update (fun _ => rfl) fun row _ => hnamed row
    exact hconfined.filter_ne hB

theorem deleteSchedule_stays (id : String) : Stays cfg p.tenantId (deleteSchedule cfg p id) := by
  refine stays_check fun _ _ => Stays.bind (changeSchedules_stays id ?_ ?_) fun _ => stays_pure _
  · intro named rows _
    rw [List.filter_filter, List.filter_filter]
    exact List.filter_congr fun row _ => Bool.and_comm _ _
  · intro named rows hnamed B hB
    refine Table.filter_filter_of fun row _ hp => ?_
    by_contra hdeleted
    have hrow : named row = true := by simpa using hdeleted
    exact hB ((of_decide_eq_true hp).symm.trans (hnamed row hrow))

theorem listAPIKeys_stays : Stays cfg p.tenantId (listAPIKeys p) := by
  refine stays_check fun _ _ => Stays.bind (stays_query fun _ s _ => ?_) fun _ => stays_pure _
  simp [RunMesh.listAPIKeys, Backend.view, List.filter_filter]

theorem createAPIKey_stays (request : ApiKeyRequest) :
    Stays cfg p.tenantId (createAPIKey cfg p request) := by
  refine Stays.bind (stays_transact fun d s hs hd => server_createAPIKey_transaction hs hd request)
    fun kt => ?_
  exact stays_pure _

theorem rotateAPIKey_stays (id : String) : Stays cfg p.tenantId (rotateAPIKey cfg p id) := by
  refine Stays.bind (stays_transact fun d s hs hd => server_rotateAPIKey_transaction hs hd id)
    fun kt => ?_
  exact stays_pure _

theorem revokeAPIKey_stays (id : String) : Stays cfg p.tenantId (revokeAPIKey cfg p id) :=
  Stays.bind (stays_transact fun _ _ hs _ => server_revokeAPIKey_transaction hs id)
    fun _ => stays_pure _

end Api

/-! ## Artifacts -/

section Manager

variable {m : Manager}

theorem createUpload_stays (hm : m.uuid = cfg.uuid) (userId : Option ℕ) (req : UploadRequest) :
    Stays cfg A (m.createUpload A userId req) := by
  intro s hs
  have hadmit : (select (admitUpload m A userId req)).Obeys (discipline cfg A)
      (fun u _ => u.tenantId = A ∧ u.size ≤ u.kind.limit) s := by
    refine obeys_query (fun u _ hu _ _ => admitUpload_view hu.linked.toWellFormed m userId req)
      ?_ fun _ _ _ _ h => h
    intro _ _ _ _ _ h
    exact admitUpload_ok h
  refine hadmit.bind hs fun u s hs hu => ?_
  exact stays_transact (fun d s hs hd => insertUpload_transaction hs hd hm hu.1 hu.2) s hs

/-- The object of an artifact of the tenant is in the view. -/
theorem view_objects {a : Artifact} (ha : cfg.ownsObject A a.objectKey = true) :
    (s.view cfg A).objects a.objectKey = s.objects a.objectKey :=
  if_pos ha

theorem complete_stays (id : String) : Stays cfg A (m.complete A id) := by
  intro s hs
  have hget : ((select (getArtifact m.uuid A id)).mapError ManagerError.store).Obeys
      (discipline cfg A) (fun a _ => a.tenantId = A ∧ cfg.ownsObject A a.objectKey = true) s := by
    refine Obeys.mapError (obeys_query (fun _ _ _ _ _ => getArtifact_view m.uuid id) ?_
      fun _ _ _ _ h => h)
    intro _ u a _ hu h
    have htenant := tenantId_of_getArtifact h
    exact ⟨htenant, htenant ▸ (hu.objects a (mem_of_getArtifact h)).1⟩
  refine hget.bind hs fun a s hs ha => ?_
  split_ifs
  · exact stays_pure a s hs
  · have hhead : Stays cfg A (Manager.head a) := stays_query fun _ s _ => by
      simp only [headObject, view_objects ha.2]
    have hverify : ∀ checksum size, Stays cfg A (m.verify a checksum size) := fun checksum size =>
      stays_query fun _ s _ => by simp only [getObject, view_objects ha.2]
    have hfinish : ∀ size, Stays cfg A (Manager.finish a size) := fun size =>
      stays_transact fun _ s hs _ => finish_transaction hs ha.1 size
    refine hhead.bind (fun size => ?_) s hs
    split
    · exact (hverify _ size).bind fun _ => hfinish size
    · exact hfinish size

theorem download_stays (idOrURI : String) : Stays cfg A (m.download A idOrURI) :=
  stays_query fun _ _ _ => download_view m idOrURI

/-- The manager of the API. -/
theorem uuid_of_storage {e : Refusal}
    (h : orError e (cfg.storage.map cfg.manager) = .ok m) : m.uuid = cfg.uuid := by
  obtain ⟨storage, -, rfl⟩ := Option.map_eq_some_iff.1 (orError_eq_ok.1 h)
  rfl

end Manager

/-! ## Tasks of the tenant -/

/-- The task of a text is one of the tenant. -/
def OwnTask (cfg : ApiConfig) (tenantId : ℕ) (text : String) (taskId : ℕ) (s : Backend) : Prop :=
  cfg.uuid.value text = some taskId ∧ s.db.ownsTask tenantId taskId = true

theorem OwnTask.mono {s' : Backend} {text : String} {taskId : ℕ}
    (h : OwnTask cfg A text taskId s) (hle : s.db.Evolves s'.db) : OwnTask cfg A text taskId s' :=
  ⟨h.1, hle.ownsTask h.2⟩

/-- A query that finds a task of the tenant, and then its id. -/
theorem obeys_ownTask {text : String} {f : Draw → Backend → Except StoreError Unit}
    {e e' : StoreError → Refusal} (hs : s.Sound cfg)
    (hview : ∀ d s, s.Sound cfg → f d (s.view cfg A) = f d s)
    (hown : ∀ d s, f d s = .ok () →
      ∃ taskId, cfg.uuid.value text = some taskId ∧ s.db.ownsTask A taskId = true) :
    (((query f).mapError e : Api Unit) >>= fun _ =>
      done ((cfg.idOf text).mapError e')).Obeys (discipline cfg A) (OwnTask cfg A text) s := by
  have hquery : ((query f).mapError e : Api Unit).Obeys (discipline cfg A)
      (fun _ s => ∀ taskId, cfg.uuid.value text = some taskId →
        s.db.ownsTask A taskId = true) s := by
    refine Obeys.mapError (obeys_query (fun u _ hu d _ => hview d u hu) ?_ ?_)
    · intro d u _ _ _ h taskId hvalue
      obtain ⟨_, hvalue', htask⟩ := hown d u h
      rwa [Option.some.inj (hvalue.symm.trans hvalue')]
    · intro _ _ _ hle h taskId hvalue
      exact Db.Evolves.ownsTask hle (h taskId hvalue)
  refine hquery.bind hs fun _ u hu htask => ?_
  intro v hle _ taskId hid
  have hvalue : cfg.uuid.value text = some taskId :=
    orError_eq_ok.1 (mapError_eq_ok.1 hid)
  exact ⟨hvalue, Db.Evolves.ownsTask hle (htask taskId hvalue)⟩

/-- The URI of a completion is empty, or it names an artifact of the task. -/
def Recordable (kind : ArtifactKind) (taskId : ℕ) (uri : String) (db : Db) : Prop :=
  uri ≠ "" → db.NamesTaskArtifact kind taskId uri

theorem Recordable.mono {db db' : Db} {kind : ArtifactKind} {taskId : ℕ} {uri : String}
    (h : Recordable kind taskId uri db) (hev : db.Evolves db') : Recordable kind taskId uri db' :=
  fun huri => hev.namesTaskArtifact (h huri)

theorem completeTask_checked {db : Db} {taskId : ℕ} {workerId output uri : String}
    {logs : List String} (hout : Recordable .output taskId uri db)
    (hlog : Recordable .log taskId (logs.headD "") db) :
    (Op.completeTask taskId workerId output uri logs).Checked db := by
  have hnull : ∀ {kind text}, Recordable kind taskId text db → ∀ uri',
      nullIfEmpty text = some uri' → db.NamesTaskArtifact kind taskId uri' := by
    intro kind text h uri' huri
    simp only [nullIfEmpty, Option.ite_none_left_eq_some, Option.some.injEq] at huri
    exact huri.2 ▸ h huri.1
  exact ⟨hnull hout, hnull hlog⟩

namespace Api

theorem createArtifactUpload_stays (req : UploadRequest) :
    Stays cfg p.tenantId (createArtifactUpload cfg p req) := by
  refine stays_check fun _ _ => stays_check fun m hm => ?_
  exact (createUpload_stays (uuid_of_storage hm) p.userId req).mapError.bind fun _ => stays_pure _

theorem completeArtifactUpload_stays (id : String) :
    Stays cfg p.tenantId (completeArtifactUpload cfg p id) := by
  refine stays_check fun _ _ => stays_check fun m _ => ?_
  exact (complete_stays id).mapError.bind fun _ => stays_pure _

theorem downloadArtifact_stays (id : String) :
    Stays cfg p.tenantId (downloadArtifact cfg p id) := by
  refine stays_check fun _ _ => stays_check fun m _ => ?_
  exact (download_stays id).mapError.bind fun _ => stays_pure _

theorem authorizeActiveTask_stays (taskId workerId : String) :
    Stays cfg p.tenantId (authorizeActiveTask cfg p taskId workerId) :=
  (stays_query fun _ _ hs => activeTaskLeaseBelongsToWorker_view hs.linked.toWellFormed cfg.uuid
    taskId workerId).mapError

theorem createTaskUpload_stays (req : UploadRequest) (workerId : String) :
    Stays cfg p.tenantId (createTaskUpload cfg p req workerId) := by
  refine stays_check fun m hm => stays_check fun _ _ => stays_check fun _ _ => ?_
  refine (authorizeActiveTask_stays _ _).bind fun _ => ?_
  exact (createUpload_stays (uuid_of_storage hm) p.userId req).mapError.bind fun _ => stays_pure _

theorem completeTaskUpload_stays (id taskRunId workerId : String) :
    Stays cfg p.tenantId (completeTaskUpload cfg p id taskRunId workerId) := by
  refine stays_check fun m _ => stays_check fun _ _ => ?_
  refine (authorizeActiveTask_stays _ _).bind fun _ => ?_
  refine Stays.bind (Stays.mapError (stays_select fun _ _ => getArtifact_view cfg.uuid id))
    fun _ => stays_check fun _ _ => ?_
  exact (complete_stays id).mapError.bind fun _ => stays_pure _

theorem downloadTaskArtifact_stays (id taskRunId workerId : String) :
    Stays cfg p.tenantId (downloadTaskArtifact cfg p id taskRunId workerId) := by
  refine stays_check fun m _ => stays_check fun _ _ => ?_
  refine (authorizeActiveTask_stays _ _).bind fun _ => ?_
  exact (download_stays id).mapError.bind fun _ => stays_pure _

/-! ## Workers -/

theorem authorizeTask_obeys (hs : s.Sound cfg) (id : String) :
    (authorizeTask cfg p id).Obeys (discipline cfg p.tenantId)
      (OwnTask cfg p.tenantId id) s := by
  refine obeys_ownTask hs (fun _ s hs => ?_) fun _ _ h => ownsTask_of_taskBelongsToTenant h
  exact taskBelongsToTenant_view hs.linked.toWellFormed cfg.uuid id

theorem workerTask_obeys (hs : s.Sound cfg) (id workerId : String) :
    (workerTask cfg p id workerId).Obeys (discipline cfg p.tenantId)
      (OwnTask cfg p.tenantId id) s :=
  obeys_check fun _ _ => authorizeTask_obeys hs id

/-- An operation on a task of the tenant that answers the request. -/
theorem obeys_call {op : Op} {g : Reply → Response} (hs : s.Sound cfg)
    (h : ∀ s' : Backend, s.db.Evolves s'.db → op.For s'.db A ∧ op.Checked s'.db) :
    (call cfg op >>= fun reply => pure (g reply)).Obeys (discipline cfg A) (fun _ _ => True) s :=
  (obeys_store h).mapError.andThen hs

/-- A worker's call on a task. -/
theorem workerTask_call_stays {op : ℕ → Op} (id workerId : String)
    (h : ∀ taskId (db : Db), db.ownsTask p.tenantId taskId = true →
      (op taskId).For db p.tenantId ∧ (op taskId).Checked db) :
    Stays cfg p.tenantId (do
      let taskId ← workerTask cfg p id workerId
      let reply ← call cfg (op taskId)
      pure (⟨200, .reply reply⟩ : Response)) := by
  intro s hs
  refine (workerTask_obeys hs id workerId).bind hs fun taskId s hs htask => ?_
  exact obeys_call hs fun _ hle => h taskId _ (hle.ownsTask htask.2)

theorem lease_stays (id workerId : String) : Stays cfg p.tenantId (lease cfg p id workerId) :=
  workerTask_call_stays id workerId fun _ _ htask => ⟨htask, trivial⟩

theorem start_stays (id workerId : String) : Stays cfg p.tenantId (start cfg p id workerId) :=
  workerTask_call_stays id workerId fun _ _ htask => ⟨htask, trivial⟩

theorem heartbeat_stays (id workerId : String) :
    Stays cfg p.tenantId (heartbeat cfg p id workerId) :=
  workerTask_call_stays id workerId fun _ _ htask => ⟨htask, trivial⟩

theorem fail_stays (id workerId : String) (failure : Failure) :
    Stays cfg p.tenantId (fail cfg p id workerId failure) :=
  workerTask_call_stays id workerId fun _ _ htask => ⟨htask, trivial⟩

/-- The artifact that was checked is one of the task, and stays so. -/
theorem checkArtifact_obeys {refusal : Refusal} {kind : ArtifactKind} {text uri : String}
    {taskId : ℕ} (htask : OwnTask cfg p.tenantId text taskId s) :
    (checkArtifact cfg p refusal kind text uri).Obeys (discipline cfg p.tenantId)
      (fun _ s' => s.db.Evolves s'.db ∧ Recordable kind taskId uri s'.db) s := by
  refine obeys_query (fun _ _ _ _ _ => ?_) ?_ fun _ _ _ hle h =>
    ⟨h.1.trans hle, h.2.mono hle⟩
  · simp only [discipline, Backend.view, getArtifactByURI_view]
  · intro _ u _ hle hu h
    refine ⟨hle, fun _ => ?_⟩
    dsimp only at h
    split at h
    · rename_i a hget
      obtain ⟨ha, htenant, huri⟩ := getArtifactByURI_ok hget
      simp only [require_eq_ok, decide_eq_true_eq, isTaskArtifact] at h
      obtain ⟨hready, hkind, htext⟩ := h
      obtain ⟨value, hvalue, hformat⟩ := Option.map_eq_some_iff.1 htext
      have heq : value = taskId := by
        have hparsed := htask.1
        rw [← hformat, cfg.uuid.value_format] at hparsed
        exact Option.some.inj hparsed
      refine ⟨a, ha, huri, hkind, hready, heq ▸ hvalue, ?_⟩
      rw [htenant]
      exact Db.Evolves.ownsTask hle htask.2
    · cases h

theorem complete_stays (id workerId output outputArtifactUri : String) :
    Stays cfg p.tenantId (complete cfg p id workerId output outputArtifactUri) := by
  intro s hs
  refine (workerTask_obeys hs id workerId).bind hs fun taskId s hs htask => ?_
  -- the last call, in a state that comes after the checks
  have hcall : ∀ u : Backend, u.Sound cfg → s.db.Evolves u.db →
      Recordable .output taskId outputArtifactUri u.db →
      (call cfg (.completeTask taskId workerId output outputArtifactUri []) >>= fun reply =>
        (pure ⟨200, .reply reply⟩ : Api Response)).Obeys (discipline cfg p.tenantId)
          (fun _ _ => True) u := by
    intro u hu hev hout
    refine obeys_call hu fun v hle => ⟨hle.ownsTask (hev.ownsTask htask.2), ?_⟩
    exact completeTask_checked (hout.mono hle) fun h => absurd rfl h
  dsimp only
  split_ifs with huri
  · refine obeys_check fun _ _ => (checkArtifact_obeys htask).bind hs fun _ u hu hout => ?_
    exact hcall u hu hout.1 hout.2
  · exact hcall s hs (.refl _) fun h => absurd h huri

theorem workerHeartbeat_stays (workerId : String) (handlers : List String) (activeTasks : ℤ)
    (metadata : String) :
    Stays cfg p.tenantId (workerHeartbeat cfg p workerId handlers activeTasks metadata) :=
  Stays.bind (stays_transact fun _ _ hs _ => workerHeartbeat_transaction hs cfg.handleErr
    workerId handlers activeTasks metadata) fun _ => stays_pure _

end Api

/-! ## The worker service -/

namespace WorkerServer

theorem authorizeTask_obeys (hs : s.Sound cfg) (taskRunId : String) :
    (authorizeTask cfg p taskRunId).Obeys (discipline cfg p.tenantId)
      (OwnTask cfg p.tenantId taskRunId) s := by
  refine obeys_ownTask hs (fun _ s hs => ?_) fun _ _ h => ownsTask_of_taskBelongsToTenant h
  exact taskBelongsToTenant_view hs.linked.toWellFormed cfg.uuid taskRunId

theorem activeTask_obeys (hs : s.Sound cfg) (taskRunId workerId : String) :
    (activeTask cfg p taskRunId workerId).Obeys (discipline cfg p.tenantId)
      (OwnTask cfg p.tenantId taskRunId) s := by
  refine obeys_ownTask hs (fun _ s hs => ?_) fun _ _ h => ownsTask_of_activeTaskLease h
  exact activeTaskLeaseBelongsToWorker_view hs.linked.toWellFormed cfg.uuid taskRunId workerId

/-- What is done for a worker with an active lease. -/
theorem activeTask_bind_stays {β : Type} {f : ℕ → Api β} (taskRunId workerId : String)
    (hf : ∀ taskId, Stays cfg p.tenantId (f taskId)) :
    Stays cfg p.tenantId (activeTask cfg p taskRunId workerId >>= f) :=
  fun _ hs => (activeTask_obeys hs taskRunId workerId).bind hs fun taskId u hu _ => hf taskId u hu

/-- An operation on a task of the tenant. -/
theorem obeys_call {op : Op} (hs : s.Sound cfg)
    (h : ∀ s' : Backend, s.db.Evolves s'.db → op.For s'.db A ∧ op.Checked s'.db) :
    (call op).Obeys (discipline cfg A) (fun _ _ => True) s :=
  (obeys_store h).mapError.andThen hs

/-- A worker's call on a task. -/
theorem authorizeTask_call_stays {op : ℕ → Op} (taskRunId : String)
    (h : ∀ taskId (db : Db), db.ownsTask p.tenantId taskId = true →
      (op taskId).For db p.tenantId ∧ (op taskId).Checked db) :
    Stays cfg p.tenantId (authorizeTask cfg p taskRunId >>= fun taskId => call (op taskId)) := by
  intro s hs
  refine (authorizeTask_obeys hs taskRunId).bind hs fun taskId s hs htask => ?_
  exact obeys_call hs fun _ hle => h taskId _ (hle.ownsTask htask.2)

theorem lease_stays (taskRunId workerId : String) :
    Stays cfg p.tenantId (lease cfg p taskRunId workerId) :=
  authorizeTask_call_stays taskRunId fun _ _ htask => ⟨htask, trivial⟩

theorem start_stays (taskRunId workerId : String) :
    Stays cfg p.tenantId (start cfg p taskRunId workerId) :=
  authorizeTask_call_stays taskRunId fun _ _ htask => ⟨htask, trivial⟩

theorem heartbeat_stays (taskRunId workerId : String) :
    Stays cfg p.tenantId (heartbeat cfg p taskRunId workerId) :=
  authorizeTask_call_stays taskRunId fun _ _ htask => ⟨htask, trivial⟩

theorem fail_stays (taskRunId workerId : String) (failure : Failure) :
    Stays cfg p.tenantId (fail cfg p taskRunId workerId failure) :=
  authorizeTask_call_stays taskRunId fun _ _ htask => ⟨htask, trivial⟩

theorem complete_stays (taskRunId workerId : String) (output : Option String)
    (outputArtifactUri logArtifactUri : String) : Stays cfg p.tenantId
      (complete cfg p taskRunId workerId output outputArtifactUri logArtifactUri) := by
  intro s hs
  refine (activeTask_obeys hs taskRunId workerId).bind hs fun taskId s hs htask => ?_
  -- the last call, in a state that comes after both checks
  have hcall : ∀ u : Backend, u.Sound cfg → s.db.Evolves u.db →
      Recordable .output taskId outputArtifactUri u.db →
      Recordable .log taskId logArtifactUri u.db →
      (call (.completeTask taskId workerId (output.getD "\x7b\x7d") outputArtifactUri
        [logArtifactUri])).Obeys (discipline cfg p.tenantId) (fun _ _ => True) u := by
    intro u hu hev hout hlog
    refine obeys_call hu fun v hle => ⟨hle.ownsTask (hev.ownsTask htask.2), ?_⟩
    exact completeTask_checked (hout.mono hle) (hlog.mono hle)
  -- the check of the log, in a state that comes after the check of the output
  have hlog : ∀ u : Backend, u.Sound cfg → s.db.Evolves u.db →
      Recordable .output taskId outputArtifactUri u.db →
      (Api.checkArtifact cfg p ⟨7, "invalid log artifact"⟩ .log taskRunId logArtifactUri >>=
        fun _ => call (.completeTask taskId workerId (output.getD "\x7b\x7d") outputArtifactUri
          [logArtifactUri])).Obeys (discipline cfg p.tenantId) (fun _ _ => True) u := by
    intro u hu hev hout
    refine (Api.checkArtifact_obeys (htask.mono hev)).bind hu fun _ v hv hlog => ?_
    exact hcall v hv (hev.trans hlog.1) (hout.mono hlog.1) hlog.2
  dsimp only
  split_ifs with huri hloguri hloguri
  · refine obeys_check fun _ _ => (Api.checkArtifact_obeys htask).bind hs fun _ u hu hout => ?_
    exact hlog u hu hout.1 hout.2
  · refine obeys_check fun _ _ => (Api.checkArtifact_obeys htask).bind hs fun _ u hu hout => ?_
    exact hcall u hu hout.1 hout.2 fun h => absurd h hloguri
  · exact hlog s hs (.refl _) fun h => absurd h huri
  · exact hcall s hs (.refl _) (fun h => absurd h huri) fun h => absurd h hloguri

theorem createArtifactUpload_stays (req : UploadRequest) (taskRunId workerId : String) :
    Stays cfg p.tenantId (createArtifactUpload cfg p req taskRunId workerId) := by
  refine stays_check fun m hm => activeTask_bind_stays taskRunId workerId fun _ => ?_
  exact (createUpload_stays (uuid_of_storage hm) p.userId _).mapError.bind fun _ => stays_pure _

theorem completeArtifactUpload_stays (artifactId taskRunId workerId : String) :
    Stays cfg p.tenantId (completeArtifactUpload cfg p artifactId taskRunId workerId) := by
  refine stays_check fun m _ => activeTask_bind_stays taskRunId workerId fun _ => ?_
  refine Stays.bind (Stays.mapError (stays_select fun _ _ => getArtifact_view cfg.uuid artifactId))
    fun _ => stays_check fun _ _ => ?_
  exact (RunMesh.complete_stays artifactId).mapError.bind fun _ => stays_pure _

theorem getArtifactDownload_stays (artifactUri taskRunId workerId : String) :
    Stays cfg p.tenantId (getArtifactDownload cfg p artifactUri taskRunId workerId) := by
  refine stays_check fun m _ => activeTask_bind_stays taskRunId workerId fun _ => ?_
  exact (download_stays artifactUri).mapError.bind fun _ => stays_pure _

end WorkerServer

/-! ## Endpoints -/

theorem PublicEndpoint.handler_stays (e : PublicEndpoint) :
    Stays cfg p.tenantId (e.handler cfg p) := by
  cases e with
  | createWorkflow dag => exact Api.createWorkflow_stays dag
  | listWorkflows => exact Api.listWorkflows_stays
  | getWorkflow id => exact Api.getWorkflow_stays id
  | createVersion id dag => exact Api.createVersion_stays id dag
  | createRun id key input artifactId => exact Api.createRun_stays id key input artifactId
  | listRuns => exact Api.listRuns_stays
  | getRun id => exact Api.getRun_stays id
  | cancelRun id => exact Api.cancelRun_stays id
  | retryRun id => exact Api.retryRun_stays id
  | events id => exact Api.events_stays id
  | workers => exact Api.workers_stays
  | deadLetter => exact Api.deadLetter_stays
  | replay id => exact Api.replay_stays id
  | createSchedule body => exact Api.createSchedule_stays body
  | patchSchedule id enabled next => exact Api.patchSchedule_stays id enabled next
  | deleteSchedule id => exact Api.deleteSchedule_stays id
  | listAPIKeys => exact Api.listAPIKeys_stays
  | createAPIKey request => exact Api.createAPIKey_stays request
  | rotateAPIKey id => exact Api.rotateAPIKey_stays id
  | revokeAPIKey id => exact Api.revokeAPIKey_stays id
  | createArtifactUpload req => exact Api.createArtifactUpload_stays req
  | completeArtifactUpload id => exact Api.completeArtifactUpload_stays id
  | downloadArtifact id => exact Api.downloadArtifact_stays id

theorem WorkerEndpoint.handler_stays (e : WorkerEndpoint) :
    Stays cfg p.tenantId (e.handler cfg p) := by
  cases e with
  | lease id workerId => exact Api.lease_stays id workerId
  | start id workerId => exact Api.start_stays id workerId
  | heartbeat id workerId => exact Api.heartbeat_stays id workerId
  | complete id workerId output uri => exact Api.complete_stays id workerId output uri
  | fail id workerId failure => exact Api.fail_stays id workerId failure
  | workerHeartbeat workerId handlers activeTasks metadata =>
    exact Api.workerHeartbeat_stays workerId handlers activeTasks metadata
  | createArtifactUpload req workerId => exact Api.createTaskUpload_stays req workerId
  | completeArtifactUpload id taskRunId workerId =>
    exact Api.completeTaskUpload_stays id taskRunId workerId
  | downloadArtifact id taskRunId workerId =>
    exact Api.downloadTaskArtifact_stays id taskRunId workerId

theorem RpcMethod.handler_stays (m : RpcMethod) : Stays cfg p.tenantId (m.handler cfg p) := by
  cases m with
  | lease taskRunId workerId => exact WorkerServer.lease_stays taskRunId workerId
  | start taskRunId workerId => exact WorkerServer.start_stays taskRunId workerId
  | heartbeat taskRunId workerId => exact WorkerServer.heartbeat_stays taskRunId workerId
  | complete taskRunId workerId output uri logUri =>
    exact WorkerServer.complete_stays taskRunId workerId output uri logUri
  | fail taskRunId workerId failure => exact WorkerServer.fail_stays taskRunId workerId failure
  | createArtifactUpload req taskRunId workerId =>
    exact WorkerServer.createArtifactUpload_stays req taskRunId workerId
  | completeArtifactUpload artifactId taskRunId workerId =>
    exact WorkerServer.completeArtifactUpload_stays artifactId taskRunId workerId
  | getArtifactDownload uri taskRunId workerId =>
    exact WorkerServer.getArtifactDownload_stays uri taskRunId workerId

/-- Every endpoint stays with the tenant of its principal. -/
theorem Endpoint.handler_stays (e : Endpoint) : Stays cfg p.tenantId (e.handler cfg p) := by
  cases e with
  | http e => exact e.handler_stays
  | worker e => exact e.handler_stays
  | rpc m => exact Stays.bind m.handler_stays fun _ => stays_pure _

end RunMesh
