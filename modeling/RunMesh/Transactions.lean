import RunMesh.KeyLifecycle
import RunMesh.Queries
import RunMesh.References
import RunMesh.Requests

/-!
# The transactions of a tenant

The rows of a tenant, in all tables, and the objects under its prefix of the bucket are the
view of the tenant (`Backend.view`). `discipline A` is what the transactions of a request of the
tenant `A` promise. They keep the references (`Backend.Sound`), rows only evolve, what they do is a
function of the view of `A`, and the views of the other tenants stay as they are. This module proves
it of each transaction of the API. `Draw.Fresh` is what the drawn ids and secrets promise.
-/

namespace RunMesh

open Fallible Handler

variable {cfg : ApiConfig} {A B : ℕ} {s s' : Backend} {d : Draw}

/-! ## The discipline -/

/-- The object is under the prefix of the tenant. -/
def ApiConfig.ownsObject (cfg : ApiConfig) (tenantId : ℕ) (key : String) : Bool :=
  (cfg.uuid.format tenantId ++ "/").toList.isPrefixOf key.toList

/-- The rows and the objects of the tenant. -/
def Backend.view (cfg : ApiConfig) (tenantId : ℕ) (s : Backend) : Backend where
  db := s.db.view tenantId
  schedules := s.schedules.filter fun row => row.tenantId = tenantId
  apiKeys := s.apiKeys.filter fun k => k.tenantId = tenantId
  workerHeartbeats := s.workerHeartbeats.filter fun w => w.tenantId = tenantId
  objects key := if cfg.ownsObject tenantId key then s.objects key else none

/-- The text is a path that ends in the id. -/
def ApiConfig.EndsIn (cfg : ApiConfig) (id : ℕ) (text : String) : Prop :=
  ∃ path, text = path ++ "/" ++ cfg.uuid.format id

/-- The tables agree with each other. -/
structure Backend.Sound (cfg : ApiConfig) (s : Backend) : Prop where
  linked : s.db.Linked
  references : s.db.References
  objects : ∀ a ∈ s.db.artifacts, cfg.ownsObject a.tenantId a.objectKey = true ∧
    cfg.EndsIn a.id a.objectKey ∧ cfg.EndsIn a.id a.objectUri
  keys : (s.apiKeys.map ApiKey.id).Nodup

/-- The ids are new, and so is the hash of a token with the secret. -/
structure Draw.Fresh (cfg : ApiConfig) (d : Draw) (s : Backend) : Prop where
  rows : s.db.Fresh d.env
  artifacts : ∀ a ∈ s.db.artifacts, a.id ≠ d.env.uuid 0
  keys : ∀ k ∈ s.apiKeys, k.id ≠ d.env.uuid 0 ∧
    ∀ text, k.keyHash ≠ hashAPIKey cfg.keys ("rm_" ++ text ++ "_" ++ d.secret.text)

/-- What a request of the tenant promises. -/
def discipline (cfg : ApiConfig) (tenantId : ℕ) : Discipline Draw Backend where
  inv := Backend.Sound cfg
  le s s' := s.db.Evolves s'.db
  le_refl s := .refl s.db
  le_trans := Db.Evolves.trans
  fresh := Draw.Fresh cfg
  view := Backend.view cfg tenantId
  keep s s' := ∀ B, B ≠ tenantId → s'.view cfg B = s.view cfg B
  keep_refl _ _ _ := rfl
  keep_trans h h' B hB := (h' B hB).trans (h B hB)

/-- The view of another tenant, table by table. -/
theorem Backend.view_congr (hdb : s'.db.view B = s.db.view B)
    (hschedules : (s'.schedules.filter fun row => row.tenantId = B) =
      s.schedules.filter fun row => row.tenantId = B)
    (hkeys : (s'.apiKeys.filter fun k => k.tenantId = B) =
      s.apiKeys.filter fun k => k.tenantId = B)
    (hworkers : (s'.workerHeartbeats.filter fun w => w.tenantId = B) =
      s.workerHeartbeats.filter fun w => w.tenantId = B)
    (hobjects : s'.objects = s.objects) : s'.view cfg B = s.view cfg B := by
  simp only [Backend.view, hdb, hschedules, hkeys, hworkers, hobjects]

/-! ## Calls of the store -/

theorem Db.Linked.of_eq {db db' : Db} (hl : db.Linked)
    (hdefs : db'.workflowDefinitions = db.workflowDefinitions)
    (hruns : db'.workflowRuns = db.workflowRuns) (htasks : db'.taskRuns = db.taskRuns)
    (hdeps : db'.taskDependencies = db.taskDependencies)
    (hattempts : db'.taskAttempts = db.taskAttempts)
    (hevents : db'.outboxEvents = db.outboxEvents)
    (hartifacts : (db'.artifacts.map Artifact.id).Nodup) : db'.Linked := by
  cases db
  cases db'
  dsimp only at hdefs hruns htasks hdeps hattempts hevents
  subst hdefs hruns htasks hdeps hattempts hevents
  exact ⟨⟨⟨hl.runs, hl.tasks⟩, hl.runOf, hl.nonempty, hl.edge, hl.acyclic, hl.accepted,
    hl.opened⟩, hl.attempt, hl.event, hl.about, hl.apart, hartifacts⟩

/-- A call of the store keeps the tables in order. -/
theorem Backend.Sound.exec (hs : s.Sound cfg) {env : Env} {op : Op} (hf : s.db.Fresh env)
    (hchecked : op.Checked s.db) {reply : Reply} {db' : Db}
    (h : op.exec env s.db = .ok (reply, db')) : ({ s with db := db' } : Backend).Sound cfg where
  linked := exec_linked hs.linked hf h
  references := exec_references hs.linked hs.references hchecked h
  objects a' ha' := by
    obtain ⟨f, hrows, hf⟩ := exec_artifacts h
    obtain ⟨a, ha, rfl⟩ := List.mem_map.1 (hrows ▸ ha')
    rw [hf a]
    exact hs.objects a ha
  keys := hs.keys

theorem store_transaction (hs : s.Sound cfg) (hd : d.Fresh cfg s) {op : Op}
    (hfor : op.For s.db A) (hchecked : op.Checked s.db) :
    (discipline cfg A).Transaction
      (fun d s => (op.exec d.env s.db).map fun r => (r.1, { s with db := r.2 })) d s where
  view := by
    change (op.exec d.env (s.db.view A)).map _ = _
    rw [exec_view hs.linked hd.rows hfor, map_map, map_map]
    rfl
  ok reply s' h := by
    simp only [map_eq_ok, Prod.mk.injEq] at h
    obtain ⟨⟨reply, db'⟩, hop, -, rfl⟩ := h
    refine ⟨hs.exec hd.rows hchecked hop, exec_evolves hs.linked.toKeyed hop, fun B hB => ?_⟩
    exact Backend.view_congr (exec_view_ne hs.linked hd.rows hfor hB hop) rfl rfl rfl rfl

/-! ## Uploads -/

section Uploads

variable {m : Manager} {u : AdmittedUpload}

theorem ownsObject_objectKey (hm : m.uuid = cfg.uuid) (id : ℕ) :
    cfg.ownsObject u.tenantId (objectKey m u id) = true := by
  simp [ApiConfig.ownsObject, objectKey, hm]

theorem endsIn_newArtifact (hm : m.uuid = cfg.uuid) (env : Env) :
    cfg.EndsIn (newArtifact m env u).id (newArtifact m env u).objectKey ∧
      cfg.EndsIn (newArtifact m env u).id (newArtifact m env u).objectUri := by
  refine ⟨⟨m.uuid.format u.tenantId ++ "/" ++ u.kind.text, ?_⟩,
    ⟨"s3://" ++ m.bucket ++ "/" ++ m.uuid.format u.tenantId ++ "/" ++ u.kind.text, ?_⟩⟩
  · simp [newArtifact, objectKey, hm]
  · simp [newArtifact, objectKey, hm, String.append_assoc]

/-- A path ends in one id. -/
theorem ApiConfig.EndsIn.unique {i j : ℕ} {text : String} (hi : cfg.EndsIn i text)
    (hj : cfg.EndsIn j text) : i = j := by
  have hslash : ∀ id, '/' ∉ (cfg.uuid.format id).toList := fun id =>
    cfg.uuid.slash_notMem _ id (cfg.uuid.value_format id)
  -- the id is what stands after the last slash
  have hlast : ∀ {id}, cfg.EndsIn id text →
      text.toList.reverse.takeWhile (· ≠ '/') = (cfg.uuid.format id).toList.reverse := by
    rintro id ⟨path, rfl⟩
    have hall : ∀ c ∈ (cfg.uuid.format id).toList.reverse, decide (c ≠ '/') = true := by
      intro c hc
      refine decide_eq_true fun heq => hslash id ?_
      exact heq ▸ List.mem_reverse.1 hc
    rw [String.toList_append, String.toList_append, List.reverse_append,
      List.takeWhile_append_of_pos hall]
    simp
  have heq : cfg.uuid.format i = cfg.uuid.format j :=
    String.toList_injective (List.reverse_injective ((hlast hi).symm.trans (hlast hj)))
  have hvalue := congrArg cfg.uuid.value heq
  rwa [cfg.uuid.value_format, cfg.uuid.value_format, Option.some.injEq] at hvalue

/-- The key, the URI and the id of a new artifact are new. -/
theorem insertUpload_free (hs : s.Sound cfg) (hd : d.Fresh cfg s) (hm : m.uuid = cfg.uuid)
    {a : Artifact} (ha : a ∈ s.db.artifacts) : a.id ≠ (newArtifact m d.env u).id ∧
      a.objectKey ≠ (newArtifact m d.env u).objectKey ∧
      a.objectUri ≠ (newArtifact m d.env u).objectUri := by
  have hid := hd.artifacts a ha
  obtain ⟨-, hkey, huri⟩ := hs.objects a ha
  obtain ⟨hkey', huri'⟩ := endsIn_newArtifact (u := u) hm d.env
  exact ⟨hid, fun heq => hid (hkey.unique (heq ▸ hkey')),
    fun heq => hid (huri.unique (heq ▸ huri'))⟩

/-- An upload is inserted, whatever other artifacts are looked at. -/
theorem insertUpload_eq (hs : s.Sound cfg) (hd : d.Fresh cfg s) (hm : m.uuid = cfg.uuid) {db : Db}
    (hsub : db.artifacts ⊆ s.db.artifacts) : insertUpload m d.env u db =
      .ok ((newArtifact m d.env u, ⟨(newArtifact m d.env u).objectKey, d.env.now + m.expiry⟩),
        { db with artifacts := db.artifacts ++ [newArtifact m d.env u] }) := by
  have hfree : (db.artifacts.all fun b => b.id ≠ (newArtifact m d.env u).id ∧
      b.objectKey ≠ (newArtifact m d.env u).objectKey ∧
      b.objectUri ≠ (newArtifact m d.env u).objectUri) = true :=
    List.all_eq_true.2 fun b hb => decide_eq_true (insertUpload_free hs hd hm (hsub hb))
  simp only [insertUpload, hfree]
  rfl

theorem insertUpload_transaction (hs : s.Sound cfg) (hd : d.Fresh cfg s) (hm : m.uuid = cfg.uuid)
    (hA : u.tenantId = A) (hlimit : u.size ≤ u.kind.limit) :
    (discipline cfg A).Transaction
      (fun d s => (insertUpload m d.env u s.db).map fun r => (r.1, { s with db := r.2 })) d s where
  view := by
    have hrows : (s.db.view A).artifacts ++ [newArtifact m d.env u] =
        (s.db.artifacts ++ [newArtifact m d.env u]).filter fun a => a.tenantId = A := by
      simp [Db.view, Db.only, newArtifact, hA]
    change (insertUpload m d.env u (s.db.view A)).map _ =
      ((insertUpload m d.env u s.db).map _).map _
    rw [insertUpload_eq hs hd hm (List.filter_subset_self _),
      insertUpload_eq hs hd hm (List.Subset.refl _)]
    exact congrArg (fun as => Except.ok (_, ({ s.view cfg A with
      db := { s.db.view A with artifacts := as } } : Backend))) hrows
  ok r s' h := by
    simp only [map_eq_ok, Prod.mk.injEq] at h
    obtain ⟨⟨r, db'⟩, hins, -, rfl⟩ := h
    have hev := insertUpload_evolves hins
    have href := insertUpload_references hs.references hlimit hins
    rw [insertUpload_eq hs hd hm (List.Subset.refl _)] at hins
    cases hins
    refine ⟨⟨hs.linked.of_eq rfl rfl rfl rfl rfl rfl ?_, href, fun a ha => ?_, hs.keys⟩, hev,
      fun B hB => Backend.view_congr ?_ rfl rfl rfl rfl⟩
    · rw [List.map_append, List.nodup_append]
      refine ⟨hs.linked.artifacts, by simp, ?_⟩
      rintro _ hold _ hnew rfl
      obtain ⟨b, hb, hbid⟩ := List.mem_map.1 hold
      rw [List.map_singleton, List.mem_singleton] at hnew
      exact hd.artifacts b hb (hbid.trans hnew)
    · rcases List.mem_append.1 ha with ha | ha
      · exact hs.objects a ha
      · rw [List.mem_singleton.1 ha]
        exact ⟨ownsObject_objectKey hm _, endsIn_newArtifact hm d.env⟩
    · have hconfined : Table.Confined (· = A) Artifact.tenantId s.db.artifacts
          (s.db.artifacts ++ [newArtifact m d.env u]) :=
        .append fun a ha => by rw [List.mem_singleton.1 ha]; exact hA
      exact congrArg (fun as => ({ s.db.view B with artifacts := as } : Db))
        (hconfined.filter_ne hB)

/-- The end of an upload of the tenant. -/
theorem completeArtifact_view {env : Env} {db : Db} (id size : ℕ) :
    completeArtifact env A id size (db.view A) =
      (completeArtifact env A id size db).map fun r => (r.1, r.2.view A) := by
  have hrows : ∀ f : Artifact → Artifact, Table.returning (fun a => decide (a.id = id ∧
      a.tenantId = A ∧ a.status = .pending ∧ a.declaredSize = size)) f (db.view A).artifacts =
      Table.returning (fun a => decide (a.id = id ∧ a.tenantId = A ∧ a.status = .pending ∧
        a.declaredSize = size)) f db.artifacts :=
    Table.returning_filter_of fun a _ hp => decide_eq_true (of_decide_eq_true hp).2.1
  simp only [completeArtifact, hrows]
  refine bind_eq_map_bind fun a _ => ?_
  refine congrArg (fun as => Except.ok (a, ({ db.view A with artifacts := as } : Db))) ?_
  exact update_filter fun _ => rfl

theorem finish_transaction (hs : s.Sound cfg) {a : Artifact} (hA : a.tenantId = A) (size : ℕ) :
    (discipline cfg A).Transaction
      (fun d s => ((completeArtifact d.env a.tenantId a.id size s.db).mapError
        ManagerError.store).map fun r => (r.1, { s with db := r.2 })) d s where
  view := by
    obtain rfl := hA
    change ((completeArtifact d.env a.tenantId a.id size (s.db.view a.tenantId)).mapError _).map _
      = _
    rw [completeArtifact_view]
    cases completeArtifact d.env a.tenantId a.id size s.db <;> rfl
  ok r s' h := by
    simp only [map_eq_ok, mapError_eq_ok, Prod.mk.injEq] at h
    obtain ⟨⟨r, db'⟩, hok, -, rfl⟩ := h
    have hev := completeArtifact_evolves hok
    have href := completeArtifact_references hs.references hok
    simp only [completeArtifact, bind_eq_ok] at hok
    obtain ⟨_, -, hok⟩ := hok
    cases hok
    refine ⟨⟨hs.linked.of_eq rfl rfl rfl rfl rfl rfl ?_, href, fun b hb => ?_, hs.keys⟩, hev,
      fun B hB => Backend.view_congr ?_ rfl rfl rfl rfl⟩
    · refine (congrArg List.Nodup (Table.map_update (f := readyRow d.env size) ?_ _)).mpr
        hs.linked.artifacts
      exact fun _ => rfl
    · obtain ⟨c, hc, rfl⟩ := Table.mem_update.1 hb
      split_ifs <;> exact hs.objects c hc
    · have hconfined : Table.Confined (· = A) Artifact.tenantId s.db.artifacts
          (Table.update (fun b => decide (b.id = a.id ∧ b.tenantId = a.tenantId ∧
            b.status = .pending ∧ b.declaredSize = size)) (readyRow d.env size)
              s.db.artifacts) :=
        .update (fun _ => rfl) fun b _ hp => (of_decide_eq_true hp).2.1.trans hA
      exact congrArg (fun as => ({ s.db.view B with artifacts := as } : Db))
        (hconfined.filter_ne hB)

end Uploads

/-! ## Schedules and workers -/

theorem schedules_transaction {α : Type} {f : Draw → Backend → Except Refusal (α × List Schedule)}
    (hs : s.Sound cfg)
    (hview : f d (s.view cfg A) = (f d s).map
      fun r => (r.1, r.2.filter fun row => row.tenantId = A))
    (hok : ∀ a rows, f d s = .ok (a, rows) → ∀ B, B ≠ A →
      (rows.filter fun row => row.tenantId = B) = s.schedules.filter fun row => row.tenantId = B) :
    (discipline cfg A).Transaction
      (fun d s => (f d s).map fun r => (r.1, { s with schedules := r.2 })) d s where
  view := by
    change (f d (s.view cfg A)).map _ = _
    rw [hview, map_map, map_map]
    rfl
  ok a s' h := by
    simp only [map_eq_ok, Prod.mk.injEq] at h
    obtain ⟨⟨a, rows⟩, hf, -, rfl⟩ := h
    exact ⟨⟨hs.linked, hs.references, hs.objects, hs.keys⟩, .refl _,
      fun B hB => Backend.view_congr rfl (hok a rows hf B hB) rfl rfl rfl⟩

section Schedules

variable {cal : Calendar} {env : Env} {req : ScheduleRequest} {db : Db}
    {schedules : List Schedule}

theorem createSchedule_view :
    createSchedule cal env A req (db.view A) (schedules.filter fun row => row.tenantId = A) =
      (createSchedule cal env A req db schedules).map
        fun r => (r.1, r.2.filter fun row => row.tenantId = A) := by
  have hdef : (db.view A).workflowDefinitions.find?
      (fun d => d.id = req.workflowDefinitionId ∧ d.tenantId = A) = db.workflowDefinitions.find?
        (fun d => d.id = req.workflowDefinitionId ∧ d.tenantId = A) :=
    Table.find?_filter_of fun d _ hp => decide_eq_true (of_decide_eq_true hp).2
  simp only [createSchedule, hdef]
  refine bind_eq_map_bind fun _ _ => bind_eq_map_bind fun _ _ => bind_eq_map_bind fun _ _ =>
    bind_eq_map_bind fun _ _ => ?_
  refine congrArg (fun rows => Except.ok (_, rows)) ?_
  simp

theorem createSchedule_confined {row : Schedule} {rows : List Schedule}
    (h : createSchedule cal env A req db schedules = .ok (row, rows)) :
    Table.Confined (· = A) Schedule.tenantId schedules rows := by
  simp only [createSchedule, bind_eq_ok] at h
  obtain ⟨_, -, _, -, _, -, _, -, h⟩ := h
  cases h
  exact .append (by simp)

end Schedules

/-- `Store.WorkerHeartbeat` among the rows of the tenant. -/
theorem workerHeartbeat_view {env : Env} {workerId : String} {handlers : List String}
    {activeTasks : ℤ} {metadata : String} {workers : List WorkerHeartbeat} :
    workerHeartbeat env A workerId handlers activeTasks metadata
        (workers.filter fun w => w.tenantId = A) =
      (workerHeartbeat env A workerId handlers activeTasks metadata workers).map
        (·.filter fun w => w.tenantId = A) := by
  have hany : ((workers.filter fun w => w.tenantId = A).any fun w =>
      decide (w.tenantId = A ∧ w.workerId = workerId)) = workers.any fun w =>
        decide (w.tenantId = A ∧ w.workerId = workerId) :=
    Table.any_filter_of fun w _ hp => decide_eq_true (of_decide_eq_true hp).1
  simp only [workerHeartbeat, hany]
  generalize (if metadata = "" then "\x7b\x7d" else metadata) = metadata
  refine bind_eq_map_bind fun _ _ => ?_
  split_ifs
  · refine congrArg Except.ok (map_filter_eq fun w _ => ?_)
    split_ifs with hp
    · simp [(of_decide_eq_true hp).1]
    · rfl
  · exact congrArg Except.ok (by simp)

theorem workerHeartbeat_confined {env : Env} {workerId : String} {handlers : List String}
    {activeTasks : ℤ} {metadata : String} {workers rows : List WorkerHeartbeat}
    (h : workerHeartbeat env A workerId handlers activeTasks metadata workers = .ok rows) :
    Table.Confined (· = A) WorkerHeartbeat.tenantId workers rows := by
  simp only [workerHeartbeat, bind_eq_ok] at h
  generalize (if metadata = "" then "\x7b\x7d" else metadata) = metadata at h
  obtain ⟨-, -, h⟩ := h
  split_ifs at h
  · cases h
    refine .map (fun w _ => ?_) fun w _ => ?_
    · split_ifs with hp
      · exact (of_decide_eq_true hp).1.symm
      · rfl
    · split_ifs with hp
      · exact Or.inr (of_decide_eq_true hp).1
      · exact Or.inl rfl
  · cases h
    exact .append (by simp)

theorem workerHeartbeat_transaction (hs : s.Sound cfg) (e : StoreError → Refusal)
    (workerId : String) (handlers : List String) (activeTasks : ℤ) (metadata : String) :
    (discipline cfg A).Transaction
      (fun d s => ((workerHeartbeat d.env A workerId handlers activeTasks metadata
        s.workerHeartbeats).mapError e).map
          fun workers => ((), { s with workerHeartbeats := workers })) d s where
  view := by
    change ((workerHeartbeat d.env A workerId handlers activeTasks metadata
      (s.workerHeartbeats.filter fun w => w.tenantId = A)).mapError e).map _ = _
    rw [workerHeartbeat_view, mapError_map, map_map, map_map]
    rfl
  ok a s' h := by
    simp only [map_eq_ok, mapError_eq_ok, Prod.mk.injEq] at h
    obtain ⟨workers, hok, -, rfl⟩ := h
    exact ⟨⟨hs.linked, hs.references, hs.objects, hs.keys⟩, .refl _, fun B hB =>
      Backend.view_congr rfl rfl rfl ((workerHeartbeat_confined hok).filter_ne hB) rfl⟩

/-! ## API keys -/

/-- The keys of the tenant, and what was audited for it. -/
def KeyTables.view (tenantId : ℕ) (t : KeyTables) : KeyTables :=
  ⟨t.apiKeys.filter fun k => k.tenantId = tenantId,
    t.auditEvents.filter fun a => a.tenantId = tenantId⟩

theorem keys_transaction {α : Type} {f : Draw → KeyTables → Except Refusal (α × KeyTables)}
    (hs : s.Sound cfg)
    (hview : f d (s.keyTables.view A) = (f d s.keyTables).map fun r => (r.1, r.2.view A))
    (hok : ∀ a t, f d s.keyTables = .ok (a, t) → (t.apiKeys.map ApiKey.id).Nodup ∧
      Table.Confined (· = A) ApiKey.tenantId s.apiKeys t.apiKeys ∧
      Table.Confined (· = A) AuditEvent.tenantId s.db.auditEvents t.auditEvents) :
    (discipline cfg A).Transaction
      (fun d s => (f d s.keyTables).map fun r => (r.1, s.withKeyTables r.2)) d s where
  view := by
    change (f d (s.keyTables.view A)).map _ = _
    rw [hview, map_map, map_map]
    rfl
  ok a s' h := by
    simp only [map_eq_ok, Prod.mk.injEq] at h
    obtain ⟨⟨a, t⟩, hf, -, rfl⟩ := h
    obtain ⟨hnodup, hkeys, haudits⟩ := hok a t hf
    have hev : s.db.Evolves (s.withKeyTables t).db :=
      .of_artifacts rfl rfl fun a ha => ⟨a, ha, .refl a⟩
    refine ⟨⟨hs.linked.of_eq rfl rfl rfl rfl rfl rfl hs.linked.artifacts, ?_, hs.objects, hnodup⟩,
      hev, fun B hB => Backend.view_congr ?_ rfl (hkeys.filter_ne hB) rfl rfl⟩
    · exact hs.references.of_evolves hev rfl rfl rfl hs.references.uris hs.references.limit
        hs.references.size
    · exact congrArg (fun as => ({ s.db.view B with auditEvents := as } : Db))
        (haudits.filter_ne hB)

section Keys

variable {env : Env} {user : Option ℕ} {t : KeyTables} {hash : String}

theorem createAPIKey_view {id : ℕ} {name : String} {scopes : List String} {expiresAt : Option ℤ}
    (hfree : ∀ k ∈ t.apiKeys, k.id ≠ id ∧ k.keyHash ≠ hash) :
    createAPIKey env id A user name scopes expiresAt hash (t.view A) =
      (createAPIKey env id A user name scopes expiresAt hash t).map
        fun r => (r.1, r.2.view A) := by
  have hall : ∀ keys ⊆ t.apiKeys, (keys.all fun k => k.id ≠ id ∧ k.keyHash ≠ hash) = true :=
    fun keys hkeys => List.all_eq_true.2 fun k hk => decide_eq_true (hfree k (hkeys hk))
  simp only [createAPIKey, hall _ (List.filter_subset_self _), hall _ (List.Subset.refl _),
    KeyTables.view]
  refine bind_eq_map_bind fun _ _ => congrArg (fun t => Except.ok (_, t)) ?_
  simp [Except.toOption]

theorem rotateAPIKey_view {kc : KeyConfig} {idText : String}
    (hfree : ∀ k ∈ t.apiKeys, k.keyHash ≠ hash) :
    rotateAPIKey kc env idText A user hash (t.view A) =
      (rotateAPIKey kc env idText A user hash t).map fun r => (r.1, r.2.view A) := by
  simp only [rotateAPIKey]
  refine bind_eq_map_bind fun id _ => ?_
  have hnone : ∀ keys ⊆ t.apiKeys, (keys.any fun k => k.id ≠ id ∧ k.keyHash = hash) = false := by
    intro keys hkeys
    refine List.any_eq_false.2 fun k hk hp => ?_
    exact hfree k (hkeys hk) (of_decide_eq_true hp).2
  have hrows : ∀ f : ApiKey → ApiKey, Table.returning
      (fun k => decide (k.id = id ∧ k.tenantId = A)) f (t.view A).apiKeys =
      Table.returning (fun k => decide (k.id = id ∧ k.tenantId = A)) f t.apiKeys :=
    Table.returning_filter_of fun k _ hp => decide_eq_true (of_decide_eq_true hp).2
  simp only [hnone _ (List.Subset.refl _), hnone (t.view A).apiKeys (List.filter_subset_self _),
    hrows, Bool.false_eq_true, and_false, not_false_eq_true]
  refine bind_eq_map_bind fun _ _ => bind_eq_map_bind fun key _ => ?_
  refine congrArg (fun t => Except.ok (key, t)) (congrArg₂ KeyTables.mk ?_ ?_)
  · exact update_filter fun _ => rfl
  · exact (filter_audit rfl _ _ _).symm

theorem revokeAPIKey_view {kc : KeyConfig} {idText : String} :
    revokeAPIKey kc env idText A user (t.view A) =
      (revokeAPIKey kc env idText A user t).map (KeyTables.view A) := by
  simp only [revokeAPIKey]
  refine bind_eq_map_bind fun id _ => ?_
  have hlive : ((t.view A).apiKeys.any fun k =>
      decide (k.id = id ∧ k.tenantId = A ∧ k.revokedAt = none)) = t.apiKeys.any fun k =>
        decide (k.id = id ∧ k.tenantId = A ∧ k.revokedAt = none) :=
    Table.any_filter_of fun k _ hp => decide_eq_true (of_decide_eq_true hp).2.1
  rw [hlive]
  refine bind_eq_map_bind fun _ _ => congrArg Except.ok (congrArg₂ KeyTables.mk ?_ ?_)
  · exact update_filter fun _ => rfl
  · exact (filter_audit rfl _ _ _).symm

variable {p : Principal}

theorem server_createAPIKey_transaction (hs : s.Sound cfg) (hd : d.Fresh cfg s)
    (request : ApiKeyRequest) : (discipline cfg p.tenantId).Transaction
      (fun d s => (Server.createAPIKey cfg.keys d.env d.secret p request s.keyTables).map
        fun r => (r.1, s.withKeyTables r.2)) d s := by
  refine keys_transaction hs ?_ fun a t h => ?_
  · simp only [Server.createAPIKey]
    refine bind_eq_map_bind fun _ _ => bind_eq_map_bind fun _ _ => bind_eq_map_bind fun _ _ =>
      bind_eq_map_bind fun _ _ => bind_eq_map_bind fun th hth => ?_
    obtain ⟨token, hash⟩ := th
    have hfree : ∀ k ∈ s.keyTables.apiKeys, k.id ≠ d.env.uuid 0 ∧ k.keyHash ≠ hash := by
      intro k hk
      obtain ⟨hid, hhash⟩ := hd.keys k hk
      simp only [orError_eq_ok, generateAPIKeyForID, Option.ite_none_right_eq_some,
        Option.some.injEq, Prod.mk.injEq] at hth
      obtain ⟨-, -, rfl⟩ := hth
      exact ⟨hid, hhash _⟩
    dsimp only
    rw [createAPIKey_view hfree, mapError_map]
    exact map_bind_eq_map_bind fun _ _ => rfl
  · simp only [Server.createAPIKey, createAPIKey, bind_eq_ok, require_eq_ok, mapError_eq_ok,
      Prod.exists] at h
    obtain ⟨-, -, -, -, -, -, -, -, tok, hash, -, k, t₁, ⟨-, -, hrow⟩, hout⟩ := h
    cases hrow
    cases hout
    refine ⟨?_, .append (by simp), .refl _ _ _⟩
    rw [List.map_append, List.nodup_append]
    refine ⟨hs.keys, by simp, ?_⟩
    rintro _ hold _ hnew rfl
    obtain ⟨k, hk, hid⟩ := List.mem_map.1 hold
    rw [List.map_singleton, List.mem_singleton] at hnew
    exact (hd.keys k hk).1 (hid.trans hnew)

theorem server_rotateAPIKey_transaction (hs : s.Sound cfg) (hd : d.Fresh cfg s) (id : String) :
    (discipline cfg p.tenantId).Transaction
      (fun d s => (Server.rotateAPIKey cfg.keys d.env d.secret p id s.keyTables).map
        fun r => (r.1, s.withKeyTables r.2)) d s := by
  refine keys_transaction hs ?_ fun a t h => ?_
  · simp only [Server.rotateAPIKey]
    refine bind_eq_map_bind fun _ _ => bind_eq_map_bind fun _ _ => bind_eq_map_bind fun th hth => ?_
    obtain ⟨token, hash⟩ := th
    have hfree : ∀ k ∈ s.keyTables.apiKeys, k.keyHash ≠ hash := by
      intro k hk
      simp only [orError_eq_ok, generateAPIKeyForID, Option.ite_none_right_eq_some,
        Option.some.injEq, Prod.mk.injEq] at hth
      obtain ⟨-, -, rfl⟩ := hth
      exact (hd.keys k hk).2 _
    dsimp only
    rw [rotateAPIKey_view hfree, mapError_map]
    exact map_bind_eq_map_bind fun _ _ => rfl
  · simp only [Server.rotateAPIKey, rotateAPIKey, bind_eq_ok, mapError_eq_ok, Prod.exists] at h
    obtain ⟨-, -, -, -, tok, hash, -, k, t₁, ⟨value, -, -, -, row, -, hrow⟩, hout⟩ := h
    cases hrow
    cases hout
    refine ⟨?_, .update (fun _ => rfl) fun k _ hp => (of_decide_eq_true hp).2,
      .append (by simp [newAuditEvent])⟩
    exact (congrArg List.Nodup (Table.map_update (f := rotateRow hash) (fun _ => rfl) _)).mpr
      hs.keys

theorem server_revokeAPIKey_transaction (hs : s.Sound cfg) (id : String) :
    (discipline cfg p.tenantId).Transaction
      (fun d s => (Server.revokeAPIKey cfg.keys d.env p id s.keyTables).map
        fun t => ((), s.withKeyTables t)) d s := by
  have h : (discipline cfg p.tenantId).Transaction (fun d s =>
      ((Server.revokeAPIKey cfg.keys d.env p id s.keyTables).map fun t => ((), t)).map
        fun r => (r.1, s.withKeyTables r.2)) d s := by
    refine keys_transaction
      (f := fun d t => (Server.revokeAPIKey cfg.keys d.env p id t).map fun t => ((), t)) hs ?_
      fun a t h => ?_
    · have hview : Server.revokeAPIKey cfg.keys d.env p id (s.keyTables.view p.tenantId) =
          (Server.revokeAPIKey cfg.keys d.env p id s.keyTables).map
            (KeyTables.view p.tenantId) := by
        simp only [Server.revokeAPIKey, revokeAPIKey_view, mapError_map]
        exact bind_eq_map_bind fun _ _ => rfl
      simp only [hview, map_map]
    · simp only [Server.revokeAPIKey, revokeAPIKey, map_eq_ok, bind_eq_ok, mapError_eq_ok,
        Prod.mk.injEq] at h
      obtain ⟨t₁, ⟨-, -, value, -, -, -, hout⟩, -, rfl⟩ := h
      cases hout
      refine ⟨?_, .update (fun _ => rfl) fun k _ hp => (of_decide_eq_true hp).2.1,
        .append (by simp [newAuditEvent])⟩
      refine (congrArg List.Nodup (Table.map_update
        (f := fun k : ApiKey => { k with revokedAt := some d.env.now }) (fun _ => rfl) _)).mpr
        hs.keys
  simpa only [map_map] using h

end Keys

/-! ## Authentication -/

section Authentication

variable {kc : KeyConfig} {now : ℤ} {raw : String} {keys : List ApiKey} {p : Principal}

/-- The live key with an id is found among the keys of its tenant, and among all. -/
theorem find?_filter_tenantId (hkeys : (keys.map ApiKey.id).Nodup) {id : ℕ} {k : ApiKey} :
    ((keys.filter fun j => j.tenantId = k.tenantId).find? fun j =>
        decide (j.id = id ∧ j.revokedAt = none)) = some k ↔
      (keys.find? fun j => decide (j.id = id ∧ j.revokedAt = none)) = some k := by
  have hid : ∀ {j : ApiKey}, decide (j.id = id ∧ j.revokedAt = none) = true → j.id = id :=
    fun hp => (of_decide_eq_true hp).1
  constructor
  · intro h
    have hp := List.find?_some h
    refine Table.find?_of_key hkeys (List.mem_of_mem_filter (List.mem_of_find?_eq_some h)) hp ?_
    exact fun j _ hj => (hid hj).trans (hid hp).symm
  · intro h
    have hp := List.find?_some h
    have hmem : k ∈ keys.filter fun j => j.tenantId = k.tenantId :=
      List.mem_filter.2 ⟨List.mem_of_find?_eq_some h, decide_eq_true rfl⟩
    refine Table.find?_of_key (hkeys.sublist (List.filter_sublist.map _)) hmem hp ?_
    exact fun j _ hj => (hid hj).trans (hid hp).symm

theorem authenticateAPIKey_filter (hkeys : (keys.map ApiKey.id).Nodup) {rows : List ApiKey} :
    authenticateAPIKey kc now raw (keys.filter fun k => k.tenantId = p.tenantId) =
        .ok (p, rows) ↔
      ∃ keys', authenticateAPIKey kc now raw keys = .ok (p, keys') ∧
        (keys'.filter fun k => k.tenantId = p.tenantId) = rows := by
  simp only [authenticateAPIKey_ok_iff]
  constructor
  · rintro ⟨text, id, k, htext, hid, hk, hhash, hexp, rfl, rfl⟩
    refine ⟨_, ⟨text, id, k, htext, hid, (find?_filter_tenantId hkeys).1 hk, hhash, hexp, rfl,
      rfl⟩, ?_⟩
    refine Table.filter_update (fun j => ?_) keys
    rfl
  · rintro ⟨_, ⟨text, id, k, htext, hid, hk, hhash, hexp, rfl, rfl⟩, rfl⟩
    refine ⟨text, id, k, htext, hid, (find?_filter_tenantId hkeys).2 hk, hhash, hexp, rfl, ?_⟩
    refine Table.filter_update (fun j => ?_) keys
    rfl

/-- The time of use is written to a key of the principal's tenant. -/
theorem authenticateAPIKey_confined (hkeys : (keys.map ApiKey.id).Nodup) {keys' : List ApiKey}
    (h : authenticateAPIKey kc now raw keys = .ok (p, keys')) :
    (keys'.map ApiKey.id).Nodup ∧
      Table.Confined (· = p.tenantId) ApiKey.tenantId keys keys' := by
  obtain ⟨text, id, k, -, -, hk, -, -, rfl, rfl⟩ := authenticateAPIKey_ok_iff.1 h
  have hp := List.find?_some hk
  simp only [decide_eq_true_eq] at hp
  refine ⟨?_, .update (fun _ => rfl) fun j hj hjid => ?_⟩
  · refine (congrArg List.Nodup (Table.map_update
      (f := fun j : ApiKey => { j with lastUsedAt := some now }) (fun _ => rfl) _)).mpr hkeys
  · have hjk : j = k := Table.eq_of_key hkeys hj (List.mem_of_find?_eq_some hk)
      ((of_decide_eq_true hjid).trans hp.1.symm)
    rw [hjk]
    rfl

/-- What an authentication does to the tables, and what it depends on. -/
structure Authenticates (cfg : ApiConfig) (f : Backend → Option Principal × Backend)
    (s : Backend) : Prop where
  sound : (f s).2.Sound cfg
  db : (f s).2.db = s.db
  keep : ∀ p, (f s).1 = some p → ∀ B, B ≠ p.tenantId → (f s).2.view cfg B = s.view cfg B
  view : ∀ p, (f (s.view cfg p.tenantId)).1 = some p ↔ (f s).1 = some p
  after : ∀ p, (f s).1 = some p →
    (f (s.view cfg p.tenantId)).2 = (f s).2.view cfg p.tenantId

/-- A further check of the principal. -/
theorem Authenticates.filter {f : Backend → Option Principal × Backend}
    (h : Authenticates cfg f s) (q : Principal → Bool) :
    Authenticates cfg (fun s => ((f s).1.filter q, (f s).2)) s where
  sound := h.sound
  db := h.db
  keep p hp := h.keep p (Option.filter_eq_some_iff.1 hp).1
  view p := by
    simp only [Option.filter_eq_some_iff, h.view p]
  after p hp := h.after p (Option.filter_eq_some_iff.1 hp).1

theorem authenticates_constant (hs : s.Sound cfg) (p : Principal) :
    Authenticates cfg (fun s => (some p, s)) s :=
  ⟨hs, rfl, fun _ _ _ _ => rfl, fun _ => Iff.rfl, fun _ _ => rfl⟩

theorem Credential.authenticate_apiKey {keys' : List ApiKey}
    (h : authenticateAPIKey cfg.keys d.env.now raw s.apiKeys = .ok (p, keys')) :
    (apiKey raw).authenticate cfg d s = (some p, { s with apiKeys := keys' }) := by
  simp only [Credential.authenticate, h]

theorem Credential.authenticate_apiKey_fst :
    ((apiKey raw).authenticate cfg d s).1 = some p ↔
      ∃ keys', authenticateAPIKey cfg.keys d.env.now raw s.apiKeys = .ok (p, keys') := by
  constructor
  · intro h
    simp only [Credential.authenticate] at h
    split at h
    · cases h
      exact ⟨_, ‹_›⟩
    · cases h
  · rintro ⟨keys', h⟩
    rw [authenticate_apiKey h]

theorem Credential.authenticates (hs : s.Sound cfg) (c : Credential) (d : Draw) :
    Authenticates cfg (fun s => c.authenticate cfg d s) s := by
  cases c with
  | development p => exact authenticates_constant hs _
  | oidc p => exact authenticates_constant hs _
  | apiKey raw =>
    have hview : ∀ p, ((apiKey raw).authenticate cfg d (s.view cfg p.tenantId)).1 = some p ↔
        ((apiKey raw).authenticate cfg d s).1 = some p := by
      intro p
      simp only [authenticate_apiKey_fst, Backend.view, authenticateAPIKey_filter hs.keys]
      constructor
      · rintro ⟨_, keys', h, -⟩
        exact ⟨keys', h⟩
      · rintro ⟨keys', h⟩
        exact ⟨_, keys', h, rfl⟩
    cases hauth : authenticateAPIKey cfg.keys d.env.now raw s.apiKeys with
    | error e =>
      have hnone : (apiKey raw).authenticate cfg d s = (none, s) := by
        simp only [Credential.authenticate, hauth]
      refine ⟨?_, ?_, ?_, hview, ?_⟩ <;> simp only [hnone]
      · exact hs
      · exact fun _ hp => by cases hp
      · exact fun _ hp => by cases hp
    | ok r =>
      obtain ⟨q, keys'⟩ := r
      obtain ⟨hnodup, hconfined⟩ := authenticateAPIKey_confined hs.keys hauth
      refine ⟨?_, ?_, ?_, hview, ?_⟩ <;> simp only [authenticate_apiKey hauth]
      · exact ⟨hs.linked, hs.references, hs.objects, hnodup⟩
      · rintro p hp B hB
        cases hp
        exact Backend.view_congr rfl rfl (hconfined.filter_ne hB) rfl rfl
      · rintro p hp
        cases hp
        have hfiltered := (authenticateAPIKey_filter hs.keys).2 ⟨keys', hauth, rfl⟩
        exact congrArg Prod.snd (authenticate_apiKey (s := s.view cfg q.tenantId) hfiltered)

theorem Credential.authenticatesWorker (hs : s.Sound cfg) (c : Credential) (d : Draw) :
    Authenticates cfg (fun s => c.authenticateWorker cfg d s) s := by
  cases c with
  | development p => exact authenticates_constant hs _
  | oidc p => exact (Credential.authenticates hs (.oidc p) d).filter _
  | apiKey raw => exact (Credential.authenticates hs (.apiKey raw) d).filter _

theorem Request.authenticates (hs : s.Sound cfg) (req : Request) (d : Draw) :
    Authenticates cfg (fun s => req.authenticate cfg d s) s := by
  obtain ⟨c, e⟩ := req
  cases e with
  | http e => exact c.authenticates hs d
  | worker e => exact c.authenticatesWorker hs d
  | rpc m => exact c.authenticatesWorker hs d

end Authentication

end RunMesh
