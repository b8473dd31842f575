import RunMesh.Confinement

/-!
# References to artifacts

A run names its input artifact, and tasks and attempts name the artifacts their workers uploaded.
The columns hold URIs. `Db.References` says what they name, in the words of the schema : an
artifact that is `READY`, of the right kind and tenant, attached to that run or that task.

A call keeps this if the URIs of a completion were good when it was executed (`exec_references`).
They are checked in an earlier transaction. What such a check has found stays true, because the rows
only evolve : runs and tasks keep their tenant, and a `READY` artifact stays as it is
(`Db.Evolves`).
-/

namespace RunMesh

open Fallible

variable {env : Env} {op : Op} {db db' db'' : Db} {A : ℕ}

/-! ## How rows evolve -/

/-- A later row of the artifact. -/
structure Artifact.Evolves (a b : Artifact) : Prop where
  id : b.id = a.id
  tenantId : b.tenantId = a.tenantId
  kind : b.kind = a.kind
  objectUri : b.objectUri = a.objectUri
  taskRunId : b.taskRunId = a.taskRunId
  ready : a.status = .ready → b.status = .ready
  attached : ∀ runId, a.workflowRunId = some runId → b.workflowRunId = some runId

/-- The rows are there later. -/
structure Db.Evolves (db db' : Db) : Prop where
  runs : ∀ r ∈ db.workflowRuns, ∃ r' ∈ db'.workflowRuns, r'.id = r.id ∧ r'.tenantId = r.tenantId
  tasks : ∀ t ∈ db.taskRuns, ∃ t' ∈ db'.taskRuns,
    t'.id = t.id ∧ t'.workflowRunId = t.workflowRunId
  artifacts : ∀ a ∈ db.artifacts, ∃ a' ∈ db'.artifacts, a.Evolves a'

theorem Artifact.Evolves.refl (a : Artifact) : a.Evolves a :=
  ⟨rfl, rfl, rfl, rfl, rfl, fun h => h, fun _ h => h⟩

theorem Artifact.Evolves.trans {a b c : Artifact} (h : a.Evolves b) (h' : b.Evolves c) :
    a.Evolves c where
  id := h'.id.trans h.id
  tenantId := h'.tenantId.trans h.tenantId
  kind := h'.kind.trans h.kind
  objectUri := h'.objectUri.trans h.objectUri
  taskRunId := h'.taskRunId.trans h.taskRunId
  ready hst := h'.ready (h.ready hst)
  attached runId hrun := h'.attached runId (h.attached runId hrun)

/-- A call that leaves runs and tasks alone. -/
theorem Db.Evolves.of_artifacts (hruns : db'.workflowRuns = db.workflowRuns)
    (htasks : db'.taskRuns = db.taskRuns)
    (hartifacts : ∀ a ∈ db.artifacts, ∃ a' ∈ db'.artifacts, a.Evolves a') : db.Evolves db' where
  runs r hr := ⟨r, hruns ▸ hr, rfl, rfl⟩
  tasks t ht := ⟨t, htasks ▸ ht, rfl, rfl⟩
  artifacts := hartifacts

theorem Db.Evolves.refl (db : Db) : db.Evolves db :=
  .of_artifacts rfl rfl fun a ha => ⟨a, ha, .refl a⟩

theorem Db.Evolves.trans (h : db.Evolves db') (h' : db'.Evolves db'') : db.Evolves db'' where
  runs r hr := by
    obtain ⟨r', hr', hid, htenant⟩ := h.runs r hr
    obtain ⟨r'', hr'', hid', htenant'⟩ := h'.runs r' hr'
    exact ⟨r'', hr'', hid'.trans hid, htenant'.trans htenant⟩
  tasks t ht := by
    obtain ⟨t', ht', hid, hrun⟩ := h.tasks t ht
    obtain ⟨t'', ht'', hid', hrun'⟩ := h'.tasks t' ht'
    exact ⟨t'', ht'', hid'.trans hid, hrun'.trans hrun⟩
  artifacts a ha := by
    obtain ⟨b, hb, hab⟩ := h.artifacts a ha
    obtain ⟨c, hc, hbc⟩ := h'.artifacts b hb
    exact ⟨c, hc, hab.trans hbc⟩

theorem Db.Evolves.ownsRun (h : db.Evolves db') {runId : ℕ} (hown : db.ownsRun A runId = true) :
    db'.ownsRun A runId = true := by
  obtain ⟨r, hr, hid, htenant⟩ := Db.ownsRun_iff.1 hown
  obtain ⟨r', hr', hid', htenant'⟩ := h.runs r hr
  exact Db.ownsRun_iff.2 ⟨r', hr', hid'.trans hid, htenant'.trans htenant⟩

theorem Db.Evolves.ownsTask (h : db.Evolves db') {taskId : ℕ}
    (hown : db.ownsTask A taskId = true) : db'.ownsTask A taskId = true := by
  obtain ⟨t, ht, hid, hrun⟩ := Db.ownsTask_iff.1 hown
  obtain ⟨t', ht', hid', hrun'⟩ := h.tasks t ht
  exact Db.ownsTask_iff.2 ⟨t', ht', hid'.trans hid, hrun' ▸ h.ownsRun hrun⟩

/-- A call of the store. -/
theorem exec_evolves (hk : db.Keyed) {reply : Reply} (h : op.exec env db = .ok (reply, db')) :
    db.Evolves db' where
  runs _ hr := exec_run_mem hk h hr
  tasks _ ht := exec_task_mem hk h ht
  artifacts a ha := by
    obtain ⟨f, hrows, hf⟩ := exec_attaches h
    refine ⟨f a, hrows ▸ List.mem_map_of_mem ha, ?_⟩
    rcases hf a with heq | ⟨hnone, hattached⟩
    · rw [heq]
      exact .refl a
    · rw [hattached]
      exact ⟨rfl, rfl, rfl, rfl, rfl, fun h => h, fun runId hrun => by simp [hnone] at hrun⟩

/-- A new upload. -/
theorem insertUpload_evolves {m : Manager} {u : AdmittedUpload} {r : Artifact × SignedUrl}
    (h : insertUpload m env u db = .ok (r, db')) : db.Evolves db' := by
  simp only [insertUpload, bind_eq_ok] at h
  obtain ⟨-, -, h⟩ := h
  cases h
  exact .of_artifacts rfl rfl fun a ha => ⟨a, List.mem_append_left _ ha, .refl a⟩

/-- The end of an upload. -/
theorem completeArtifact_evolves {tenantId id size : ℕ} {a : Artifact}
    (h : completeArtifact env tenantId id size db = .ok (a, db')) : db.Evolves db' := by
  simp only [completeArtifact, bind_eq_ok] at h
  obtain ⟨_, -, h⟩ := h
  cases h
  refine .of_artifacts rfl rfl fun b hb => ⟨_, List.mem_map_of_mem hb, ?_⟩
  split_ifs
  · exact ⟨rfl, rfl, rfl, rfl, rfl, fun _ => rfl, fun _ h => h⟩
  · exact .refl b

/-! ## What the columns name -/

/-- The URI names the input artifact of the run. -/
def Db.NamesInput (db : Db) (r : Run) (uri : String) : Prop :=
  ∃ a ∈ db.artifacts, a.objectUri = uri ∧ a.kind = .input ∧ a.status = .ready ∧
    a.tenantId = r.tenantId ∧ a.workflowRunId = some r.id

/-- The URI names an artifact of the kind, of the task and of its tenant. -/
def Db.NamesTaskArtifact (db : Db) (kind : ArtifactKind) (taskId : ℕ) (uri : String) : Prop :=
  ∃ a ∈ db.artifacts, a.objectUri = uri ∧ a.kind = kind ∧ a.status = .ready ∧
    a.taskRunId = some taskId ∧ db.ownsTask a.tenantId taskId = true

/-- The references to artifacts are sound. -/
structure Db.References (db : Db) : Prop where
  uris : (db.artifacts.map Artifact.objectUri).Nodup
  input : ∀ r ∈ db.workflowRuns, ∀ uri, r.inputArtifactUri = some uri → db.NamesInput r uri
  output : ∀ t ∈ db.taskRuns, ∀ uri, t.outputArtifactUri = some uri →
    db.NamesTaskArtifact .output t.id uri
  attemptOutput : ∀ a ∈ db.taskAttempts, ∀ uri, a.artifactUri = some uri →
    db.NamesTaskArtifact .output a.taskRunId uri
  attemptLog : ∀ a ∈ db.taskAttempts, ∀ uri, a.logArtifactUri = some uri →
    db.NamesTaskArtifact .log a.taskRunId uri
  limit : ∀ a ∈ db.artifacts, a.declaredSize ≤ a.kind.limit
  size : ∀ a ∈ db.artifacts, a.status = .ready → a.sizeBytes = some a.declaredSize

theorem Db.Evolves.namesInput (h : db.Evolves db') {r r' : Run} (hid : r'.id = r.id)
    (htenant : r'.tenantId = r.tenantId) {uri : String} (hr : db.NamesInput r uri) :
    db'.NamesInput r' uri := by
  obtain ⟨a, ha, huri, hkind, hready, hten, hrun⟩ := hr
  obtain ⟨b, hb, hab⟩ := h.artifacts a ha
  exact ⟨b, hb, hab.objectUri.trans huri, hab.kind.trans hkind, hab.ready hready,
    (hab.tenantId.trans hten).trans htenant.symm, hid ▸ hab.attached _ hrun⟩

theorem Db.Evolves.namesTaskArtifact (h : db.Evolves db') {kind : ArtifactKind} {taskId : ℕ}
    {uri : String} (hnames : db.NamesTaskArtifact kind taskId uri) :
    db'.NamesTaskArtifact kind taskId uri := by
  obtain ⟨a, ha, huri, hkind, hready, htask, hown⟩ := hnames
  obtain ⟨b, hb, hab⟩ := h.artifacts a ha
  exact ⟨b, hb, hab.objectUri.trans huri, hab.kind.trans hkind, hab.ready hready,
    hab.taskRunId.trans htask, hab.tenantId ▸ h.ownsTask hown⟩

/-- No two runs name one artifact. -/
theorem Db.References.input_unique (h : db.References) (hk : db.Keyed) {r r' : Run}
    (hr : r ∈ db.workflowRuns) (hr' : r' ∈ db.workflowRuns) {uri : String}
    (huri : r.inputArtifactUri = some uri) (huri' : r'.inputArtifactUri = some uri) : r = r' := by
  obtain ⟨a, ha, hauri, -, -, -, hrun⟩ := h.input r hr uri huri
  obtain ⟨b, hb, hburi, -, -, -, hrun'⟩ := h.input r' hr' uri huri'
  obtain rfl := Table.eq_of_key h.uris ha hb (hauri.trans hburi.symm)
  rw [hrun, Option.some.injEq] at hrun'
  exact Table.eq_of_key hk.runs hr hr' hrun'

/-! ## Calls -/

/-- The artifacts of a completion are those of its task. -/
def Op.Checked (db : Db) : Op → Prop
  | .completeTask id _ _ uri logs =>
    (∀ uri', nullIfEmpty uri = some uri' → db.NamesTaskArtifact .output id uri') ∧
      ∀ uri', nullIfEmpty (logs.headD "") = some uri' → db.NamesTaskArtifact .log id uri'
  | _ => True

/-- Only a completion writes the output of a task. -/
theorem TaskMove.outputArtifactUri {t t' : TaskRun} (h : TaskMove env db op t t') :
    t'.outputArtifactUri = t.outputArtifactUri ∨ ∃ w o uri logs,
      op = .completeTask t.id w o uri logs ∧ t'.outputArtifactUri = nullIfEmpty uri := by
  cases h with
  | succeed => exact Or.inr ⟨_, _, _, _, rfl, rfl⟩
  | _ => exact Or.inl rfl

theorem RunMove.inputArtifactUri {r r' : Run} (h : RunMove env db op r r') :
    r'.inputArtifactUri = r.inputArtifactUri := by
  cases h <;> rfl

theorem foldl_endAttempt_uris (es : List (TaskRun × Run)) (a : TaskAttempt) :
    (es.foldl (fun a e => endAttempt env e a) a).taskRunId = a.taskRunId ∧
      (es.foldl (fun a e => endAttempt env e a) a).artifactUri = a.artifactUri ∧
      (es.foldl (fun a e => endAttempt env e a) a).logArtifactUri = a.logArtifactUri := by
  induction es generalizing a with
  | nil => exact ⟨rfl, rfl, rfl⟩
  | cons e es ih =>
    obtain ⟨hid, huri, hlog⟩ := ih (endAttempt env e a)
    rw [List.foldl_cons, hid, huri, hlog]
    unfold endAttempt
    split_ifs <;> exact ⟨rfl, rfl, rfl⟩

/-- The URIs of an attempt are those it had, or those of a completion of its task. -/
def Op.AttemptUris (op : Op) (db : Db) (a' : TaskAttempt) : Prop :=
  a'.artifactUri = none ∧ a'.logArtifactUri = none ∨
    (∃ a ∈ db.taskAttempts, a'.taskRunId = a.taskRunId ∧ a'.artifactUri = a.artifactUri ∧
      a'.logArtifactUri = a.logArtifactUri) ∨
    ∃ w o uri logs, op = .completeTask a'.taskRunId w o uri logs ∧
      a'.artifactUri = nullIfEmpty uri ∧ a'.logArtifactUri = nullIfEmpty (logs.headD "")

theorem exec_attemptUris (hk : db.Keyed) {reply : Reply} (h : op.exec env db = .ok (reply, db'))
    {a' : TaskAttempt} (ha' : a' ∈ db'.taskAttempts) : op.AttemptUris db a' := by
  have hold : a' ∈ db.taskAttempts → op.AttemptUris db a' := fun ha =>
    Or.inr (Or.inl ⟨a', ha, rfl, rfl, rfl⟩)
  cases op <;> simp only [Op.exec, map_eq_ok, Prod.mk.injEq, Except.ok.injEq] at h
  case createWorkflow =>
    obtain ⟨⟨d, _⟩, hop, rfl, rfl⟩ := h
    obtain ⟨-, -, audit, rfl⟩ := createWorkflow_ok hop
    exact hold ha'
  case createVersion =>
    obtain ⟨_, hop, -⟩ := h
    exact absurd hop createVersion_ne_ok
  case createRun =>
    obtain ⟨⟨r, _⟩, hop, rfl, rfl⟩ := h
    rcases createRun_ok hop with ⟨rfl, -, -⟩ | ⟨d, hd, uri, -, hins⟩
    · exact hold ha'
    · obtain ⟨-, -, artifacts, rfl⟩ := insertRun_ok hins
      exact hold ha'
  case promoteRetries =>
    obtain ⟨-, rfl⟩ := h
    exact hold ha'
  case recoverExpired scan =>
    obtain ⟨-, rfl⟩ := h
    rw [recoverExpired_eq] at ha'
    obtain ⟨a, ha, rfl⟩ := List.mem_map.1 ha'
    exact Or.inr (Or.inl ⟨a, ha, foldl_endAttempt_uris _ a⟩)
  case dispatchReady scan =>
    obtain ⟨-, rfl⟩ := h
    rw [dispatchReady_eq hk] at ha'
    exact hold ha'
  case leaseTask =>
    obtain ⟨⟨⟨t', uri⟩, _⟩, hop, -, rfl⟩ := h
    obtain ⟨t, -, rfl, -, rfl, -, rfl⟩ := leaseTask_ok hk hop
    rcases List.mem_append.1 ha' with ha' | ha'
    · exact hold ha'
    · rw [List.mem_singleton.1 ha']
      exact Or.inl ⟨rfl, rfl⟩
  case startTask =>
    obtain ⟨⟨t', _⟩, hop, -, rfl⟩ := h
    obtain ⟨t, r, -, rfl, -, -, -, rfl⟩ := startTask_ok hk hop
    obtain ⟨a, ha, rfl⟩ := Table.mem_update.1 ha'
    refine Or.inr (Or.inl ⟨a, ha, ?_⟩)
    split_ifs <;> exact ⟨rfl, rfl, rfl⟩
  case heartbeatTask =>
    obtain ⟨⟨b, _⟩, hop, -, rfl⟩ := h
    obtain ⟨t, r, -, rfl, -, -, rfl⟩ := heartbeatTask_ok hk hop
    exact hold ha'
  case completeTask =>
    obtain ⟨⟨t', _⟩, hop, -, rfl⟩ := h
    obtain ⟨t, r, -, rfl, -, -, o', -, rfl⟩ := completeTask_ok hk hop
    obtain ⟨a, ha, rfl⟩ := Table.mem_update.1 ha'
    split_ifs with hp
    · have hid := (of_decide_eq_true hp).1
      exact Or.inr (Or.inr ⟨_, _, _, _, by rw [← hid], rfl, rfl⟩)
    · exact Or.inr (Or.inl ⟨a, ha, rfl, rfl, rfl⟩)
  case failTask =>
    obtain ⟨⟨t', _⟩, hop, -, rfl⟩ := h
    obtain ⟨t, r, -, rfl, -, -, rfl⟩ := failTask_ok hk hop
    obtain ⟨a, ha, rfl⟩ := Table.mem_update.1 ha'
    refine Or.inr (Or.inl ⟨a, ha, ?_⟩)
    split_ifs <;> exact ⟨rfl, rfl, rfl⟩
  case cancelRun =>
    obtain ⟨_, hop, -, rfl⟩ := h
    rw [(cancelRun_ok hop).2] at ha'
    exact hold ha'
  case retryRun =>
    obtain ⟨_, hop, -, rfl⟩ := h
    rw [(retryRun_ok hop).2.2] at ha'
    exact hold ha'
  case replayDead =>
    obtain ⟨_, hop, -, rfl⟩ := h
    obtain ⟨t, -, r, -, rfl, -, rfl, -, rfl⟩ := replayDead_ok hop
    exact hold ha'

/-- The input of a new run is attached to it. -/
theorem createRun_input (hids : (db.artifacts.map Artifact.id).Nodup)
    {user artifact : Option ℕ} {definitionId : ℕ} {key input : String} {r : Run × Bool}
    (h : createRun env A user definitionId key input artifact db = .ok (r, db')) {r' : Run}
    (hr' : r' ∈ db'.workflowRuns) : r' ∈ db.workflowRuns ∨
      ∀ uri, r'.inputArtifactUri = some uri → db'.NamesInput r' uri := by
  simp only [createRun, bind_eq_ok, orError_eq_ok, require_eq_ok] at h
  obtain ⟨-, -, uri, huri, d, -, h⟩ := h
  split at h
  · cases h
    exact Or.inl hr'
  · simp only [insertRun, bind_eq_ok] at h
    obtain ⟨_, ⟨artifacts, hattach, -, -, -, -, h'⟩, h⟩ := h
    cases h'
    cases h
    rcases List.mem_append.1 hr' with hr' | hr'
    · exact Or.inl hr'
    · obtain rfl := List.mem_singleton.1 hr'
      refine Or.inr fun uri' huri' => ?_
      cases artifact with
      | none =>
        cases huri
        simp [newRun] at huri'
      | some id =>
        obtain ⟨a, ha, hid, htenant, hkind, hready, rfl⟩ := selectInputArtifact_ok huri
        have heq : a.objectUri = uri' := by
          simp only [newRun] at huri'
          split_ifs at huri'
          exact Option.some.inj huri'
        simp only [attachInputArtifact] at hattach
        split_ifs at hattach with hcount
        cases hattach
        -- the one row that is written is the row that was selected
        obtain ⟨b, hb, hp⟩ := List.countP_pos_iff.1 (hcount ▸ Nat.one_pos)
        obtain ⟨hbid, hnone⟩ := of_decide_eq_true hp
        obtain rfl := Table.eq_of_key hids ha hb (hid.trans hbid.symm)
        refine ⟨_, List.mem_map_of_mem ha, ?_⟩
        rw [if_pos hp]
        exact ⟨heq, hkind, hready, htenant, rfl⟩

/-- A call keeps the references, if the artifacts of a completion were good. -/
theorem exec_references (hl : db.Linked) (hr : db.References) (hchecked : op.Checked db)
    {reply : Reply} (h : op.exec env db = .ok (reply, db')) : db'.References := by
  have hk := hl.toKeyed
  have hev := exec_evolves hk h
  obtain ⟨f, hrows, hf⟩ := exec_artifacts h
  refine ⟨?_, fun r' hr' uri huri => ?_, fun t' ht' uri huri => ?_, fun a' ha' uri huri => ?_,
    fun a' ha' uri huri => ?_, fun a' ha' => ?_, fun a' ha' hready => ?_⟩
  · have huris : db'.artifacts.map Artifact.objectUri = db.artifacts.map Artifact.objectUri := by
      rw [hrows, List.map_map]
      exact List.map_congr_left fun a _ => by rw [Function.comp_apply, hf a]
    rw [huris]
    exact hr.uris
  · rcases exec_moves hk h with hm | ⟨run, dag, hc⟩
    · obtain ⟨r, hrmem, hmove⟩ := hm.of_mem_run hr'
      rw [hmove.inputArtifactUri] at huri
      exact hev.namesInput hmove.id hmove.tenantId (hr.input r hrmem uri huri)
    · obtain ⟨tenant, user, definitionId, key, input, artifact, rfl⟩ := hc.isCreate
      simp only [Op.exec, map_eq_ok, Prod.mk.injEq] at h
      obtain ⟨r, hop, -, hdb⟩ := h
      obtain rfl : r.2 = db' := hdb
      rcases createRun_input hl.artifacts hop hr' with hold | hnew
      · exact hev.namesInput rfl rfl (hr.input r' hold uri huri)
      · exact hnew uri huri
  · rcases exec_moves hk h with hm | ⟨run, dag, hc⟩
    · obtain ⟨t, ht, hmove⟩ := hm.of_mem_task ht'
      rw [hmove.id]
      refine hev.namesTaskArtifact ?_
      rcases hmove.outputArtifactUri with heq | ⟨w, o, uri', logs, rfl, heq⟩
      · exact hr.output t ht uri (heq ▸ huri)
      · exact hchecked.1 uri (heq ▸ huri)
    · rw [hc.tasks, List.mem_append, List.mem_map] at ht'
      rcases ht' with ht' | ⟨entry, -, rfl⟩
      · exact hev.namesTaskArtifact (hr.output t' ht' uri huri)
      · simp [newTaskRun] at huri
  · refine hev.namesTaskArtifact ?_
    rcases exec_attemptUris hk h ha' with ⟨hnone, -⟩ | ⟨a, ha, hid, heq, -⟩ |
      ⟨w, o, uri', logs, rfl, heq, -⟩
    · simp [hnone] at huri
    · rw [hid]
      exact hr.attemptOutput a ha uri (heq ▸ huri)
    · exact hchecked.1 uri (heq ▸ huri)
  · refine hev.namesTaskArtifact ?_
    rcases exec_attemptUris hk h ha' with ⟨-, hnone⟩ | ⟨a, ha, hid, -, heq⟩ |
      ⟨w, o, uri', logs, rfl, -, heq⟩
    · simp [hnone] at huri
    · rw [hid]
      exact hr.attemptLog a ha uri (heq ▸ huri)
    · exact hchecked.2 uri (heq ▸ huri)
  · rw [hrows] at ha'
    obtain ⟨a, ha, rfl⟩ := List.mem_map.1 ha'
    rw [hf a]
    exact hr.limit a ha
  · rw [hrows] at ha'
    obtain ⟨a, ha, rfl⟩ := List.mem_map.1 ha'
    rw [hf a] at hready ⊢
    exact hr.size a ha hready

/-! ## Uploads -/

/-- The references of rows that were there, when only artifacts are written. -/
theorem Db.References.of_evolves (hr : db.References) (hev : db.Evolves db')
    (hruns : db'.workflowRuns = db.workflowRuns) (htasks : db'.taskRuns = db.taskRuns)
    (hattempts : db'.taskAttempts = db.taskAttempts)
    (huris : (db'.artifacts.map Artifact.objectUri).Nodup)
    (hlimit : ∀ a ∈ db'.artifacts, a.declaredSize ≤ a.kind.limit)
    (hsize : ∀ a ∈ db'.artifacts, a.status = .ready → a.sizeBytes = some a.declaredSize) :
    db'.References where
  uris := huris
  input r hmem uri huri := hev.namesInput rfl rfl (hr.input r (hruns ▸ hmem) uri huri)
  output t ht uri huri := hev.namesTaskArtifact (hr.output t (htasks ▸ ht) uri huri)
  attemptOutput a ha uri huri :=
    hev.namesTaskArtifact (hr.attemptOutput a (hattempts ▸ ha) uri huri)
  attemptLog a ha uri huri := hev.namesTaskArtifact (hr.attemptLog a (hattempts ▸ ha) uri huri)
  limit := hlimit
  size := hsize

theorem insertUpload_references (hr : db.References) {m : Manager} {u : AdmittedUpload}
    (hlimit : u.size ≤ u.kind.limit) {r : Artifact × SignedUrl}
    (h : insertUpload m env u db = .ok (r, db')) : db'.References := by
  have hev := insertUpload_evolves h
  simp only [insertUpload, bind_eq_ok, require_eq_ok] at h
  obtain ⟨-, hfree, h⟩ := h
  cases h
  refine hr.of_evolves hev rfl rfl rfl ?_ (fun a ha => ?_) fun a ha hready => ?_
  · rw [List.map_append, List.nodup_append]
    refine ⟨hr.uris, by simp, ?_⟩
    rintro _ hold _ hnew rfl
    obtain ⟨b, hb, hburi⟩ := List.mem_map.1 hold
    rw [List.map_singleton, List.mem_singleton] at hnew
    have hne := of_decide_eq_true (List.all_eq_true.1 hfree b hb)
    exact hne.2.2 (hburi.trans hnew)
  · rcases List.mem_append.1 ha with ha | ha
    · exact hr.limit a ha
    · rw [List.mem_singleton.1 ha]
      exact hlimit
  · rcases List.mem_append.1 ha with ha | ha
    · exact hr.size a ha hready
    · rw [List.mem_singleton.1 ha] at hready
      simp [newArtifact] at hready

theorem completeArtifact_references (hr : db.References) {tenantId id size : ℕ} {a : Artifact}
    (h : completeArtifact env tenantId id size db = .ok (a, db')) : db'.References := by
  have hev := completeArtifact_evolves h
  simp only [completeArtifact, bind_eq_ok] at h
  obtain ⟨_, -, h⟩ := h
  cases h
  refine hr.of_evolves hev rfl rfl rfl ?_ (fun b hb => ?_) fun b hb hready => ?_
  · refine (congrArg List.Nodup (Table.map_update (f := readyRow env size) ?_ _)).mpr hr.uris
    exact fun _ => rfl
  · obtain ⟨c, hc, rfl⟩ := Table.mem_update.1 hb
    split_ifs <;> exact hr.limit c hc
  · obtain ⟨c, hc, rfl⟩ := Table.mem_update.1 hb
    split_ifs at hready ⊢ with hp
    · exact congrArg some (of_decide_eq_true hp).2.2.2.symm
    · exact hr.size c hc hready

end RunMesh
