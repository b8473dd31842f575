import RunMesh.Artifacts
import RunMesh.Effects

/-!
# What a download serves

Uploaders write to the bucket with the URLs they were given, at any time until these expire,
and with any bytes, while `Complete` looks at the object, looks at it again, and marks the row
`READY`. `artifactService` interleaves these steps, the downloads and the other operations.

The URL of an upload is still good when the artifact is `READY`, so what was verified can be
overwritten (`overwritten_after_ready`). A write is harmless if the artifact is neither `READY`
nor being verified, or if the bytes are as declared (`Harmless`). If every write is, the object of
a `READY` artifact has the declared size and checksum in every state (`ready_content_kept`).
-/

namespace RunMesh

open Fallible

/-! ## The service -/

/-- The database and the bucket, the URLs that were signed, the downloads with the id of their
artifact, and the `Complete` requests under way. -/
structure ArtifactState where
  db : Db
  objects : Objects
  uploads : List SignedUrl
  downloads : List (ℕ × SignedUrl)
  completions : List Completion
  clock : ℤ

/-- What can happen next. -/
inductive ArtifactLabel
  /-- `createUpload`. -/
  | create (env : Env) (tenantId : ℕ) (userId : Option ℕ) (req : UploadRequest)
  /-- `PUT` with a presigned URL. -/
  | put (now : ℤ) (url : SignedUrl) (bytes : List UInt8)
  /-- A `Complete` reads the row. -/
  | begin (env : Env) (tenantId : ℕ) (id : String)
  /-- The next step of the `i`-th `Complete` under way. -/
  | advance (env : Env) (i : ℕ)
  /-- `download`. -/
  | download (env : Env) (tenantId : ℕ) (idOrURI : String)
  /-- Any other operation of the store. -/
  | call (c : Call)

/-- The time of a step. -/
def ArtifactLabel.now : ArtifactLabel → ℤ
  | create env _ _ _ | begin env _ _ | advance env _ | download env _ _ => env.now
  | put now _ _ => now
  | call c => c.env.now

/-- The tables and the bucket after a step. A request that fails changes nothing, except that it
is no longer under way. -/
def ArtifactState.next (m : Manager) (s : ArtifactState) : ArtifactLabel → ArtifactState
  | .create env tenantId userId req =>
    match (admitUpload m tenantId userId req s.db).bind fun u => insertUpload m env u s.db with
    | .ok r => { s with db := r.2, uploads := s.uploads ++ [r.1.2] }
    | .error _ => s
  | .put _ url bytes => { s with objects := Function.update s.objects url.key (some bytes) }
  | .begin _ tenantId id =>
    match getArtifact m.uuid tenantId id s.db with
    | .ok a =>
      if a.status = .ready then s else { s with completions := s.completions ++ [.head a] }
    | .error _ => s
  | .advance env i =>
    match s.completions[i]? with
    | none => s
    | some c =>
      match c.step m env s.objects s.db with
      | .ok (.inl c') => { s with completions := s.completions.set i c' }
      | .ok (.inr r) => { s with db := r.2, completions := s.completions.eraseIdx i }
      | .error _ => { s with completions := s.completions.eraseIdx i }
  | .download env tenantId idOrURI =>
    match RunMesh.download m env tenantId idOrURI s.db with
    | .ok r => { s with downloads := s.downloads ++ [(r.1.id, r.2)] }
    | .error _ => s
  | .call c => { s with db := c.after s.db }

/-- The service : time does not go back, and a write has a URL that has not expired. -/
def artifactService (m : Manager) : Machine ArtifactState ArtifactLabel where
  next s l := { s.next m l with clock := l.now }
  allowed s l := s.clock ≤ l.now ∧
    match l with
    | .put now url _ => url ∈ s.uploads ∧ now ≤ url.expiresAt
    | _ => True

instance (m : Manager) (s : ArtifactState) (l : ArtifactLabel) :
    Decidable ((artifactService m).allowed s l) :=
  match l with
  | .put now url _ =>
    inferInstanceAs (Decidable (s.clock ≤ now ∧ url ∈ s.uploads ∧ now ≤ url.expiresAt))
  | .create env _ _ _ | .begin env _ _ | .advance env _ | .download env _ _ =>
    inferInstanceAs (Decidable (s.clock ≤ env.now ∧ True))
  | .call c => inferInstanceAs (Decidable (s.clock ≤ c.env.now ∧ True))

/-- No artifact yet. -/
structure ArtifactInit (s : ArtifactState) : Prop where
  artifacts : s.db.artifacts = []
  uploads : s.uploads = []
  downloads : s.downloads = []
  completions : s.completions = []

/-! ## Contents -/

/-- The row that was read is a row of the table, up to its status and its run. -/
def SameUpload (a b : Artifact) : Prop :=
  a.id = b.id ∧ a.tenantId = b.tenantId ∧ a.objectKey = b.objectKey ∧
    a.declaredSize = b.declaredSize ∧ a.checksumSha256 = b.checksumSha256

/-- The bytes are those the uploader declared. -/
def AsDeclared (m : Manager) (a : Artifact) (checksum : String) (bytes : List UInt8) : Prop :=
  bytes.length = a.declaredSize ∧ m.checksum bytes = checksum

/-- The object of the artifact is the one its uploader declared. -/
def Intact (m : Manager) (objects : Objects) (a : Artifact) (checksum : String) : Prop :=
  ∃ bytes, objects a.objectKey = some bytes ∧ AsDeclared m a checksum bytes

/-- The row a `Complete` read. -/
def Completion.artifact : Completion → Artifact
  | head a | get a _ _ | finish a _ => a

/-- The `Complete` has looked at the object. -/
def Completion.looking : Completion → Bool
  | head _ => false
  | get .. | finish .. => true

/-- What the `Complete` has seen is still so. -/
def Completion.Verified (m : Manager) (objects : Objects) : Completion → Prop
  | head _ => True
  | get a checksum size => a.checksumSha256 = some checksum ∧ size = a.declaredSize ∧
      ∃ bytes, objects a.objectKey = some bytes ∧ bytes.length = a.declaredSize
  | finish a size => size = a.declaredSize ∧
      ∀ checksum, a.checksumSha256 = some checksum → Intact m objects a checksum

/-- The artifact is `READY`, or a `Complete` has begun to look at its object. -/
def Exposed (s : ArtifactState) (a : Artifact) : Prop :=
  a.status = .ready ∨ ∃ c ∈ s.completions, c.looking = true ∧ c.artifact.id = a.id

/-- The step does not write, to the object of an artifact that is `READY` or being verified and
has a declared checksum, bytes that are not as declared. -/
def Harmless (m : Manager) (s : ArtifactState) : ArtifactLabel → Prop
  | .put _ url bytes => ∀ a ∈ s.db.artifacts, a.objectKey = url.key → Exposed s a →
      ∀ checksum, a.checksumSha256 = some checksum → AsDeclared m a checksum bytes
  | _ => True

/-- The objects of the `READY` artifacts are as declared, what is being verified is as it was
seen, and downloads are of `READY` artifacts. -/
structure ArtifactsIntact (m : Manager) (s : ArtifactState) : Prop where
  nodup : (s.db.artifacts.map Artifact.id).Nodup
  ready : ∀ a ∈ s.db.artifacts, a.status = .ready → ∀ checksum,
    a.checksumSha256 = some checksum → Intact m s.objects a checksum
  reading : ∀ c ∈ s.completions, ∃ b ∈ s.db.artifacts, SameUpload c.artifact b
  verified : ∀ c ∈ s.completions, c.Verified m s.objects
  downloads : ∀ d ∈ s.downloads, ∃ a ∈ s.db.artifacts, a.id = d.1 ∧ a.status = .ready ∧
    a.objectKey = d.2.key

/-! ## Steps of the store -/

theorem mem_of_getArtifact {uuid : UuidText} {tenantId : ℕ} {id : String} {db : Db} {a : Artifact}
    (h : getArtifact uuid tenantId id db = .ok a) : a ∈ db.artifacts := by
  simp only [getArtifact, bind_eq_ok, orError_eq_ok] at h
  obtain ⟨value, -, hfind⟩ := h
  exact List.mem_of_find?_eq_some hfind

theorem mem_of_findArtifact {uuid : UuidText} {tenantId : ℕ} {idOrURI : String} {db : Db}
    {a : Artifact} (h : findArtifact uuid tenantId idOrURI db = .ok a) : a ∈ db.artifacts := by
  unfold findArtifact at h
  split_ifs at h
  · exact List.mem_of_find?_eq_some (orError_eq_ok.1 h)
  · exact mem_of_getArtifact h

section Rows

variable {env : Env} {op : Op} {reply : Reply} {db db' : Db}

/-- The artifact is as it was, but for its run. -/
def Artifact.Attached (a b : Artifact) : Prop :=
  b = { a with workflowRunId := b.workflowRunId }

theorem foldl_dispatchTask_artifacts (es : List (TaskRun × Run)) (db : Db) (n : ℕ) :
    (es.foldl (dispatchTask env) (db, n)).1.artifacts = db.artifacts := by
  induction es generalizing db n with
  | nil => rfl
  | cons e es ih =>
    rw [List.foldl_cons, ih]
    unfold dispatchTask
    split_ifs <;> rfl

theorem attachInputArtifact_ok {id : Option ℕ} {runId : ℕ} {as bs : List Artifact}
    (h : attachInputArtifact id runId as = .ok bs) : ∃ f, bs = as.map f ∧
      ∀ a : Artifact, f a = a ∨ a.workflowRunId = none ∧ a.Attached (f a) := by
  unfold attachInputArtifact at h
  split at h
  · cases h
    exact ⟨fun a => a, by simp, fun a => Or.inl rfl⟩
  · simp only at h
    split_ifs at h
    cases h
    refine ⟨_, rfl, fun a => ?_⟩
    split_ifs with hp
    · exact Or.inr ⟨(of_decide_eq_true hp).2, rfl⟩
    · exact Or.inl rfl

/-- An operation of the store attaches artifacts that have no run yet, and does nothing else to
them. -/
theorem exec_attaches (h : op.exec env db = .ok (reply, db')) :
    ∃ f, db'.artifacts = db.artifacts.map f ∧
      ∀ a : Artifact, f a = a ∨ a.workflowRunId = none ∧ a.Attached (f a) := by
  have hsame : db'.artifacts = db.artifacts → ∃ f, db'.artifacts = db.artifacts.map f ∧
      ∀ a : Artifact, f a = a ∨ a.workflowRunId = none ∧ a.Attached (f a) :=
    fun heq => ⟨fun a => a, by simp [heq], fun a => Or.inl rfl⟩
  cases op <;> simp only [Op.exec, map_eq_ok, Prod.mk.injEq, Except.ok.injEq] at h
  case createRun =>
    obtain ⟨⟨r, _⟩, hop, -, rfl⟩ := h
    rcases createRun_ok hop with ⟨heq, -, -⟩ | ⟨d, -, uri, -, hins⟩
    · exact hsame (by rw [heq])
    · simp only [insertRun, bind_eq_ok] at hins
      obtain ⟨artifacts, hattach, -, -, -, -, hdb⟩ := hins
      cases hdb
      exact attachInputArtifact_ok hattach
  case promoteRetries =>
    obtain ⟨-, rfl⟩ := h
    exact hsame rfl
  case recoverExpired =>
    obtain ⟨-, rfl⟩ := h
    exact hsame (by rw [recoverExpired_eq])
  case dispatchReady =>
    obtain ⟨-, rfl⟩ := h
    exact hsame (foldl_dispatchTask_artifacts _ db 0)
  case cancelRun =>
    obtain ⟨_, hop, -, rfl⟩ := h
    obtain ⟨-, rfl⟩ := cancelRun_ok hop
    exact hsame rfl
  case retryRun =>
    obtain ⟨_, hop, -, rfl⟩ := h
    obtain ⟨-, -, rfl⟩ := retryRun_ok hop
    exact hsame rfl
  case replayDead =>
    obtain ⟨_, hop, -, rfl⟩ := h
    obtain ⟨t, -, r, -, -, -, -, -, rfl⟩ := replayDead_ok hop
    exact hsame rfl
  case createWorkflow =>
    obtain ⟨⟨d, _⟩, hop, -, rfl⟩ := h
    obtain ⟨-, -, audit, rfl⟩ := createWorkflow_ok hop
    exact hsame rfl
  case createVersion =>
    obtain ⟨_, hop, -⟩ := h
    exact absurd hop createVersion_ne_ok
  case leaseTask =>
    obtain ⟨⟨r, _⟩, hop, -, rfl⟩ := h
    simp only [RunMesh.leaseTask, bind_eq_ok] at hop
    obtain ⟨t, -, run, -, -, -, hdb⟩ := hop
    cases hdb
    exact hsame rfl
  case startTask =>
    obtain ⟨⟨r, _⟩, hop, -, rfl⟩ := h
    simp only [RunMesh.startTask, bind_eq_ok] at hop
    obtain ⟨tr, -, -, -, t, -, hdb⟩ := hop
    cases hdb
    exact hsame rfl
  case heartbeatTask =>
    obtain ⟨⟨r, _⟩, hop, -, rfl⟩ := h
    simp only [RunMesh.heartbeatTask, bind_eq_ok] at hop
    obtain ⟨tr, -, hdb⟩ := hop
    cases hdb
    exact hsame rfl
  case completeTask =>
    obtain ⟨⟨r, _⟩, hop, -, rfl⟩ := h
    simp only [RunMesh.completeTask, bind_eq_ok] at hop
    obtain ⟨tr, -, -, -, t, -, hdb⟩ := hop
    cases hdb
    exact hsame rfl
  case failTask =>
    obtain ⟨⟨r, _⟩, hop, -, rfl⟩ := h
    simp only [RunMesh.failTask, bind_eq_ok] at hop
    obtain ⟨tr, -, t, -, hdb⟩ := hop
    cases hdb
    exact hsame rfl

/-- An operation of the store attaches artifacts to runs, and does nothing else to them. -/
theorem exec_artifacts (h : op.exec env db = .ok (reply, db')) :
    ∃ f, db'.artifacts = db.artifacts.map f ∧ ∀ a : Artifact, a.Attached (f a) := by
  obtain ⟨f, hrows, hf⟩ := exec_attaches h
  refine ⟨f, hrows, fun a => ?_⟩
  rcases hf a with heq | ⟨-, hattached⟩
  · rw [heq, Artifact.Attached]
  · exact hattached

end Rows

/-! ## One step -/

namespace ArtifactsIntact

variable {m : Manager} {s : ArtifactState}

/-- Rows that change their status or their run only, and whose objects are as declared once they
are `READY`. -/
theorem rows (h : ArtifactsIntact m s) {db' : Db} {f : Artifact → Artifact}
    (hrows : db'.artifacts = s.db.artifacts.map f)
    (hsame : ∀ a ∈ s.db.artifacts, SameUpload a (f a))
    (hstays : ∀ a ∈ s.db.artifacts, a.status = .ready → (f a).status = .ready)
    (hready : ∀ a ∈ s.db.artifacts, (f a).status = .ready → a.status ≠ .ready → ∀ checksum,
      a.checksumSha256 = some checksum → Intact m s.objects a checksum) :
    ArtifactsIntact m { s with db := db' } := by
  refine ⟨?_, fun b hb hst checksum hsum => ?_, fun c hc => ?_, h.verified, fun d hd => ?_⟩
  · have hids : (s.db.artifacts.map f).map Artifact.id = s.db.artifacts.map Artifact.id := by
      rw [List.map_map]
      exact List.map_congr_left fun a ha => (hsame a ha).1.symm
    rw [hrows, hids]
    exact h.nodup
  · rw [hrows] at hb
    obtain ⟨a, ha, rfl⟩ := List.mem_map.1 hb
    obtain ⟨-, -, hkey, hsize, hsums⟩ := hsame a ha
    have hintact : Intact m s.objects a checksum := by
      by_cases ha' : a.status = .ready
      · exact h.ready a ha ha' checksum (hsums.trans hsum)
      · exact hready a ha hst ha' checksum (hsums.trans hsum)
    obtain ⟨bytes, hobj, hlen, hhash⟩ := hintact
    exact ⟨bytes, hkey ▸ hobj, hlen.trans hsize, hhash⟩
  · obtain ⟨a, ha, hc⟩ := h.reading c hc
    obtain ⟨hid, htenant, hkey, hsize, hsums⟩ := hsame a ha
    refine ⟨f a, hrows ▸ List.mem_map_of_mem ha, ?_⟩
    exact ⟨hc.1.trans hid, hc.2.1.trans htenant, hc.2.2.1.trans hkey, hc.2.2.2.1.trans hsize,
      hc.2.2.2.2.trans hsums⟩
  · obtain ⟨a, ha, hid, hst, hkey⟩ := h.downloads d hd
    obtain ⟨hid', -, hkey', -, -⟩ := hsame a ha
    exact ⟨f a, hrows ▸ List.mem_map_of_mem ha, hid'.symm.trans hid, hstays a ha hst,
      hkey'.symm.trans hkey⟩

/-- An operation of the store. -/
theorem call (h : ArtifactsIntact m s) (c : Call) :
    ArtifactsIntact m { s with db := c.after s.db } := by
  cases he : c.exec s.db with
  | error e =>
    rw [Call.after_of_error he]
    exact h
  | ok r =>
    obtain ⟨reply, db'⟩ := r
    rw [Call.after_of_ok he]
    obtain ⟨f, hrows, hf⟩ := exec_artifacts he
    have hstatus : ∀ a, (f a).status = a.status := fun a => by rw [hf a]
    refine h.rows hrows (fun a _ => ?_) (fun a _ hst => (hstatus a).trans hst)
      fun a _ hst hne => absurd ((hstatus a).symm.trans hst) hne
    rw [hf a]
    exact ⟨rfl, rfl, rfl, rfl, rfl⟩

/-- A new upload. -/
theorem create (h : ArtifactsIntact m s) {env : Env} {u : AdmittedUpload} {db' : Db}
    {r : Artifact × SignedUrl} (hok : insertUpload m env u s.db = .ok (r, db'))
    (uploads : List SignedUrl) :
    ArtifactsIntact m { s with db := db', uploads := uploads } := by
  simp only [insertUpload, bind_eq_ok, require_eq_ok] at hok
  obtain ⟨-, hfree, hdb⟩ := hok
  cases hdb
  have hmem : ∀ a ∈ s.db.artifacts, a ∈ s.db.artifacts ++ [newArtifact m env u] :=
    fun a ha => List.mem_append_left _ ha
  refine ⟨?_, fun a ha hst => ?_, fun c hc => ?_, h.verified, fun d hd => ?_⟩
  · rw [List.map_append, List.nodup_append]
    refine ⟨h.nodup, by simp, fun i hi j hj hij => ?_⟩
    obtain ⟨a, ha, rfl⟩ := List.mem_map.1 hi
    have hne := List.all_eq_true.1 hfree a ha
    exact (of_decide_eq_true hne).1 (hij.trans (by simpa using hj))
  · rcases List.mem_append.1 ha with ha | ha
    · exact h.ready a ha hst
    · rw [List.mem_singleton.1 ha] at hst
      cases hst
  · obtain ⟨a, ha, hc⟩ := h.reading c hc
    exact ⟨a, hmem a ha, hc⟩
  · obtain ⟨a, ha, hd⟩ := h.downloads d hd
    exact ⟨a, hmem a ha, hd⟩

/-- A harmless write to an object that a `Complete` is looking at is as declared. -/
theorem asDeclared_of_harmless (h : ArtifactsIntact m s) {now : ℤ} {url : SignedUrl}
    {bytes : List UInt8} (hput : Harmless m s (.put now url bytes)) {c : Completion}
    (hc : c ∈ s.completions) (hlook : c.looking = true) (hkey : c.artifact.objectKey = url.key)
    {checksum : String} (hsum : c.artifact.checksumSha256 = some checksum) :
    AsDeclared m c.artifact checksum bytes := by
  obtain ⟨b, hb, hid, -, hkey', hsize, hsum'⟩ := h.reading c hc
  obtain ⟨hlen, hhash⟩ := hput b hb (hkey'.symm.trans hkey) (.inr ⟨c, hc, hlook, hid⟩) checksum
    (hsum'.symm.trans hsum)
  exact ⟨hlen.trans hsize.symm, hhash⟩

/-- A harmless write. -/
theorem put (h : ArtifactsIntact m s) {now : ℤ} {url : SignedUrl} {bytes : List UInt8}
    (hput : Harmless m s (.put now url bytes)) :
    ArtifactsIntact m { s with objects := Function.update s.objects url.key (some bytes) } := by
  refine ⟨h.nodup, fun a ha hst checksum hsum => ?_, h.reading, fun c hc => ?_, h.downloads⟩
  · by_cases hkey : a.objectKey = url.key
    · exact ⟨bytes, by simp [hkey], hput a ha hkey (.inl hst) checksum hsum⟩
    · obtain ⟨old, hobj, hold⟩ := h.ready a ha hst checksum hsum
      exact ⟨old, by simpa [hkey] using hobj, hold⟩
  · have hwrite : c.looking = true → c.artifact.objectKey = url.key → ∀ checksum,
        c.artifact.checksumSha256 = some checksum → AsDeclared m c.artifact checksum bytes :=
      fun hlook hkey checksum hsum => h.asDeclared_of_harmless hput hc hlook hkey hsum
    have hseen := h.verified c hc
    cases c with
    | head a => trivial
    | get a checksum size =>
      obtain ⟨hsum, hsize, old, hobj, hold⟩ := hseen
      refine ⟨hsum, hsize, ?_⟩
      by_cases hkey : a.objectKey = url.key
      · exact ⟨bytes, by simp [hkey], (hwrite rfl hkey checksum hsum).1⟩
      · exact ⟨old, by simpa [hkey] using hobj, hold⟩
    | finish a size =>
      refine ⟨hseen.1, fun checksum hsum => ?_⟩
      by_cases hkey : a.objectKey = url.key
      · exact ⟨bytes, by simp [hkey], hwrite rfl hkey checksum hsum⟩
      · obtain ⟨old, hobj, hold⟩ := hseen.2 checksum hsum
        exact ⟨old, by simpa [hkey] using hobj, hold⟩

/-- Other requests under way, each as good as those before. -/
theorem requests (h : ArtifactsIntact m s) {cs : List Completion}
    (hcs : ∀ c ∈ cs, c ∈ s.completions ∨
      (∃ b ∈ s.db.artifacts, SameUpload c.artifact b) ∧ c.Verified m s.objects) :
    ArtifactsIntact m { s with completions := cs } := by
  refine ⟨h.nodup, h.ready, fun c hc => ?_, fun c hc => ?_, h.downloads⟩
  · rcases hcs c hc with hold | hnew
    · exact h.reading c hold
    · exact hnew.1
  · rcases hcs c hc with hold | hnew
    · exact h.verified c hold
    · exact hnew.2

/-- A look at the object. -/
theorem look (h : ArtifactsIntact m s) {env : Env} {c c' : Completion} (hc : c ∈ s.completions)
    (hstep : c.step m env s.objects s.db = .ok (.inl c')) :
    (∃ b ∈ s.db.artifacts, SameUpload c'.artifact b) ∧ c'.Verified m s.objects := by
  have hread := h.reading c hc
  have hseen := h.verified c hc
  cases c with
  | head a =>
    simp only [Completion.step, map_eq_ok, Sum.inl.injEq, exists_eq_right, headObject, bind_eq_ok,
      orError_eq_ok, require_eq_ok, decide_eq_true_eq] at hstep
    obtain ⟨bytes, hobj, -, hlen, hnext⟩ := hstep
    split at hnext
    next checksum hsum =>
      cases hnext
      exact ⟨hread, hsum, hlen, bytes, hobj, hlen⟩
    next hsum =>
      cases hnext
      exact ⟨hread, hlen, fun checksum hsum' => by rw [hsum] at hsum'; cases hsum'⟩
  | get a checksum size =>
    simp only [Completion.step, map_eq_ok, Sum.inl.injEq, exists_eq_right, getObject, bind_eq_ok,
      orError_eq_ok, require_eq_ok, decide_eq_true_eq] at hstep
    obtain ⟨bytes, hobj, -, hhash, hnext⟩ := hstep
    cases hnext
    obtain ⟨hsum, hsize, old, hobj', hlen⟩ := hseen
    rw [hobj] at hobj'
    cases hobj'
    -- the object has the declared size, so the reader is not cut short
    rw [List.take_of_length_le (by omega)] at hhash
    refine ⟨hread, hsize, fun checksum' hsum' => ?_⟩
    rw [hsum] at hsum'
    cases hsum'
    exact ⟨bytes, hobj, hlen, hhash⟩
  | finish a size =>
    simp [Completion.step] at hstep

/-- The row is marked. -/
theorem finish (h : ArtifactsIntact m s) {env : Env} {c : Completion} {a' : Artifact} {db' : Db}
    (hc : c ∈ s.completions) (hstep : c.step m env s.objects s.db = .ok (.inr (a', db'))) :
    ArtifactsIntact m { s with db := db' } := by
  have hread := h.reading c hc
  have hseen := h.verified c hc
  cases c with
  | head a => simp [Completion.step] at hstep
  | get a checksum size => simp [Completion.step] at hstep
  | finish a size =>
    simp only [Completion.step, map_eq_ok, mapError_eq_ok, Sum.inr.injEq, exists_eq_right,
      completeArtifact, bind_eq_ok, orError_eq_ok] at hstep
    obtain ⟨row, -, hdb⟩ := hstep
    cases hdb
    obtain ⟨b, hb, hsame⟩ := hread
    refine h.rows rfl (fun e _ => ?_) (fun e _ hst => ?_) fun e he hst hne checksum hsum => ?_
    · split_ifs <;> exact ⟨rfl, rfl, rfl, rfl, rfl⟩
    · split_ifs
      · rfl
      · exact hst
    · split_ifs at hst with hpending
      · have hid : e.id = b.id := (of_decide_eq_true hpending).1.trans hsame.1
        obtain rfl := Table.eq_of_key h.nodup he hb hid
        obtain ⟨bytes, hobj, hlen, hhash⟩ := hseen.2 checksum (hsame.2.2.2.2.trans hsum)
        exact ⟨bytes, hsame.2.2.1 ▸ hobj, hlen.trans hsame.2.2.2.1, hhash⟩
      · exact absurd hst hne

/-- A download of a `READY` artifact. -/
theorem download (h : ArtifactsIntact m s) {env : Env} {tenantId : ℕ} {idOrURI : String}
    {a : Artifact} {url : SignedUrl}
    (hok : RunMesh.download m env tenantId idOrURI s.db = .ok (a, url)) :
    ArtifactsIntact m { s with downloads := s.downloads ++ [(a.id, url)] } := by
  refine ⟨h.nodup, h.ready, h.reading, h.verified, fun d hd => ?_⟩
  rcases List.mem_append.1 hd with hd | hd
  · exact h.downloads d hd
  · rw [List.mem_singleton.1 hd]
    simp only [RunMesh.download, bind_eq_ok, require_eq_ok, decide_eq_true_eq] at hok
    obtain ⟨b, hfind, -, hst, hout⟩ := hok
    cases hout
    refine ⟨a, mem_of_findArtifact hfind, rfl, hst, rfl⟩

/-- A step that does no harm. -/
theorem next (h : ArtifactsIntact m s) {l : ArtifactLabel} (hl : Harmless m s l) :
    ArtifactsIntact m (s.next m l) := by
  cases l with
  | create env tenantId userId req =>
    simp only [ArtifactState.next]
    split
    next r hok =>
      obtain ⟨u, -, hins⟩ := bind_eq_ok.1 hok
      exact h.create hins _
    next => exact h
  | put now url bytes => exact h.put hl
  | begin env tenantId id =>
    simp only [ArtifactState.next]
    split
    next a hget =>
      split_ifs with hready
      · exact h
      · refine h.requests fun c hc => ?_
        rcases List.mem_append.1 hc with hc | hc
        · exact .inl hc
        · rw [List.mem_singleton.1 hc]
          exact .inr ⟨⟨a, mem_of_getArtifact hget, rfl, rfl, rfl, rfl, rfl⟩, trivial⟩
    next => exact h
  | advance env i =>
    simp only [ArtifactState.next]
    split
    next => exact h
    next c hi =>
      have hc : c ∈ s.completions := List.mem_of_getElem? hi
      split
      next c' hstep =>
        refine h.requests fun d hd => ?_
        rcases List.mem_or_eq_of_mem_set hd with hd | rfl
        · exact .inl hd
        · exact .inr (h.look hc hstep)
      next r hstep =>
        exact (h.finish hc hstep).requests fun d hd => .inl (List.mem_of_mem_eraseIdx hd)
      next => exact h.requests fun d hd => .inl (List.mem_of_mem_eraseIdx hd)
  | download env tenantId idOrURI =>
    simp only [ArtifactState.next]
    split
    next r hok => exact h.download hok
    next => exact h
  | call c => exact h.call c

end ArtifactsIntact

/-! ## Whole runs -/

theorem ArtifactInit.intact {s : ArtifactState} (h : ArtifactInit s) (m : Manager) :
    ArtifactsIntact m s := by
  refine ⟨?_, fun a ha => ?_, fun c hc => ?_, fun c hc => ?_, fun d hd => ?_⟩
  · simp [h.artifacts]
  · simp [h.artifacts] at ha
  · simp [h.completions] at hc
  · simp [h.completions] at hc
  · simp [h.downloads] at hd

/-- In every run whose writes are harmless, the object of a `READY` artifact with a checksum has
the declared size and checksum in every state, and every download that was signed is for the
object of a `READY` artifact. -/
theorem ready_content_kept (m : Manager) {s : ArtifactState} (h : ArtifactInit s)
    {ls : List ArtifactLabel} (hputs : (artifactService m).Along (Harmless m) s ls) :
    let s' := (artifactService m).run s ls
    (∀ a ∈ s'.db.artifacts, a.status = .ready → ∀ checksum, a.checksumSha256 = some checksum →
      ∃ bytes, s'.objects a.objectKey = some bytes ∧ bytes.length = a.declaredSize ∧
        m.checksum bytes = checksum) ∧
    ∀ d ∈ s'.downloads, ∃ a ∈ s'.db.artifacts, a.id = d.1 ∧ a.status = .ready ∧
      a.objectKey = d.2.key := by
  have hintact : ArtifactsIntact m ((artifactService m).run s ls) := by
    refine (artifactService m).invariant_along (fun s l hs hl => ?_) (h.intact m) hputs
    -- the clock is the only difference
    obtain ⟨hnodup, hready, hreading, hverified, hdownloads⟩ := hs.next hl
    exact ⟨hnodup, hready, hreading, hverified, hdownloads⟩
  exact ⟨hintact.ready, hintact.downloads⟩

/-! ## A write after the verification -/

/-- The checksum of the byte `1`, in the sample. -/
def declaredSum : String :=
  .ofList (List.replicate 64 '1')

/-- A manager for which `[1]` has the declared checksum and nothing else has. -/
def sampleManager : Manager where
  uuid := unaryUuid
  bucket := "runmesh"
  expiry := 900 * second
  checksum bytes := if bytes = [1] then declaredSum else ""

/-- An empty bucket. -/
def emptyBucket : ArtifactState where
  db := ⟨[], [], [], [], [], [], [], []⟩
  objects _ := none
  uploads := []
  downloads := []
  completions := []
  clock := 0

/-- The URL the sample's upload gets. -/
def sampleUrl : SignedUrl :=
  ⟨"a/output/aaa", 900 * second⟩

/-- An upload of `[1]` that is completed and downloaded, and a second write before the URL
expires. -/
def uploadTwice (bytes : List UInt8) : List ArtifactLabel :=
  [.create (Env.at 0 3) 1 none ⟨"output", "", 1, declaredSum, none⟩, .put 1 sampleUrl [1],
    .begin (Env.at 2 9) 1 "aaa", .advance (Env.at 2 9) 0, .advance (Env.at 3 9) 0,
    .advance (Env.at 4 9) 0, .download (Env.at 5 9) 1 "aaa", .put 6 sampleUrl bytes]

theorem emptyBucket_init : ArtifactInit emptyBucket :=
  ⟨rfl, rfl, rfl, rfl⟩

/-- The sample's upload completes, and the same bytes again do no harm. -/
theorem ready_content_kept_uploadTwice :
    let s := (artifactService sampleManager).run emptyBucket (uploadTwice [1])
    (artifactService sampleManager).Along (Harmless sampleManager) emptyBucket (uploadTwice [1]) ∧
      (∃ a ∈ s.db.artifacts, a.status = .ready) ∧
      ∀ a ∈ s.db.artifacts, a.status = .ready → ∀ checksum, a.checksumSha256 = some checksum →
        ∃ bytes, s.objects a.objectKey = some bytes ∧ bytes.length = a.declaredSize ∧
          sampleManager.checksum bytes = checksum := by
  have hput : ∀ (s : ArtifactState) (now : ℤ),
      (∀ a ∈ s.db.artifacts, a.declaredSize = 1 ∧ a.checksumSha256 = some declaredSum) →
      Harmless sampleManager s (.put now sampleUrl [1]) := by
    intro s now hs a ha _ _ checksum hsum
    obtain ⟨hsize, hsum'⟩ := hs a ha
    rw [hsum'] at hsum
    cases hsum
    exact ⟨hsize.symm, rfl⟩
  have hputs : (artifactService sampleManager).Along (Harmless sampleManager) emptyBucket
      (uploadTwice [1]) :=
    ⟨trivial, hput _ 1 (by decide +kernel), trivial, trivial, trivial, trivial, trivial,
      hput _ 6 (by decide +kernel), trivial⟩
  exact ⟨hputs, by decide +kernel, (ready_content_kept sampleManager emptyBucket_init hputs).1⟩

/-- The URL of the upload is good for a second write after the artifact is `READY`, and the
download then serves other bytes. -/
theorem overwritten_after_ready :
    (artifactService sampleManager).Valid emptyBucket (uploadTwice [0]) ∧
      let s := (artifactService sampleManager).run emptyBucket (uploadTwice [0])
      ∃ a ∈ s.db.artifacts, a.status = .ready ∧ a.checksumSha256 = some declaredSum ∧
        s.objects a.objectKey = some [0] ∧ sampleManager.checksum [0] ≠ declaredSum ∧
        s.downloads.map (fun d => (d.1, d.2.key)) = [(a.id, a.objectKey)] := by
  decide +kernel

end RunMesh
