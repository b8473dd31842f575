import RunMesh.Auth

/-!
# Artifacts

`internal/artifact/manager.go` and `internal/storage/artifacts.go`. An artifact is a row with
the size, and possibly the SHA-256, its uploader declared, and an object of a bucket the
uploader writes with a presigned URL. The row is `PENDING` until `Manager.Complete` has looked
at the object.

`Complete` is a transaction that reads the row, one or two requests to the object store, and a
transaction that writes the row. They are separate steps, and `Completion` is what is left to do
between them, with the row that was read.
-/

namespace RunMesh

open Fallible

/-! ## The object store -/

/-- The objects of the bucket, by key. -/
abbrev Objects := String → Option (List UInt8)

/-- A presigned URL : the key it gives access to, and until when. -/
structure SignedUrl where
  key : String
  expiresAt : ℤ
  deriving DecidableEq, Repr

/-- What the manager is configured with, and `Checksum` of the bytes of an object. -/
structure Manager where
  uuid : UuidText
  bucket : String
  expiry : ℤ
  checksum : List UInt8 → String

/-! ## Kinds -/

/-- The kind a request names. -/
def artifactKindOf (text : String) : Option ArtifactKind :=
  if text = "input" then some .input
  else if text = "output" then some .output
  else if text = "log" then some .log
  else none

/-- The kind as a text. -/
def ArtifactKind.text : ArtifactKind → String
  | .input => "input"
  | .output => "output"
  | .log => "log"

/-- `MaxArtifactBytes`. -/
def maxArtifactBytes : ℕ :=
  100 * 2 ^ 20

/-- `MaxLogBytes`. -/
def maxLogBytes : ℕ :=
  10 * 2 ^ 20

/-- The limit of a kind. -/
def ArtifactKind.limit : ArtifactKind → ℕ
  | .log => maxLogBytes
  | _ => maxArtifactBytes

/-! ## Reading rows -/

/-- `Store.GetArtifact`. -/
def getArtifact (uuid : UuidText) (tenantId : ℕ) (id : String) (db : Db) :
    Except StoreError Artifact := do
  let value ← orError .database (uuid.value id)
  orError .notFound (db.artifacts.find? fun a => a.tenantId = tenantId ∧ a.id = value)

/-- `Store.GetArtifactByURI`. -/
def getArtifactByURI (tenantId : ℕ) (uri : String) (db : Db) : Except StoreError Artifact :=
  orError .notFound (db.artifacts.find? fun a => a.tenantId = tenantId ∧ a.objectUri = uri)

/-- `Store.TaskBelongsToTenant`. -/
def taskBelongsToTenant (uuid : UuidText) (taskId : String) (tenantId : ℕ) (db : Db) :
    Except StoreError Unit := do
  let value ← orError .database (uuid.value taskId)
  require .notFound (db.tasksWithRun.any fun tr => tr.1.id = value ∧ tr.2.tenantId = tenantId)

/-- `Store.ActiveTaskLeaseBelongsToWorker`. -/
def activeTaskLeaseBelongsToWorker (uuid : UuidText) (env : Env) (taskId : String) (tenantId : ℕ)
    (workerId : String) (db : Db) : Except StoreError Unit := do
  let value ← orError .database (uuid.value taskId)
  let tr ← orError .notFound (db.tasksWithRun.find? fun tr => tr.1.id = value)
  require .notFound (tr.2.tenantId = tenantId)
  require .leaseLost (tr.1.status.active ∧ tr.1.leaseOwner = some workerId ∧
    tr.1.leaseExpiresAt.any (env.now < ·) ∧ tr.2.status = .running)

/-! ## Creating an upload -/

/-- What a client asks to upload. -/
structure UploadRequest where
  kind : String
  contentType : String
  sizeBytes : ℤ
  checksumSha256 : String
  taskRunId : Option String
  deriving DecidableEq

/-- The errors of the manager : of the store, of the object store, or a text of its own. -/
inductive ManagerError
  | store (e : StoreError)
  | objectStore (context : String)
  | message (text : String)
  deriving DecidableEq, Repr

/-- A hexadecimal digit in lower case. -/
def isHexDigit (c : Char) : Bool :=
  ('0' ≤ c ∧ c ≤ '9') ∨ ('a' ≤ c ∧ c ≤ 'f')

/-- The checksum in lower case and without blanks, if it is empty or has 64 hexadecimal digits.
A text with a letter that is not ASCII is refused, in lower case too. -/
def normalizeChecksum (checksum : String) : Option String :=
  let checksum := (trimSpace checksum).toLower
  if checksum = "" ∨ checksum.length = 64 ∧ checksum.toList.all isHexDigit then some checksum
  else none

/-- An upload that passed the checks of `createUpload`. -/
structure AdmittedUpload where
  tenantId : ℕ
  userId : Option ℕ
  kind : ArtifactKind
  contentType : String
  size : ℕ
  /-- Empty if none was declared. -/
  checksum : String
  taskRunId : Option ℕ
  deriving DecidableEq

/-- The task of an upload, a task of the tenant if there is one. -/
def uploadTask (m : Manager) (tenantId : ℕ) (db : Db) :
    Option String → Except StoreError (Option ℕ)
  | none => .ok none
  | some task => do
    taskBelongsToTenant m.uuid task tenantId db
    pure (m.uuid.value task)

/-- The checks of `createUpload`, the last of which is a transaction. -/
def admitUpload (m : Manager) (tenantId : ℕ) (userId : Option ℕ) (req : UploadRequest) (db : Db) :
    Except ManagerError AdmittedUpload := do
  let kind ← orError (.message "invalid artifact kind") (artifactKindOf req.kind)
  require (.message s!"artifact size exceeds {kind.limit} bytes")
    (0 ≤ req.sizeBytes ∧ req.sizeBytes ≤ kind.limit)
  let checksum ← orError (.message "checksum_sha256 must be 64 hexadecimal characters")
    (normalizeChecksum req.checksumSha256)
  let contentType := if req.contentType = "" then "application/octet-stream" else req.contentType
  let task ← (uploadTask m tenantId db req.taskRunId).mapError .store
  pure ⟨tenantId, userId, kind, contentType, req.sizeBytes.toNat, checksum, task⟩

/-- The key of the object of an upload, `id` being the UUID of the artifact. -/
def objectKey (m : Manager) (u : AdmittedUpload) (id : ℕ) : String :=
  m.uuid.format u.tenantId ++ "/" ++ u.kind.text ++ "/" ++ m.uuid.format id

/-- The row of an upload. -/
def newArtifact (m : Manager) (env : Env) (u : AdmittedUpload) : Artifact where
  id := env.uuid 0
  tenantId := u.tenantId
  kind := u.kind
  status := .pending
  objectKey := objectKey m u (env.uuid 0)
  objectUri := "s3://" ++ m.bucket ++ "/" ++ objectKey m u (env.uuid 0)
  contentType := u.contentType
  declaredSize := u.size
  sizeBytes := none
  checksumSha256 := nullIfEmpty u.checksum
  workflowRunId := none
  taskRunId := u.taskRunId
  createdBy := u.userId
  readyAt := none
  createdAt := env.now

/-- `Store.CreateArtifact` for an upload, and the presigned URL. -/
def insertUpload (m : Manager) (env : Env) (u : AdmittedUpload) (db : Db) :
    Except ManagerError ((Artifact × SignedUrl) × Db) := do
  let a := newArtifact m env u
  -- the primary key, and the two `UNIQUE` columns
  require (.store .database) (db.artifacts.all fun b =>
    b.id ≠ a.id ∧ b.objectKey ≠ a.objectKey ∧ b.objectUri ≠ a.objectUri)
  pure ((a, ⟨a.objectKey, env.now + m.expiry⟩), { db with artifacts := db.artifacts ++ [a] })

/-! ## Completing an upload -/

/-- What is left of a `Complete`, for the row it read. -/
inductive Completion
  /-- `HeadObject`. -/
  | head (a : Artifact)
  /-- `GetObject`, the size being the declared one. -/
  | get (a : Artifact) (checksum : String) (size : ℕ)
  /-- `CompleteArtifact`. -/
  | finish (a : Artifact) (size : ℕ)
  deriving DecidableEq

/-- `HeadObject` and the comparison of the size. -/
def headObject (objects : Objects) (a : Artifact) : Except ManagerError Completion := do
  let bytes ← orError (.objectStore "inspect uploaded artifact") (objects a.objectKey)
  require (.store .conflict) (bytes.length = a.declaredSize)
  match a.checksumSha256 with
  | some checksum => pure (.get a checksum bytes.length)
  | none => pure (.finish a bytes.length)

/-- `GetObject` and the comparison of the checksum. No more than one byte past the declared size
is read. -/
def getObject (m : Manager) (objects : Objects) (a : Artifact) (checksum : String) (size : ℕ) :
    Except ManagerError Completion := do
  let bytes ← orError (.objectStore "verify artifact checksum") (objects a.objectKey)
  require (.store .conflict) (m.checksum (bytes.take (a.declaredSize + 1)) = checksum)
  pure (.finish a size)

/-- The columns `CompleteArtifact` sets. -/
def readyRow (env : Env) (size : ℕ) (a : Artifact) : Artifact :=
  { a with status := .ready, sizeBytes := some size, readyAt := some env.now }

/-- `Store.CompleteArtifact`. -/
def completeArtifact (env : Env) (tenantId id size : ℕ) (db : Db) :
    Except StoreError (Artifact × Db) := do
  let pending := fun a : Artifact => decide
    (a.id = id ∧ a.tenantId = tenantId ∧ a.status = .pending ∧ a.declaredSize = size)
  let a ← orError .conflict (Table.returning pending (readyRow env size) db.artifacts).head?
  pure (a, { db with artifacts := Table.update pending (readyRow env size) db.artifacts })

/-- The next step of a `Complete` : what is left after it, or the row and the database. -/
def Completion.step (m : Manager) (env : Env) (objects : Objects) (db : Db) :
    Completion → Except ManagerError (Completion ⊕ Artifact × Db)
  | .head a => (headObject objects a).map .inl
  | .get a checksum size => (getObject m objects a checksum size).map .inl
  | .finish a size =>
    ((completeArtifact env a.tenantId a.id size db).mapError .store).map .inr

/-! ## Downloading -/

/-- The artifact `idOrURI` names. -/
def findArtifact (uuid : UuidText) (tenantId : ℕ) (idOrURI : String) (db : Db) :
    Except StoreError Artifact :=
  if "s3://".toList.isPrefixOf idOrURI.toList then getArtifactByURI tenantId idOrURI db
  else getArtifact uuid tenantId idOrURI db

/-- `Manager.download`. -/
def download (m : Manager) (env : Env) (tenantId : ℕ) (idOrURI : String) (db : Db) :
    Except StoreError (Artifact × SignedUrl) := do
  let a ← findArtifact m.uuid tenantId idOrURI db
  require .conflict (a.status = .ready)
  pure (a, ⟨a.objectKey, env.now + m.expiry⟩)

end RunMesh
