import RunMesh.Schedules

/-!
# Principals and API keys

`internal/auth/auth.go` and `internal/storage/api_keys.go`, with the handlers of
`internal/api/server.go` that manage keys. A token is `rm_<id>_<secret>`, and the table
`api_keys` has the hash of the last token issued for each key. `authenticateAPIKey` reads the
id off the token, finds the key, and compares the hashes.

The text of an id comes from the client. `UuidText` is what the UUID library and PostgreSQL
do with such a text : the library accepts several spellings, the token of a rotated key has
the spelling of the request, and PostgreSQL reads the spellings it accepts as a number.
SHA-256 is a parameter, and so is the secret of a token, the encoding of 32 random bytes.
-/

namespace RunMesh

open Fallible

/-! ## Principals -/

/-- The enum `user_role`. -/
inductive Role
  | viewer | operator | developer | admin
  deriving DecidableEq, Repr

/-- The table `roleLevel`. -/
def roleLevel : Role → ℕ
  | .viewer => 1
  | .operator => 2
  | .developer => 3
  | .admin => 4

/-- The field `Kind` of a principal. -/
inductive PrincipalKind
  | development | oidc | apiKey
  deriving DecidableEq, Repr

/-- Who makes a request. An API key has no user. -/
structure Principal where
  tenantId : ℕ
  userId : Option ℕ
  role : Role
  kind : PrincipalKind
  scopes : List String
  deriving DecidableEq, Repr

/-- `HasScope`. -/
def hasScope (principal : Principal) (required : String) : Bool :=
  principal.scopes.any fun scope => scope = required

/-- The check of `Require`. -/
def requireRole (role : Role) (scope : String) (principal : Principal) : Except Refusal Unit :=
  if principal.kind = .apiKey then require ⟨403, "insufficient scope"⟩ (hasScope principal scope)
  else require ⟨403, "forbidden"⟩ (roleLevel role ≤ roleLevel principal.role)

/-- The check of `RequireHumanRole`. -/
def requireHumanRole (role : Role) (principal : Principal) : Except Refusal Unit :=
  require ⟨403, "interactive administrator required"⟩
    (principal.kind ≠ .apiKey ∧ roleLevel role ≤ roleLevel principal.role)

/-- The response of `handleErr` to an error of the store. All texts about a DAG have `workflow ` or
`task ` in them. -/
def handleErr (quote : String → String) : StoreError → Refusal
  | .notFound => ⟨404, "resource not found"⟩
  | .conflict => ⟨409, "operation conflicts with current state"⟩
  | .leaseLost => ⟨409, "worker no longer owns this task"⟩
  | .invalidDag e => ⟨422, e.message quote⟩
  | .nameRequired => ⟨422, "name is required"⟩
  | .idempotencyKeyRequired => ⟨422, "idempotency key is required"⟩
  | .noRows | .database => ⟨500, "internal server error"⟩

/-! ## Tokens -/

/-- UUIDs as texts. -/
structure UuidText where
  /-- `uuid.Parse` accepts the text. -/
  parses : String → Bool
  /-- The value PostgreSQL reads in the text, if it accepts it. -/
  value : String → Option ℕ
  /-- `UUID.String`. -/
  format : ℕ → String
  parses_format : ∀ u, parses (format u) = true
  value_format : ∀ u, value (format u) = some u
  /-- PostgreSQL accepts hexadecimal digits, hyphens and braces only. -/
  underscore_notMem : ∀ text u, value text = some u → '_' ∉ text.toList
  slash_notMem : ∀ text u, value text = some u → '/' ∉ text.toList

/-- UUIDs in unary. -/
def unaryUuid : UuidText where
  parses text := text.toList.all (· = 'a')
  value text := if text.toList.all (· = 'a') then some text.length else none
  format u := .ofList (List.replicate u 'a')
  parses_format u := by simp
  value_format u := by simp
  underscore_notMem text u h := by
    split_ifs at h with hall
    intro hmem
    simpa using List.all_eq_true.1 hall _ hmem
  slash_notMem text u h := by
    split_ifs at h with hall
    intro hmem
    simpa using List.all_eq_true.1 hall _ hmem

/-- `strings.SplitN` at a character, over the characters of the text. -/
def splitN (sep : Char) : ℕ → List Char → List (List Char)
  | 0, _ => []
  | 1, s => [s]
  | n + 2, s =>
    if sep ∈ s then
      s.takeWhile (· ≠ sep) :: splitN sep (n + 1) (s.dropWhile (· ≠ sep)).tail
    else [s]

/-- The text before a separator is split off. -/
theorem splitN_append {sep : Char} {s : List Char} (hs : sep ∉ s) (n : ℕ) (rest : List Char) :
    splitN sep (n + 2) (s ++ sep :: rest) = s :: splitN sep (n + 1) rest := by
  have hall : ∀ c ∈ s, decide (c ≠ sep) = true := fun c hc => by
    simpa using fun heq : c = sep => hs (heq ▸ hc)
  rw [splitN, if_pos (by simp), List.takeWhile_append_of_pos hall,
    List.dropWhile_append_of_pos hall]
  simp

/-- The encoding of the random bytes of a token, 43 characters. -/
structure Secret where
  text : String
  nonempty : text ≠ ""

/-- What keys are issued and checked with : UUID texts, SHA-256 and the pepper, and the verb
`%q` of the error texts. -/
structure KeyConfig where
  uuid : UuidText
  sha256 : String → String
  pepper : String
  quote : String → String

/-- The input of the hash of a token. -/
def KeyConfig.hashInput (cfg : KeyConfig) (token : String) : String :=
  cfg.pepper ++ "\x00" ++ token

/-- `HashAPIKey`. -/
def hashAPIKey (cfg : KeyConfig) (token : String) : String :=
  cfg.sha256 (cfg.hashInput token)

/-- `GenerateAPIKeyForID` : the token and its hash, if the library accepts the id. -/
def generateAPIKeyForID (cfg : KeyConfig) (id : String) (secret : Secret) :
    Option (String × String) :=
  if cfg.uuid.parses id then
    let token := "rm_" ++ id ++ "_" ++ secret.text
    some (token, hashAPIKey cfg token)
  else none

/-- `APIKeyID`. -/
def apiKeyID (cfg : KeyConfig) (token : String) : Option String :=
  match splitN '_' 3 token.toList with
  | [rm, id, secret] =>
    if rm = ['r', 'm'] ∧ cfg.uuid.parses (.ofList id) ∧ secret ≠ [] then some (.ofList id)
    else none
  | _ => none

/-! ## The table of keys -/

/-- A row of `api_keys`. -/
structure ApiKey where
  id : ℕ
  tenantId : ℕ
  name : String
  keyHash : String
  scopes : List String
  expiresAt : Option ℤ
  revokedAt : Option ℤ
  createdBy : Option ℕ
  lastUsedAt : Option ℤ
  createdAt : ℤ
  deriving DecidableEq, Repr

/-- The tables the key operations write. -/
structure KeyTables where
  apiKeys : List ApiKey
  auditEvents : List AuditEvent
  deriving DecidableEq

/-- `Store.CreateAPIKey`. The error of the audit row is dropped. -/
def createAPIKey (env : Env) (id tenantId : ℕ) (userId : Option ℕ) (name : String)
    (scopes : List String) (expiresAt : Option ℤ) (hash : String) (t : KeyTables) :
    Except StoreError (ApiKey × KeyTables) := do
  require .database (t.apiKeys.all fun k => k.id ≠ id ∧ k.keyHash ≠ hash)
  let key : ApiKey := ⟨id, tenantId, name, hash, scopes, expiresAt, none, userId, none, env.now⟩
  let auditEvents := (insertAuditEvent keyAuditParameters
    (newAuditEvent env tenantId userId "api_key.create" "api_key" id) t.auditEvents).toOption
  pure (key, ⟨t.apiKeys ++ [key], auditEvents.getD t.auditEvents⟩)

/-- The columns a rotation sets. -/
def rotateRow (hash : String) (k : ApiKey) : ApiKey :=
  { k with keyHash := hash, lastUsedAt := none, revokedAt := none }

/-- `Store.RotateAPIKey`. -/
def rotateAPIKey (cfg : KeyConfig) (env : Env) (idText : String) (tenantId : ℕ)
    (userId : Option ℕ) (hash : String) (t : KeyTables) :
    Except StoreError (ApiKey × KeyTables) := do
  let id ← orError .database (cfg.uuid.value idText)
  let owned := fun k : ApiKey => decide (k.id = id ∧ k.tenantId = tenantId)
  require .database (¬(t.apiKeys.any owned ∧ t.apiKeys.any fun k => k.id ≠ id ∧ k.keyHash = hash))
  let key ← orError .notFound (Table.returning owned (rotateRow hash) t.apiKeys).head?
  pure (key, ⟨Table.update owned (rotateRow hash) t.apiKeys,
    t.auditEvents ++ [newAuditEvent env tenantId userId "api_key.rotate" "api_key" id]⟩)

/-- `Store.RevokeAPIKey`. -/
def revokeAPIKey (cfg : KeyConfig) (env : Env) (idText : String) (tenantId : ℕ)
    (userId : Option ℕ) (t : KeyTables) : Except StoreError KeyTables := do
  let id ← orError .database (cfg.uuid.value idText)
  let live := fun k : ApiKey => decide (k.id = id ∧ k.tenantId = tenantId ∧ k.revokedAt = none)
  require .notFound (t.apiKeys.any live)
  pure ⟨Table.update live (fun k => { k with revokedAt := some env.now }) t.apiKeys,
    t.auditEvents ++ [newAuditEvent env tenantId userId "api_key.revoke" "api_key" id]⟩

/-! ## The handlers -/

/-- The map `allowedAPIKeyScopes`. -/
def allowedAPIKeyScopes : List String :=
  ["workflows:read", "workflows:write", "runs:read", "runs:execute", "schedules:write",
    "workers:read", "workers:execute", "dead-letter:read", "dead-letter:replay",
    "artifacts:read", "artifacts:write"]

/-- The body of a request for a key. -/
structure ApiKeyRequest where
  name : String
  scopes : List String
  expiresAt : Option ℤ
  deriving DecidableEq

/-- `unicode.IsSpace`. -/
def isSpace (c : Char) : Bool :=
  let n := c.toNat
  (9 ≤ n && n ≤ 13) || n = 0x20 || n = 0x85 || n = 0xA0 || n = 0x1680 ||
    (0x2000 ≤ n && n ≤ 0x200a) || n = 0x2028 || n = 0x2029 || n = 0x202f || n = 0x205f ||
    n = 0x3000

/-- `strings.TrimSpace`. -/
def trimSpace (s : String) : String :=
  .ofList (((s.toList.dropWhile isSpace).reverse.dropWhile isSpace).reverse)

namespace Server

/-- `Server.createAPIKey` : the row and the token. -/
def createAPIKey (cfg : KeyConfig) (env : Env) (secret : Secret) (principal : Principal)
    (request : ApiKeyRequest) (t : KeyTables) : Except Refusal ((ApiKey × String) × KeyTables) := do
  requireHumanRole .admin principal
  let name := trimSpace request.name
  require ⟨422, "name and at least one scope are required"⟩
    (name ≠ "" ∧ name.utf8ByteSize ≤ 100 ∧ request.scopes ≠ [])
  require ⟨422, "invalid or duplicate API key scope"⟩
    (request.scopes.Nodup ∧ ∀ scope ∈ request.scopes, scope ∈ allowedAPIKeyScopes)
  require ⟨422, "expires_at must be in the future"⟩ (request.expiresAt.all (env.now < ·))
  let id := env.uuid 0
  let (token, hash) ← orError ⟨500, "internal server error"⟩
    (generateAPIKeyForID cfg (cfg.uuid.format id) secret)
  let (key, t) ← (RunMesh.createAPIKey env id principal.tenantId principal.userId name
    request.scopes request.expiresAt hash t).mapError (handleErr cfg.quote)
  pure ((key, token), t)

/-- `Server.rotateAPIKey`, for the id in the path. -/
def rotateAPIKey (cfg : KeyConfig) (env : Env) (secret : Secret) (principal : Principal)
    (id : String) (t : KeyTables) : Except Refusal ((ApiKey × String) × KeyTables) := do
  requireHumanRole .admin principal
  require ⟨400, "invalid API key id"⟩ (cfg.uuid.parses id)
  let (token, hash) ← orError ⟨500, "internal server error"⟩ (generateAPIKeyForID cfg id secret)
  let (key, t) ← (RunMesh.rotateAPIKey cfg env id principal.tenantId principal.userId hash
    t).mapError (handleErr cfg.quote)
  pure ((key, token), t)

/-- `Server.revokeAPIKey`, for the id in the path. -/
def revokeAPIKey (cfg : KeyConfig) (env : Env) (principal : Principal) (id : String)
    (t : KeyTables) : Except Refusal KeyTables := do
  requireHumanRole .admin principal
  (RunMesh.revokeAPIKey cfg env id principal.tenantId principal.userId t).mapError
    (handleErr cfg.quote)

end Server

/-! ## Authentication -/

/-- The principal of a key. -/
def ApiKey.principal (k : ApiKey) : Principal :=
  ⟨k.tenantId, none, .viewer, .apiKey, k.scopes⟩

/-- `Authenticator.authenticateAPIKey`, at the time `now`. What fails is the format, the query
or the comparison. -/
def authenticateAPIKey (cfg : KeyConfig) (now : ℤ) (raw : String) (keys : List ApiKey) :
    Except String (Principal × List ApiKey) := do
  let id ← orError "malformed API key" (apiKeyID cfg raw)
  let value ← orError "invalid input syntax for type uuid" (cfg.uuid.value id)
  let k ← orError "no rows in result set" (keys.find? fun k => k.id = value ∧ k.revokedAt = none)
  require "invalid API key" (hashAPIKey cfg raw = k.keyHash ∧ k.expiresAt.all (now < ·))
  pure (k.principal, Table.update (fun k => k.id = value)
    (fun k => { k with lastUsedAt := some now }) keys)

end RunMesh
