import RunMesh.Auth
import RunMesh.Trace
import Mathlib.Data.List.Induction

/-!
# The life of an API key

Administrators create, rotate and revoke keys, in any order and for any tenants, and anyone
presents strings. `KeyEvent` is the log of what was issued and revoked, as the administrators
saw it. `grantOf` reads off it what a key was created with, and `latest` the token last issued
for a key, with whether the key was revoked since.

The table keeps no token, only the hash of the last one, and a rotation also clears a
revocation. `KeysLogged` ties each row to the log : its hash is the hash of the latest token,
and it is revoked exactly if the log says so. Every token names its key (`TokenOf`), since the
id it was issued with has no underscore, whatever the secret has (`apiKeyID_of_tokenOf`). So a
string is accepted exactly if it is the latest token of a key that was not revoked since and
has not expired (`authenticateAPIKey_iff`).
-/

namespace RunMesh

open Fallible

variable {cfg : KeyConfig}

/-! ## The log -/

/-- What was issued and what was revoked. -/
inductive KeyEvent
  | created (id tenantId : ℕ) (scopes : List String) (expiresAt : Option ℤ) (token : String)
  | rotated (id : ℕ) (token : String)
  | revoked (id : ℕ)
  deriving DecidableEq, Repr

/-- The key and the token of an issue. -/
def KeyEvent.issue : KeyEvent → Option (ℕ × String)
  | .created id _ _ _ token | .rotated id token => some (id, token)
  | .revoked _ => none

/-- What a key is created with. -/
structure KeyGrant where
  tenantId : ℕ
  scopes : List String
  expiresAt : Option ℤ
  deriving DecidableEq, Repr

/-- What the event grants to the key `id`. -/
def KeyEvent.grant (id : ℕ) : KeyEvent → Option KeyGrant
  | .created i tenantId scopes expiresAt _ =>
    if i = id then some ⟨tenantId, scopes, expiresAt⟩ else none
  | _ => none

/-- What the key `id` was created with. -/
def grantOf (id : ℕ) (log : List KeyEvent) : Option KeyGrant :=
  log.findSome? (KeyEvent.grant id)

/-- The latest token of the key `id` after one more event, and whether it is revoked. -/
def KeyEvent.follow (id : ℕ) (latest : Option (String × Bool)) : KeyEvent → Option (String × Bool)
  | .created i _ _ _ token | .rotated i token => if i = id then some (token, false) else latest
  | .revoked i => if i = id then latest.map fun l => (l.1, true) else latest

/-- The token last issued for the key `id`, and whether the key was revoked since. -/
def latest (id : ℕ) (log : List KeyEvent) : Option (String × Bool) :=
  log.foldl (KeyEvent.follow id) none

theorem grantOf_append (id : ℕ) (log es : List KeyEvent) :
    grantOf id (log ++ es) = (grantOf id log).or (grantOf id es) :=
  List.findSome?_append

theorem latest_append (id : ℕ) (log es : List KeyEvent) :
    latest id (log ++ es) = es.foldl (KeyEvent.follow id) (latest id log) :=
  List.foldl_append

/-- The latest token was issued. -/
theorem mem_of_latest {id : ℕ} {log : List KeyEvent} {token : String} {revoked : Bool}
    (h : latest id log = some (token, revoked)) : (id, token) ∈ log.filterMap KeyEvent.issue := by
  induction log using List.reverseRecOn generalizing revoked with
  | nil => cases h
  | append_singleton log e ih =>
    rw [latest_append, List.foldl_cons, List.foldl_nil] at h
    rw [List.filterMap_append, List.mem_append]
    cases e with
    | created i _ _ _ tok =>
      simp only [KeyEvent.follow] at h
      split_ifs at h with hi
      · cases h
        exact .inr (by simp [KeyEvent.issue, hi])
      · exact .inl (ih h)
    | rotated i tok =>
      simp only [KeyEvent.follow] at h
      split_ifs at h with hi
      · cases h
        exact .inr (by simp [KeyEvent.issue, hi])
      · exact .inl (ih h)
    | revoked i =>
      simp only [KeyEvent.follow] at h
      split_ifs at h with hi
      · obtain ⟨⟨tok, b⟩, hl, heq⟩ := Option.map_eq_some_iff.1 h
        cases heq
        exact .inl (ih hl)
      · exact .inl (ih h)

/-! ## Tokens name their key -/

/-- The token was issued for the key `id`, under one of the spellings of its id. -/
def TokenOf (cfg : KeyConfig) (id : ℕ) (token : String) : Prop :=
  ∃ (text : String) (secret : Secret), token = "rm_" ++ text ++ "_" ++ secret.text ∧
    cfg.uuid.parses text = true ∧ cfg.uuid.value text = some id

/-- `APIKeyID` recovers the id of a token. -/
theorem apiKeyID_of_tokenOf {id : ℕ} {token : String} (h : TokenOf cfg id token) :
    ∃ text, apiKeyID cfg token = some text ∧ cfg.uuid.value text = some id := by
  obtain ⟨text, secret, rfl, hparses, hvalue⟩ := h
  have hsplit : splitN '_' 3 ("rm_" ++ text ++ "_" ++ secret.text).toList =
      [['r', 'm'], text.toList, secret.text.toList] := by
    have hrm : ("rm_" ++ text ++ "_" ++ secret.text).toList =
        ['r', 'm'] ++ '_' :: (text.toList ++ '_' :: secret.text.toList) := by
      simp [String.toList_append]
    rw [hrm, splitN_append (by decide), splitN_append (cfg.uuid.underscore_notMem text id hvalue)]
    rfl
  have hsecret : secret.text.toList ≠ [] := fun hnil =>
    secret.nonempty (String.toList_inj.1 hnil)
  refine ⟨text, ?_, hvalue⟩
  rw [apiKeyID, hsplit]
  simp [hparses, hsecret]

theorem tokenOf_of_generate {text token hash : String} {secret : Secret} {id : ℕ}
    (h : generateAPIKeyForID cfg text secret = some (token, hash))
    (hvalue : cfg.uuid.value text = some id) :
    TokenOf cfg id token ∧ hash = hashAPIKey cfg token := by
  unfold generateAPIKeyForID at h
  split_ifs at h with hparses
  cases h
  exact ⟨⟨text, secret, rfl, hparses, hvalue⟩, rfl⟩

/-! ## The service -/

/-- The requests, and the presentation of a string. -/
inductive KeyRequest
  | create (principal : Principal) (request : ApiKeyRequest)
  | rotate (principal : Principal) (id : String)
  | revoke (principal : Principal) (id : String)
  | authenticate (raw : String)

/-- A request with the time and the random values it runs with. -/
structure KeyCall where
  env : Env
  secret : Secret
  request : KeyRequest

/-- Run the request : what it issued or revoked, and the tables. -/
def KeyCall.exec (cfg : KeyConfig) (c : KeyCall) (t : KeyTables) :
    Except Refusal (List KeyEvent × KeyTables) :=
  match c.request with
  | .create principal request =>
    (Server.createAPIKey cfg c.env c.secret principal request t).map fun r =>
      ([.created r.1.1.id principal.tenantId request.scopes request.expiresAt r.1.2], r.2)
  | .rotate principal id =>
    (Server.rotateAPIKey cfg c.env c.secret principal id t).map fun r =>
      ([.rotated r.1.1.id r.1.2], r.2)
  | .revoke principal id =>
    (Server.revokeAPIKey cfg c.env principal id t).map fun t =>
      ((cfg.uuid.value id).toList.map .revoked, t)
  | .authenticate raw =>
    ((authenticateAPIKey cfg c.env.now raw t.apiKeys).mapError fun _ =>
      ⟨401, "unauthenticated"⟩).map fun r => ([], { t with apiKeys := r.2 })

/-- The tables with the log. A request that is refused changes neither. -/
def keyService (cfg : KeyConfig) : Machine (KeyTables × List KeyEvent) KeyCall where
  next s c :=
    match c.exec cfg s.1 with
    | .ok r => (r.2, s.2 ++ r.1)
    | .error _ => s
  allowed _ _ := True

/-- A key that was issued before the service runs, as the one the migrations insert. -/
structure SeedKey (cfg : KeyConfig) where
  key : ApiKey
  token : String
  tokenOf : TokenOf cfg key.id token
  hash : key.keyHash = hashAPIKey cfg token
  live : key.revokedAt = none

/-- The creation of a seed. -/
def SeedKey.created (seed : SeedKey cfg) : KeyEvent :=
  .created seed.key.id seed.key.tenantId seed.key.scopes seed.key.expiresAt seed.token

/-- The table of the seeds. -/
def seeded (seeds : List (SeedKey cfg)) (audit : List AuditEvent) : KeyTables × List KeyEvent :=
  (⟨seeds.map SeedKey.key, audit⟩, seeds.map SeedKey.created)

/-! ## Rows and log agree -/

/-- The row is what the log says of its key. -/
structure RowLogged (cfg : KeyConfig) (log : List KeyEvent) (k : ApiKey) : Prop where
  grant : grantOf k.id log = some ⟨k.tenantId, k.scopes, k.expiresAt⟩
  latest : ∃ token, latest k.id log = some (token, k.revokedAt.isSome) ∧
    k.keyHash = hashAPIKey cfg token

/-- The rows are what the log says, and so are the keys without a row. -/
structure KeysLogged (cfg : KeyConfig) (keys : List ApiKey) (log : List KeyEvent) : Prop where
  nodup : (keys.map ApiKey.id).Nodup
  row : ∀ k ∈ keys, RowLogged cfg log k
  absent : ∀ id ∉ keys.map ApiKey.id, latest id log = none ∧ grantOf id log = none
  tokens : ∀ i ∈ log.filterMap KeyEvent.issue, TokenOf cfg i.1 i.2

namespace KeysLogged

variable {keys : List ApiKey} {log : List KeyEvent}

/-- A new key. -/
theorem create (h : KeysLogged cfg keys log) {k : ApiKey} {token : String}
    (hnew : k.id ∉ keys.map ApiKey.id) (hlive : k.revokedAt = none)
    (htoken : TokenOf cfg k.id token) (hhash : k.keyHash = hashAPIKey cfg token) :
    KeysLogged cfg (keys ++ [k])
      (log ++ [.created k.id k.tenantId k.scopes k.expiresAt token]) := by
  have hother : ∀ id, k.id ≠ id →
      latest id (log ++ [.created k.id k.tenantId k.scopes k.expiresAt token]) = latest id log ∧
      grantOf id (log ++ [.created k.id k.tenantId k.scopes k.expiresAt token]) =
        grantOf id log := by
    intro id hid
    rw [latest_append, grantOf_append]
    simp [KeyEvent.follow, grantOf, KeyEvent.grant, hid]
  obtain ⟨hnone, hgrant⟩ := h.absent k.id hnew
  refine ⟨?_, fun j hj => ?_, fun id hid => ?_, fun i hi => ?_⟩
  · rw [List.map_append, List.nodup_append]
    refine ⟨h.nodup, by simp, fun a ha b hb hab => hnew ?_⟩
    rw [List.map_singleton, List.mem_singleton] at hb
    rwa [← hb, ← hab]
  · rcases List.mem_append.1 hj with hj | hj
    · have hid : k.id ≠ j.id := fun heq => hnew (heq ▸ List.mem_map_of_mem hj)
      obtain ⟨hl, hg⟩ := hother j.id hid
      obtain ⟨hrow, hlatest⟩ := h.row j hj
      exact ⟨hg.trans hrow, hl ▸ hlatest⟩
    · rw [List.mem_singleton.1 hj]
      refine ⟨?_, token, ?_, hhash⟩
      · rw [grantOf_append, hgrant]
        simp [grantOf, KeyEvent.grant]
      · rw [latest_append]
        simp [KeyEvent.follow, hlive]
  · rw [List.map_append, List.mem_append, not_or, List.map_singleton, List.mem_singleton] at hid
    obtain ⟨hl, hg⟩ := hother id fun heq => hid.2 heq.symm
    rw [hl, hg]
    exact h.absent id hid.1
  · rw [List.filterMap_append, List.mem_append] at hi
    rcases hi with hi | hi
    · exact h.tokens i hi
    · simp only [KeyEvent.issue, List.filterMap_cons, List.filterMap_nil,
        List.mem_singleton] at hi
      rw [hi]
      exact htoken

/-- A write to the row of one key, with what is logged of it. -/
theorem write (h : KeysLogged cfg keys log) {k : ApiKey} (hk : k ∈ keys) {f : ApiKey → ApiKey}
    {es : List KeyEvent} (hkey : (f k).id = k.id)
    (hgrant : (f k).tenantId = k.tenantId ∧ (f k).scopes = k.scopes ∧ (f k).expiresAt = k.expiresAt)
    (hnogrant : ∀ id, grantOf id es = none)
    (hother : ∀ id, id ≠ k.id → latest id (log ++ es) = latest id log)
    (hlatest : ∃ token, latest k.id (log ++ es) = some (token, (f k).revokedAt.isSome) ∧
      (f k).keyHash = hashAPIKey cfg token)
    (htokens : ∀ i ∈ es.filterMap KeyEvent.issue, TokenOf cfg i.1 i.2) :
    KeysLogged cfg (Table.update (fun j => j.id = k.id) f keys) (log ++ es) := by
  have hgrants : ∀ id, grantOf id (log ++ es) = grantOf id log := fun id => by
    rw [grantOf_append, hnogrant, Option.or_none]
  have hids : (Table.update (fun j => j.id = k.id) f keys).map ApiKey.id = keys.map ApiKey.id := by
    rw [Table.update, List.map_map]
    refine List.map_congr_left fun j hj => ?_
    by_cases hid : j.id = k.id
    · simp [Table.eq_of_key h.nodup hj hk hid, hkey]
    · simp [hid]
  refine ⟨hids ▸ h.nodup, fun j hj => ?_, fun id hid => ?_, fun i hi => ?_⟩
  · obtain ⟨j, hmem, rfl⟩ := Table.mem_update.1 hj
    by_cases hid : j.id = k.id
    · rw [Table.eq_of_key h.nodup hmem hk hid, if_pos (by simp)]
      refine ⟨?_, hkey ▸ hlatest⟩
      rw [hkey, hgrants, (h.row k hk).grant, hgrant.1, hgrant.2.1, hgrant.2.2]
    · rw [if_neg (by simpa using hid)]
      exact ⟨(hgrants j.id).trans (h.row j hmem).grant, (hother j.id hid) ▸ (h.row j hmem).latest⟩
  · rw [hids] at hid
    have hne : id ≠ k.id := fun heq => hid (heq ▸ List.mem_map_of_mem hk)
    rw [hother id hne, hgrants]
    exact h.absent id hid
  · rw [List.filterMap_append, List.mem_append] at hi
    exact hi.elim (h.tokens i) (htokens i)

end KeysLogged

/-- The seeds are logged. -/
theorem keysLogged_seeded (seeds : List (SeedKey cfg)) (audit : List AuditEvent)
    (hseeds : (seeds.map fun seed => seed.key.id).Nodup) :
    KeysLogged cfg (seeded seeds audit).1.apiKeys (seeded seeds audit).2 := by
  induction seeds using List.reverseRecOn with
  | nil => exact ⟨List.nodup_nil, by simp [seeded], fun _ _ => ⟨rfl, rfl⟩, by simp [seeded]⟩
  | append_singleton seeds seed ih =>
    rw [List.map_append, List.nodup_append] at hseeds
    have hnew : seed.key.id ∉ (seeds.map SeedKey.key).map ApiKey.id := by
      rw [List.map_map]
      exact fun hmem => hseeds.2.2 _ hmem _ (by simp) rfl
    simpa [seeded, SeedKey.created] using
      (ih hseeds.1).create hnew seed.live seed.tokenOf seed.hash

/-! ## One request -/

variable {env : Env} {secret : Secret} {principal : Principal} {t t' : KeyTables}

/-- What a creation appends. -/
theorem createAPIKey_ok {request : ApiKeyRequest} {key : ApiKey} {token : String}
    (h : Server.createAPIKey cfg env secret principal request t = .ok ((key, token), t')) :
    t'.apiKeys = t.apiKeys ++ [key] ∧ key.id ∉ t.apiKeys.map ApiKey.id ∧
      key.revokedAt = none ∧ TokenOf cfg key.id token ∧ key.keyHash = hashAPIKey cfg token ∧
      key.tenantId = principal.tenantId ∧ key.scopes = request.scopes ∧
      key.expiresAt = request.expiresAt := by
  simp only [Server.createAPIKey, RunMesh.createAPIKey, bind_eq_ok, require_eq_ok, orError_eq_ok,
    mapError_eq_ok, Prod.exists] at h
  obtain ⟨-, -, -, -, -, -, -, -, tok, hash, hgen, k, t₁, ⟨-, hfree, hrow⟩, hout⟩ := h
  cases hrow
  cases hout
  obtain ⟨htoken, hhash⟩ := tokenOf_of_generate hgen (cfg.uuid.value_format _)
  refine ⟨rfl, fun hmem => ?_, rfl, htoken, hhash, rfl, rfl, rfl⟩
  obtain ⟨k, hk, hid⟩ := List.mem_map.1 hmem
  have hne := List.all_eq_true.1 hfree k hk
  exact (of_decide_eq_true hne).1 hid

/-- What a rotation writes. -/
theorem rotateAPIKey_ok {text : String} {key : ApiKey} {token : String}
    (hnodup : (t.apiKeys.map ApiKey.id).Nodup)
    (h : Server.rotateAPIKey cfg env secret principal text t = .ok ((key, token), t')) :
    ∃ k ∈ t.apiKeys, key.id = k.id ∧ TokenOf cfg k.id token ∧
      t'.apiKeys = Table.update (fun j => j.id = k.id) (rotateRow (hashAPIKey cfg token))
        t.apiKeys := by
  simp only [Server.rotateAPIKey, RunMesh.rotateAPIKey, bind_eq_ok, require_eq_ok, orError_eq_ok,
    mapError_eq_ok, Prod.exists] at h
  obtain ⟨-, -, -, -, tok, hash, hgen, key', t₁, ⟨id, hvalue, -, -, row, hrow, hret⟩, hout⟩ := h
  cases hret
  cases hout
  obtain ⟨htoken, rfl⟩ := tokenOf_of_generate hgen hvalue
  obtain ⟨k, hk, howned, rfl⟩ := Table.head?_returning hrow
  have hid : k.id = id := (of_decide_eq_true howned).1
  refine ⟨k, hk, rfl, hid ▸ htoken, ?_⟩
  refine Table.update_eq_of_key hnodup hk howned (fun j _ hj => ?_) _
  exact (of_decide_eq_true hj).1.trans hid.symm

/-- What a revocation writes. -/
theorem revokeAPIKey_ok {text : String} (hnodup : (t.apiKeys.map ApiKey.id).Nodup)
    (h : Server.revokeAPIKey cfg env principal text t = .ok t') :
    ∃ k ∈ t.apiKeys, cfg.uuid.value text = some k.id ∧
      t'.apiKeys = Table.update (fun j => j.id = k.id)
        (fun j => { j with revokedAt := some env.now }) t.apiKeys := by
  simp only [Server.revokeAPIKey, RunMesh.revokeAPIKey, bind_eq_ok, require_eq_ok, orError_eq_ok,
    mapError_eq_ok] at h
  obtain ⟨-, -, id, hvalue, -, hany, hout⟩ := h
  cases hout
  obtain ⟨k, hk, hlive⟩ := List.any_eq_true.1 hany
  have hid : k.id = id := (of_decide_eq_true hlive).1
  refine ⟨k, hk, hid ▸ hvalue, ?_⟩
  refine Table.update_eq_of_key hnodup hk hlive (fun j _ hj => ?_) _
  exact (of_decide_eq_true hj).1.trans hid.symm

/-- Who is accepted, and what is written. -/
theorem authenticateAPIKey_ok_iff {now : ℤ} {raw : String} {keys keys' : List ApiKey}
    {p : Principal} :
    authenticateAPIKey cfg now raw keys = .ok (p, keys') ↔
      ∃ text id k, apiKeyID cfg raw = some text ∧ cfg.uuid.value text = some id ∧
        keys.find? (fun k => k.id = id ∧ k.revokedAt = none) = some k ∧
        hashAPIKey cfg raw = k.keyHash ∧ k.expiresAt.all (now < ·) = true ∧ p = k.principal ∧
        keys' = Table.update (fun j => j.id = id) (fun j => { j with lastUsedAt := some now })
          keys := by
  simp only [authenticateAPIKey, bind_eq_ok, orError_eq_ok, require_eq_ok, decide_eq_true_eq]
  constructor
  · rintro ⟨text, htext, id, hid, k, hk, -, ⟨hhash, hexp⟩, hout⟩
    cases hout
    exact ⟨text, id, k, htext, hid, hk, hhash, hexp, rfl, rfl⟩
  · rintro ⟨text, id, k, htext, hid, hk, hhash, hexp, rfl, rfl⟩
    exact ⟨text, htext, id, hid, k, hk, (), ⟨hhash, hexp⟩, rfl⟩

/-- A request keeps rows and log together. -/
theorem exec_keysLogged {c : KeyCall} {log es : List KeyEvent}
    (h : KeysLogged cfg t.apiKeys log) (hok : c.exec cfg t = .ok (es, t')) :
    KeysLogged cfg t'.apiKeys (log ++ es) := by
  unfold KeyCall.exec at hok
  split at hok
  next principal request _ =>
    obtain ⟨⟨⟨key, token⟩, t₁⟩, hcreate, heq⟩ := map_eq_ok.1 hok
    cases heq
    obtain ⟨hrows, hnew, hlive, htoken, hhash, htenant, hscopes, hexp⟩ := createAPIKey_ok hcreate
    rw [hrows]
    simpa only [htenant, hscopes, hexp] using h.create hnew hlive htoken hhash
  next principal text _ =>
    obtain ⟨⟨⟨key, token⟩, t₁⟩, hrotate, heq⟩ := map_eq_ok.1 hok
    cases heq
    obtain ⟨k, hk, hid, htoken, hrows⟩ := rotateAPIKey_ok h.nodup hrotate
    simp only [hrows, hid]
    refine h.write hk rfl ⟨rfl, rfl, rfl⟩ (fun _ => rfl) (fun id hne => ?_) ⟨token, ?_, rfl⟩ ?_
    · rw [latest_append]
      simp [KeyEvent.follow, hne.symm]
    · rw [latest_append]
      simp [KeyEvent.follow, rotateRow]
    · simpa [KeyEvent.issue] using htoken
  next principal text _ =>
    obtain ⟨t₁, hrevoke, heq⟩ := map_eq_ok.1 hok
    cases heq
    obtain ⟨k, hk, hvalue, hrows⟩ := revokeAPIKey_ok h.nodup hrevoke
    obtain ⟨token, hlatest, hhash⟩ := (h.row k hk).latest
    simp only [hrows, hvalue, Option.toList_some, List.map_singleton]
    refine h.write hk rfl ⟨rfl, rfl, rfl⟩ (fun _ => rfl) (fun id hne => ?_) ⟨token, ?_, hhash⟩ ?_
    · rw [latest_append]
      simp [KeyEvent.follow, hne.symm]
    · rw [latest_append, hlatest]
      simp [KeyEvent.follow]
    · simp [KeyEvent.issue]
  next raw _ =>
    obtain ⟨⟨p, keys⟩, hauth, heq⟩ := map_eq_ok.1 hok
    cases heq
    obtain ⟨text, id, k, -, -, hfind, -, -, -, hkeys⟩ :=
      authenticateAPIKey_ok_iff.1 (mapError_eq_ok.1 hauth)
    have hk := List.mem_of_find?_eq_some hfind
    have hid : k.id = id := (show k.id = id ∧ k.revokedAt = none by
      simpa using List.find?_some hfind).1
    simp only [hkeys, ← hid]
    refine h.write hk rfl ⟨rfl, rfl, rfl⟩ (fun _ => rfl) (fun id hne => ?_) ?_ ?_
    · rw [List.append_nil]
    · rw [List.append_nil]
      exact (h.row k hk).latest
    · simp

/-! ## Whole histories -/

/-- Rows and log agree after every history. -/
theorem run_keysLogged {seeds : List (SeedKey cfg)} (audit : List AuditEvent)
    (hseeds : (seeds.map fun seed => seed.key.id).Nodup) (cs : List KeyCall) :
    KeysLogged cfg ((keyService cfg).run (seeded seeds audit) cs).1.apiKeys
      ((keyService cfg).run (seeded seeds audit) cs).2 := by
  induction cs using List.reverseRecOn with
  | nil => exact keysLogged_seeded seeds audit hseeds
  | append_singleton cs c ih =>
    rw [Machine.run_snoc]
    simp only [keyService]
    split
    next es t' hok => exact exec_keysLogged ih hok
    next => exact ih

/-- The string is the latest token of a key that was not revoked since and has not expired,
and `p` has the tenant and the scopes the key was created with. -/
def Honoured (log : List KeyEvent) (now : ℤ) (raw : String) (p : Principal) : Prop :=
  ∃ id grant, grantOf id log = some grant ∧ latest id log = some (raw, false) ∧
    (∀ e, grant.expiresAt = some e → now < e) ∧
    p = ⟨grant.tenantId, none, .viewer, .apiKey, grant.scopes⟩

/-- The inputs of the hash in a history after which `raw` is presented. -/
def hashInputs (cfg : KeyConfig) (log : List KeyEvent) (raw : String) : Set String :=
  insert (cfg.hashInput raw) {x | ∃ i ∈ log.filterMap KeyEvent.issue, x = cfg.hashInput i.2}

/-- A string is accepted exactly if the log honours it. -/
theorem KeysLogged.accepts_iff {keys : List ApiKey} {log : List KeyEvent}
    (h : KeysLogged cfg keys log) {raw : String}
    (hinj : Set.InjOn cfg.sha256 (hashInputs cfg log raw)) (now : ℤ) (p : Principal) :
    (∃ keys', authenticateAPIKey cfg now raw keys = .ok (p, keys')) ↔ Honoured log now raw p := by
  constructor
  · rintro ⟨keys', hok⟩
    obtain ⟨text, id, k, -, -, hfind, hhash, hexp, rfl, -⟩ := authenticateAPIKey_ok_iff.1 hok
    have hk := List.mem_of_find?_eq_some hfind
    have hlive : k.id = id ∧ k.revokedAt = none := by simpa using List.find?_some hfind
    obtain ⟨hgrant, token, hlatest, hrow⟩ := h.row k hk
    rw [hlive.2] at hlatest
    have hinput : cfg.hashInput raw = cfg.hashInput token :=
      hinj (.inl rfl) (.inr ⟨_, mem_of_latest hlatest, rfl⟩) (hhash.trans hrow)
    have htoken : raw = token := (String.append_right_inj _).1 hinput
    refine ⟨k.id, _, hgrant, htoken ▸ hlatest, fun e he => ?_, rfl⟩
    have he : k.expiresAt = some e := he
    simpa [he] using hexp
  · rintro ⟨id, grant, hgrant, hlatest, hexp, rfl⟩
    obtain ⟨text, htext, hvalue⟩ := apiKeyID_of_tokenOf (h.tokens _ (mem_of_latest hlatest))
    have hmem : id ∈ keys.map ApiKey.id := by
      by_contra habsent
      rw [(h.absent id habsent).1] at hlatest
      cases hlatest
    obtain ⟨k, hk, rfl⟩ := List.mem_map.1 hmem
    obtain ⟨hrow, token, hrowLatest, hhash⟩ := h.row k hk
    rw [hlatest] at hrowLatest
    rw [hgrant] at hrow
    cases hrow
    obtain ⟨rfl, hlive⟩ : raw = token ∧ false = k.revokedAt.isSome := by simpa using hrowLatest
    have hnone : k.revokedAt = none := by simpa using hlive.symm
    refine ⟨_, authenticateAPIKey_ok_iff.2
      ⟨text, k.id, k, htext, hvalue, ?_, hhash.symm, ?_, rfl, rfl⟩⟩
    · refine Table.find?_of_key h.nodup hk (by simp [hnone]) fun j _ hj => ?_
      exact (show j.id = k.id ∧ j.revokedAt = none by simpa using hj).1
    · cases he : k.expiresAt with
      | none => rfl
      | some e => simpa using hexp e he

/-- After every history of creations, rotations and revocations, a string is accepted at a time
`now` exactly if it is the latest token of some key, the key was not revoked since and has not
expired, and the principal has the tenant and the scopes of the creation. Every token that was
ever issued names its key. -/
theorem authenticateAPIKey_iff {seeds : List (SeedKey cfg)} {audit : List AuditEvent}
    (hseeds : (seeds.map fun seed => seed.key.id).Nodup) {cs : List KeyCall} {t : KeyTables}
    {log : List KeyEvent} (hrun : (keyService cfg).run (seeded seeds audit) cs = (t, log))
    {raw : String} (hinj : Set.InjOn cfg.sha256 (hashInputs cfg log raw)) (now : ℤ) :
    (∀ p, (∃ keys', authenticateAPIKey cfg now raw t.apiKeys = .ok (p, keys')) ↔
        Honoured log now raw p) ∧
      ∀ i ∈ log.filterMap KeyEvent.issue, ∃ text, apiKeyID cfg i.2 = some text ∧
        cfg.uuid.value text = some i.1 := by
  have h := run_keysLogged audit hseeds cs
  rw [hrun] at h
  exact ⟨h.accepts_iff hinj now, fun i hi => apiKeyID_of_tokenOf (h.tokens i hi)⟩

/-- Keys over unary UUIDs, with an injective function for the hash. -/
def unaryKeys : KeyConfig := ⟨unaryUuid, id, "pepper", id⟩

/-- An administrator creates a key and rotates it. -/
def rotatedKey : List KeyCall :=
  let admin : Principal := ⟨1, some 7, .admin, .oidc, []⟩
  let env : Env := ⟨10, 0, fun n => n + 3, ""⟩
  [⟨env, ⟨"s_1", by decide⟩, .create admin ⟨"ci", ["runs:read"], some 90⟩⟩,
    ⟨env, ⟨"s_2", by decide⟩, .rotate admin "aaa"⟩]

/-- The tables and the log after the rotation. -/
def afterRotation : KeyTables × List KeyEvent :=
  (keyService unaryKeys).run (seeded ([] : List (SeedKey unaryKeys)) []) rotatedKey

/-- After the rotation the second token is accepted and the first is not. -/
theorem authenticateAPIKey_iff_rotatedKey :
    (∃ keys', authenticateAPIKey unaryKeys 20 "rm_aaa_s_2" afterRotation.1.apiKeys =
      .ok (⟨1, none, .viewer, .apiKey, ["runs:read"]⟩, keys')) ∧
    (∀ p, ¬∃ keys', authenticateAPIKey unaryKeys 20 "rm_aaa_s_1" afterRotation.1.apiKeys =
      .ok (p, keys')) ∧
    ∃ text, apiKeyID unaryKeys "rm_aaa_s_1" = some text ∧ unaryUuid.value text = some 3 := by
  have hinj : ∀ log raw, Set.InjOn unaryKeys.sha256 (hashInputs unaryKeys log raw) :=
    fun _ _ => Function.injective_id.injOn
  have hlog : afterRotation.2 =
      [.created 3 1 ["runs:read"] (some 90) "rm_aaa_s_1", .rotated 3 "rm_aaa_s_2"] := by
    decide +kernel
  have hnodup : (([] : List (SeedKey unaryKeys)).map fun seed => seed.key.id).Nodup :=
    List.nodup_nil
  have hrun : (keyService unaryKeys).run (seeded ([] : List (SeedKey unaryKeys)) []) rotatedKey =
      (afterRotation.1, afterRotation.2) := rfl
  obtain ⟨hsecond, hnames⟩ :=
    authenticateAPIKey_iff hnodup hrun (hinj _ "rm_aaa_s_2") 20
  obtain ⟨hfirst, -⟩ := authenticateAPIKey_iff hnodup hrun (hinj _ "rm_aaa_s_1") 20
  rw [hlog] at hsecond hnames hfirst
  refine ⟨(hsecond _).2 ⟨3, ⟨1, ["runs:read"], some 90⟩, by decide, by decide, ?_, rfl⟩,
    fun p hok => ?_, hnames (3, "rm_aaa_s_1") (by decide)⟩
  · rintro e ⟨⟩
    decide
  · obtain ⟨id, grant, hgrant, hlatest, -, -⟩ := (hfirst p).1 hok
    have hid : 3 = id := by
      by_contra hne
      simp [grantOf, KeyEvent.grant, hne] at hgrant
    subst hid
    exact absurd hlatest (by decide)

end RunMesh
