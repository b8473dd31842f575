import RunMesh.Rights
import RunMesh.Traffic

/-!
# Mediation

The rights of `RunMesh.Rights`, over histories of the service. A request keeps the principal it
was authenticated as, so each of its transactions has a right behind it, however many other
requests, operations of the scheduler and writes to the bucket come between them
(`changes_have_rights`).

A principal that may only read changes nothing (`readers_change_nothing`). And the keys of a
tenant change only if an interactive administrator of the tenant makes a request
(`keys_need_administrator`) : a key can neither widen its scopes nor make other keys, and no
tenant can make keys of another.
-/

namespace RunMesh

open Fallible Handler

variable {cfg : ApiConfig} {p : Principal} {d : Draw} {b : Backend} {T : ℕ}

/-! ## Authentication -/

/-- A key without the time of its last use. -/
def ApiKey.unused (k : ApiKey) : ApiKey :=
  { k with lastUsedAt := none }

/-- The keys of a tenant, without the times they were used. -/
def Backend.keysOf (s : Backend) (tenantId : ℕ) : List ApiKey :=
  (s.apiKeys.filter fun k => k.tenantId = tenantId).map ApiKey.unused

/-- Only times of use differ. -/
structure Backend.SameButUse (s s' : Backend) : Prop where
  rest : { s' with apiKeys := s.apiKeys } = s
  keys : s'.apiKeys.map ApiKey.unused = s.apiKeys.map ApiKey.unused

theorem Backend.SameButUse.refl (s : Backend) : s.SameButUse s :=
  ⟨rfl, rfl⟩

theorem Backend.SameButUse.db {s s' : Backend} (h : s.SameButUse s') : s'.db = s.db := by
  obtain ⟨hrest, -⟩ := h
  rw [← hrest]

theorem Backend.SameButUse.keysOf {s s' : Backend} (h : s.SameButUse s') :
    s'.keysOf T = s.keysOf T := by
  have hcomm : ∀ keys : List ApiKey,
      (keys.filter fun k => k.tenantId = T).map ApiKey.unused =
        (keys.map ApiKey.unused).filter fun k => k.tenantId = T := by
    intro keys
    rw [List.filter_map]
    rfl
  unfold Backend.keysOf
  rw [hcomm, hcomm, h.keys]

theorem Credential.authenticate_sameButUse (cfg : ApiConfig) (c : Credential) (d : Draw)
    (s : Backend) : s.SameButUse (c.authenticate cfg d s).2 := by
  cases c with
  | development p => exact .refl s
  | oidc p => exact .refl s
  | apiKey raw =>
    simp only [Credential.authenticate]
    split
    · rename_i p keys hok
      obtain ⟨_, id, _, -, -, -, -, -, -, rfl⟩ := authenticateAPIKey_ok_iff.1 hok
      refine ⟨rfl, ?_⟩
      rw [Table.map_update]
      exact fun _ => rfl
    · exact .refl s

theorem Request.authenticate_sameButUse (cfg : ApiConfig) (req : Request) (d : Draw)
    (s : Backend) : s.SameButUse (req.authenticate cfg d s).2 := by
  obtain ⟨c, e⟩ := req
  have hworker : s.SameButUse (c.authenticateWorker cfg d s).2 := by
    cases c with
    | development p => exact .refl s
    | oidc p => exact Credential.authenticate_sameButUse cfg (.oidc p) d s
    | apiKey raw => exact Credential.authenticate_sameButUse cfg (.apiKey raw) d s
  cases e with
  | http e => exact c.authenticate_sameButUse cfg d s
  | worker e => exact hworker
  | rpc m => exact hworker

/-- The principal of a route of the workers has their scope. It is the one of the public routes,
or a developer. -/
theorem Credential.of_authenticateWorker {c : Credential} {s : Backend}
    (h : (c.authenticateWorker cfg d s).1 = some p) : Right.worker.Grants p ∧
      ((∃ q, c = .development q ∧ q.tenantId = p.tenantId ∧ q.role = p.role) ∨
        (c.authenticate cfg d s).1 = some p) := by
  cases c with
  | development q =>
    cases h
    exact ⟨by simp [Right.Grants, hasScope], .inl ⟨q, rfl, rfl, rfl⟩⟩
  | oidc | apiKey =>
    simp only [Credential.authenticateWorker, Option.filter_eq_some_iff, decide_eq_true_eq] at h
    exact ⟨h.2.2, .inr h.1⟩

theorem Request.admits {req : Request} {s : Backend}
    (h : (req.authenticate cfg d s).1 = some p) : req.endpoint.Admits p := by
  obtain ⟨c, e⟩ := req
  cases e with
  | http e => trivial
  | worker e => exact (Credential.of_authenticateWorker h).1
  | rpc m => exact (Credential.of_authenticateWorker h).1

/-- The credential of an interactive administrator of the tenant. -/
def Credential.administers (tenantId : ℕ) : Credential → Bool
  | development p | oidc p => p.tenantId = tenantId ∧ p.role = .admin
  | apiKey _ => false

theorem admin_of_grants (h : (Right.human .admin).Grants p) :
    p.kind ≠ .apiKey ∧ p.role = .admin := by
  simp only [Right.Grants, requireHumanRole, require_eq_ok, decide_eq_true_eq] at h
  obtain ⟨hkind, hrole⟩ := h
  cases hp : p.role <;> simp_all [roleLevel]

theorem Credential.administers_of_authenticate {c : Credential} {s : Backend}
    (h : (c.authenticate cfg d s).1 = some p) (hp : (Right.human .admin).Grants p) :
    c.administers p.tenantId = true := by
  obtain ⟨hkind, hrole⟩ := admin_of_grants hp
  cases c with
  | development | oidc =>
    cases h
    simpa [Credential.administers] using hrole
  | apiKey raw =>
    obtain ⟨keys', hok⟩ := Credential.authenticate_apiKey_fst.1 h
    obtain ⟨_, _, k, -, -, -, -, -, rfl, -⟩ := authenticateAPIKey_ok_iff.1 hok
    exact absurd rfl hkind

/-- Who is accepted as an administrator has the credential of one. -/
theorem Request.administers {req : Request} {s : Backend}
    (h : (req.authenticate cfg d s).1 = some p) (hp : (Right.human .admin).Grants p) :
    req.credential.administers p.tenantId = true := by
  obtain ⟨c, e⟩ := req
  have hworker : (c.authenticateWorker cfg d s).1 = some p →
      c.administers p.tenantId = true := by
    intro h
    rcases (Credential.of_authenticateWorker h).2 with ⟨q, rfl, htenant, hrole⟩ | hauth
    · exact decide_eq_true ⟨htenant, hrole.trans (admin_of_grants hp).2⟩
    · exact Credential.administers_of_authenticate hauth hp
  cases e with
  | http e => exact Credential.administers_of_authenticate h hp
  | worker e => exact hworker h
  | rpc m => exact hworker h

/-! ## Requests in flight -/

section Flights

variable {R : Draw → Backend → Backend → Prop} {Q : Response → Prop} {s : Traffic}

/-- A request in flight keeps its contract, whatever happens next. -/
theorem Traffic.next_within {n : ℕ} {f : Flight} (hn : s.requests[n]? = some f)
    (hf : f.code.Within R Q) (e : TrafficEvent) :
    ∃ f', ((traffic cfg).next s e).requests[n]? = some f' ∧ f'.code.Within R Q := by
  have hlt := (List.getElem?_eq_some_iff.1 hn).1
  cases e with
  | arrive req d =>
    simp only [traffic]
    split
    · exact ⟨f, hn, hf⟩
    · exact ⟨f, by rw [List.getElem?_append_left hlt, hn], hf⟩
  | proceed m d =>
    simp only [traffic]
    split
    · rename_i tenantId after rest hm
      by_cases hmn : m = n
      · subst hmn
        cases hn.symm.trans hm
        exact ⟨_, List.getElem?_set_self hlt, (hf d s.backend).2⟩
      · exact ⟨f, by rw [List.getElem?_set_ne hmn, hn], hf⟩
    · exact ⟨f, hn, hf⟩
  | background env op =>
    simp only [traffic]
    split <;> exact ⟨f, hn, hf⟩
  | reschedule rows => exact ⟨f, hn, hf⟩
  | object key content => exact ⟨f, hn, hf⟩

/-- A request in flight keeps its contract over a history. -/
theorem Traffic.run_within {n : ℕ} {f : Flight} (hn : s.requests[n]? = some f)
    (hf : f.code.Within R Q) (es : List TrafficEvent) :
    ∃ f', ((traffic cfg).run s es).requests[n]? = some f' ∧ f'.code.Within R Q := by
  induction es generalizing s f with
  | nil => exact ⟨f, hn, hf⟩
  | cons e es ih =>
    obtain ⟨f', hn', hf'⟩ := Traffic.next_within hn hf e
    exact ih hn' hf'

/-- The next transaction of a request that keeps its contract. -/
theorem Traffic.proceed_within {n : ℕ} {f : Flight} (hn : s.requests[n]? = some f)
    (hf : f.code.Within R Q) (hrefl : ∀ d b, R d b b) (d : Draw) :
    R d s.backend ((traffic cfg).next s (.proceed n d)).backend := by
  simp only [traffic]
  split
  · rename_i tenantId after rest hm
    cases hn.symm.trans hm
    exact (hf d s.backend).1
  · exact hrefl d s.backend

/-- If those in flight keep a contract and the one that arrives does, then all do next. -/
theorem Traffic.forall_next_within (h : ∀ f ∈ s.requests, f.code.Within R Q) {e : TrafficEvent}
    (he : ∀ req d p b, e = .arrive req d → req.authenticate cfg d s.backend = (some p, b) →
      (req.endpoint.handler cfg p).Within R Q) :
    ∀ f ∈ ((traffic cfg).next s e).requests, f.code.Within R Q := by
  cases e with
  | arrive req d =>
    simp only [traffic]
    split
    · exact h
    · rename_i p b hauth
      intro f hf
      rcases List.mem_append.1 hf with hf | hf
      · exact h f hf
      · rw [List.mem_singleton.1 hf]
        exact he req d p b rfl hauth
  | proceed n d =>
    simp only [traffic]
    split
    · rename_i tenantId after rest hn
      intro f hf
      rcases List.mem_or_eq_of_mem_set hf with hf | rfl
      · exact h f hf
      · exact (h _ (List.mem_of_getElem? hn) d s.backend).2
    · exact h
  | background env op =>
    simp only [traffic]
    split <;> exact h
  | reschedule rows => exact h
  | object key content => exact h

/-- The request that arrives. -/
theorem Traffic.next_arrive {req : Request}
    (hauth : req.authenticate cfg d s.backend = (some p, b)) :
    (traffic cfg).next s (.arrive req d) =
      ⟨b, s.requests ++ [⟨p.tenantId, req.endpoint.handler cfg p⟩]⟩ := by
  simp only [traffic, hauth]

/-- The transactions of a request after it was authenticated, in any history. -/
theorem Traffic.arrive_within {req : Request}
    (hauth : req.authenticate cfg d s.backend = (some p, b)) (es : List TrafficEvent)
    (d' : Draw) :
    Touches p d' ((traffic cfg).run s (.arrive req d :: es)).backend
      ((traffic cfg).next ((traffic cfg).run s (.arrive req d :: es))
        (.proceed s.requests.length d')).backend := by
  have hn : ((traffic cfg).next s (.arrive req d)).requests[s.requests.length]? =
      some ⟨p.tenantId, req.endpoint.handler cfg p⟩ := by
    rw [next_arrive hauth]
    exact List.getElem?_concat_length
  have hadmits : req.endpoint.Admits p := Request.admits (congrArg Prod.fst hauth)
  obtain ⟨f, hf, hwithin⟩ := run_within hn (Endpoint.within hadmits) es
  exact proceed_within hf hwithin (fun _ _ => .nothing) d'

end Flights

/-! ## Changes have rights -/

/-- A request is authenticated as a principal. After any history, its next transaction changes
nothing, or it changes what a right of this principal is for : it executes one operation of the
store, or writes the artifacts, the schedules, the keys of the principal's own tenant or the
heartbeats of workers. Authentication itself writes times of use of keys only. -/
theorem changes_have_rights {s : Traffic} {req : Request}
    (hauth : req.authenticate cfg d s.backend = (some p, b)) :
    s.backend.SameButUse b ∧ ∀ es d',
      Touches p d' ((traffic cfg).run s (.arrive req d :: es)).backend
        ((traffic cfg).next ((traffic cfg).run s (.arrive req d :: es))
          (.proceed s.requests.length d')).backend := by
  refine ⟨?_, fun es d' => Traffic.arrive_within hauth es d'⟩
  have := req.authenticate_sameButUse cfg d s.backend
  rwa [hauth] at this

/-- The request of a developer for a run. -/
theorem changes_have_rights_createRun :
    ∃ b, quietTraffic.backend.SameButUse b ∧ Touches developer quietTraffic.draw b
      (quietTraffic.after unaryApi
        [.ask (.http (.createRun "a" "key" "" "")), .proceed 0]).backend := by
  have hauth : (⟨.development developer, .http (.createRun "a" "key" "" "")⟩ : Request).authenticate
      unaryApi quietTraffic.draw quietTraffic.backend =
        (some developer, quietTraffic.backend) := rfl
  obtain ⟨hsame, htouches⟩ := changes_have_rights hauth
  exact ⟨_, hsame, htouches [] quietTraffic.draw⟩

/-! ## Readers -/

/-- The scopes to read. -/
def readScopes : List String :=
  ["workflows:read", "runs:read", "workers:read", "dead-letter:read", "artifacts:read"]

/-- A key with scopes to read only, or a viewer who is no worker. -/
def Principal.readOnly (p : Principal) : Bool :=
  if p.kind = .apiKey then p.scopes.all fun scope => decide (scope ∈ readScopes)
  else p.role = .viewer ∧ hasScope p "workers:execute" = false

theorem hasScope_of_readScopes {scope : String}
    (h : (p.scopes.all fun scope => decide (scope ∈ readScopes)) = true)
    (hscope : scope ∉ readScopes) : hasScope p scope = false := by
  rw [hasScope, List.any_eq_false]
  intro other hother heq
  have hread := List.all_eq_true.1 h other hother
  exact hscope (of_decide_eq_true heq ▸ of_decide_eq_true hread)

/-- A reader has no right but to read. -/
theorem not_grants_of_readOnly (h : p.readOnly = true) :
    (∀ role scope, .viewer ≠ role → scope ∉ readScopes → ¬(Right.role role scope).Grants p) ∧
      ¬(Right.human .admin).Grants p ∧ ¬Right.worker.Grants p := by
  unfold Principal.readOnly at h
  split_ifs at h with hkind
  · refine ⟨fun role scope _ hscope hgrant => ?_, fun hgrant => ?_, fun hgrant => ?_⟩
    · simp only [Right.Grants, requireRole, if_pos hkind, require_eq_ok,
        hasScope_of_readScopes h hscope] at hgrant
      exact Bool.false_ne_true hgrant
    · exact (admin_of_grants hgrant).1 hkind
    · have hnone : hasScope p "workers:execute" = false := hasScope_of_readScopes h (by decide)
      exact Bool.false_ne_true (hnone.symm.trans hgrant)
  · obtain ⟨hviewer, hworker⟩ := of_decide_eq_true h
    refine ⟨fun role scope hrole _ hgrant => ?_, fun hgrant => ?_, fun hgrant => ?_⟩
    · simp only [Right.Grants, requireRole, if_neg hkind, require_eq_ok, decide_eq_true_eq,
        hviewer] at hgrant
      cases role <;> simp_all [roleLevel]
    · exact absurd (hviewer.symm.trans (admin_of_grants hgrant).2) (by decide)
    · exact Bool.false_ne_true (hworker.symm.trans hgrant)

theorem Touches.eq_of_readOnly {s s' : Backend} (h : Touches p d s s') (hp : p.readOnly = true) :
    s' = s := by
  obtain ⟨hrole, hadmin, hworker⟩ := not_grants_of_readOnly hp
  cases h with
  | nothing => rfl
  | @call op reply db hexec hright =>
    refine absurd hright ?_
    cases op <;> first
      | exact hrole _ _ (by decide) (by decide)
      | exact hworker
      | exact id
  | artifacts rows hright hkept =>
    exact absurd hright (not_or_intro (hrole _ _ (by decide) (by decide)) hworker)
  | schedules rows hright => exact absurd hright (hrole _ _ (by decide) (by decide))
  | keys t hright hown => exact absurd hright hadmin
  | heartbeats rows hright => exact absurd hright hworker

/-- A request of a principal that may only read writes the time of use of its key, and nothing
else : none of its transactions changes a table or an object, whatever it asks for and whatever
happens in between. The limiter's state in Redis is not part of the backend. -/
theorem readers_change_nothing {s : Traffic} {req : Request}
    (hauth : req.authenticate cfg d s.backend = (some p, b)) (hread : p.readOnly = true) :
    s.backend.SameButUse b ∧ ∀ es d',
      ((traffic cfg).next ((traffic cfg).run s (.arrive req d :: es))
        (.proceed s.requests.length d')).backend =
          ((traffic cfg).run s (.arrive req d :: es)).backend := by
  refine ⟨?_, fun es d' => (Traffic.arrive_within hauth es d').eq_of_readOnly hread⟩
  have := req.authenticate_sameButUse cfg d s.backend
  rwa [hauth] at this

/-- A viewer of the tenant 1. -/
def onlooker : Principal :=
  ⟨1, none, .viewer, .oidc, []⟩

/-- The viewer asks for a run to be created. -/
theorem readers_change_nothing_createRun :
    ((traffic unaryApi).run quietTraffic [.arrive ⟨.oidc onlooker,
        .http (.createRun "a" "key" "" "")⟩ quietTraffic.draw,
      .proceed 0 quietTraffic.draw]).backend = quietTraffic.backend := by
  have hauth : (⟨.oidc onlooker, .http (.createRun "a" "key" "" "")⟩ : Request).authenticate
      unaryApi quietTraffic.draw quietTraffic.backend =
        (some onlooker, quietTraffic.backend) := rfl
  exact (readers_change_nothing hauth rfl).2 [] quietTraffic.draw

/-! ## Keys -/

/-- What is not done by an administrator of the tenant keeps its keys. -/
theorem Touches.keysOf {s s' : Backend} (h : Touches p d s s')
    (hp : (Right.human .admin).Grants p → p.tenantId ≠ T) : s'.keysOf T = s.keysOf T := by
  cases h with
  | keys t hright hown =>
    exact congrArg (List.map ApiKey.unused) (hown.filter_ne (hp hright).symm)
  | _ => rfl

/-- The keys of the tenant are those at the start, and no request in flight changes them. -/
structure Traffic.KeepsKeys (T : ℕ) (keys : List ApiKey) (s : Traffic) : Prop where
  keys : s.backend.keysOf T = keys
  requests : ∀ f ∈ s.requests,
    f.code.Within (fun _ b b' => b'.keysOf T = b.keysOf T) fun _ => True

theorem Traffic.KeepsKeys.next {keys : List ApiKey} {s : Traffic} (h : s.KeepsKeys T keys)
    {e : TrafficEvent}
    (he : ∀ req d, e = .arrive req d → req.credential.administers T = false) :
    ((traffic cfg).next s e).KeepsKeys T keys := by
  refine ⟨?_, forall_next_within h.requests fun req d p b harrive hauth => ?_⟩
  · cases e with
    | arrive req d =>
      have huse : (req.authenticate cfg d s.backend).2.keysOf T = keys :=
        (req.authenticate_sameButUse cfg d s.backend).keysOf.trans h.keys
      simp only [traffic]
      split <;> rename_i hauth <;> rwa [hauth] at huse
    | proceed n d =>
      cases hn : s.requests[n]? with
      | none => simpa only [traffic, hn] using h.keys
      | some f =>
        have hf := h.requests f (List.mem_of_getElem? hn)
        exact (proceed_within hn hf (fun _ _ => rfl) d).trans h.keys
    | background env op =>
      simp only [traffic]
      split <;> exact h.keys
    | reschedule rows => exact h.keys
    | object key content => exact h.keys
  · have hp : (req.authenticate cfg d s.backend).1 = some p := congrArg Prod.fst hauth
    refine (Endpoint.within (Request.admits hp)).mono (fun d' b b' htouch => ?_) fun _ _ => trivial
    refine htouch.keysOf fun hadmin htenant => ?_
    have hadministers := Request.administers hp hadmin
    rw [htenant, he req d harrive] at hadministers
    exact Bool.false_ne_true hadministers

theorem Traffic.KeepsKeys.run {keys : List ApiKey} {s : Traffic} (h : s.KeepsKeys T keys)
    {es : List TrafficEvent}
    (hes : ∀ req d, TrafficEvent.arrive req d ∈ es → req.credential.administers T = false) :
    ((traffic cfg).run s es).KeepsKeys T keys := by
  refine (traffic cfg).invariant_along (fun u e hu he => hu.next he) h
    ((traffic cfg).along_of_forall (fun e he _ => ?_) s)
  rintro req d rfl
  exact hes req d he

/-- Equal keys accept the same tokens. -/
theorem authenticateAPIKey_of_keysOf {kc : KeyConfig} {b b' : Backend} {now : ℤ} {raw : String}
    (hkeys : b'.keysOf p.tenantId = b.keysOf p.tenantId)
    (hnodup : (b'.apiKeys.map ApiKey.id).Nodup)
    (h : ∃ keys, authenticateAPIKey kc now raw b.apiKeys = .ok (p, keys)) :
    ∃ keys, authenticateAPIKey kc now raw b'.apiKeys = .ok (p, keys) := by
  obtain ⟨keys, hok⟩ := h
  obtain ⟨text, id, k, htext, hid, hfind, hhash, hexp, rfl, -⟩ := authenticateAPIKey_ok_iff.1 hok
  have hp := List.find?_some hfind
  have hmem : k.unused ∈ b'.keysOf k.tenantId := by
    refine hkeys ▸ List.mem_map_of_mem (List.mem_filter.2 ⟨List.mem_of_find?_eq_some hfind, ?_⟩)
    exact decide_eq_true rfl
  obtain ⟨k', hk', hsame⟩ := List.mem_map.1 hmem
  have hfields : k'.id = k.id ∧ k'.tenantId = k.tenantId ∧ k'.keyHash = k.keyHash ∧
      k'.scopes = k.scopes ∧ k'.expiresAt = k.expiresAt ∧ k'.revokedAt = k.revokedAt := by
    simp only [ApiKey.unused, ApiKey.mk.injEq] at hsame
    tauto
  obtain ⟨hid', htenant, hhash', hscopes, hexp', hrevoked⟩ := hfields
  simp only [decide_eq_true_eq] at hp
  refine ⟨_, authenticateAPIKey_ok_iff.2 ⟨text, id, k', htext, hid, ?_, ?_, ?_, ?_, rfl⟩⟩
  · refine Table.find?_of_key hnodup (List.mem_of_mem_filter hk') ?_ fun j _ hj => ?_
    · exact decide_eq_true ⟨hid'.trans hp.1, hrevoked.trans hp.2⟩
    · exact (of_decide_eq_true hj).1.trans (hid'.trans hp.1).symm
  · exact hhash.trans hhash'.symm
  · rwa [hexp']
  · rw [ApiKey.principal, ApiKey.principal, htenant, hscopes]

/-- If no request of a history has the credential of an interactive administrator of the tenant,
then its keys are those at the start but for times of use, and the same tokens are accepted for
the same principals. -/
theorem keys_need_administrator {s : Traffic} {es : List TrafficEvent} (h : s.Init)
    (hv : (traffic cfg).Valid s es)
    (hes : ∀ req d, TrafficEvent.arrive req d ∈ es → req.credential.administers T = false) :
    ((traffic cfg).run s es).backend.keysOf T = s.backend.keysOf T ∧
      ∀ now raw p, p.tenantId = T →
        ((∃ keys, authenticateAPIKey cfg.keys now raw
            ((traffic cfg).run s es).backend.apiKeys = .ok (p, keys)) ↔
          ∃ keys, authenticateAPIKey cfg.keys now raw s.backend.apiKeys = .ok (p, keys)) := by
  have hkeeps : s.KeepsKeys T (s.backend.keysOf T) :=
    ⟨rfl, fun f hf => by simp [h.requests] at hf⟩
  have hkeys : ((traffic cfg).run s es).backend.keysOf T = s.backend.keysOf T :=
    (hkeeps.run hes).keys
  refine ⟨hkeys, ?_⟩
  rintro now raw p rfl
  have hsound := (h.sound.run hv).1.backend
  exact ⟨authenticateAPIKey_of_keysOf hkeys.symm h.keys,
    authenticateAPIKey_of_keysOf hkeys hsound.keys⟩

/-- A key of the tenant 2, for workers. -/
def workerKey (lastUsedAt : Option ℤ) : ApiKey :=
  ⟨9, 2, "ci", hashAPIKey unaryKeys "rm_aaaaaaaaa_x", ["workers:execute"], none, none, none,
    lastUsedAt, 0⟩

/-- The tables with the key. -/
def keyedTraffic (lastUsedAt : Option ℤ) : Traffic :=
  { quietTraffic with backend := { quietTraffic.backend with apiKeys := [workerKey lastUsedAt] } }

/-- The key is used to ask for another one. -/
def keyAskedForKey : List TrafficEvent :=
  [.arrive ⟨.apiKey "rm_aaaaaaaaa_x", .http (.createAPIKey ⟨"all", ["runs:execute"], none⟩)⟩
      quietTraffic.draw,
    .proceed 0 quietTraffic.draw]

/-- The ids that are drawn are new, and so is the secret. -/
theorem fresh_keyedTraffic (lastUsedAt : Option ℤ) :
    quietTraffic.draw.Fresh unaryApi (keyedTraffic lastUsedAt).backend where
  rows := quietTraffic.fresh_env
  artifacts a ha := by cases ha
  keys k hk := by
    rw [List.mem_singleton.1 hk]
    refine ⟨show 9 ≠ quietTraffic.draw.env.uuid 0 by decide, fun text heq => ?_⟩
    -- the tokens end in different characters
    have hlast := congrArg (fun s : String => s.toList.getLast?) heq
    simp [workerKey, hashAPIKey, KeyConfig.hashInput, unaryKeys, unaryApi, Traffic.draw,
      Traffic.drawnSecret, List.getLast?_cons, List.getLast?_append] at hlast

theorem valid_keyAskedForKey : (traffic unaryApi).Valid (keyedTraffic none) keyAskedForKey := by
  refine ⟨trivial, ?_, trivial⟩
  exact fresh_keyedTraffic (some 0)

/-- The key is still accepted, and there is no other. -/
theorem keys_need_administrator_keyAskedForKey :
    ((traffic unaryApi).run (keyedTraffic none) keyAskedForKey).backend.keysOf 2 =
      (keyedTraffic none).backend.keysOf 2 ∧
    ∃ keys, authenticateAPIKey unaryKeys 0 "rm_aaaaaaaaa_x"
      ((traffic unaryApi).run (keyedTraffic none) keyAskedForKey).backend.apiKeys =
        .ok (⟨2, none, .viewer, .apiKey, ["workers:execute"]⟩, keys) := by
  have hinit : (keyedTraffic none).Init := ⟨init_twoDefinitions, rfl, by decide, rfl⟩
  have hes : ∀ req d, TrafficEvent.arrive req d ∈ keyAskedForKey →
      req.credential.administers 2 = false := by
    intro req d hmem
    simp only [keyAskedForKey, List.mem_cons, TrafficEvent.arrive.injEq, List.not_mem_nil,
      or_false, reduceCtorEq] at hmem
    rw [hmem.1]
    rfl
  obtain ⟨hkeys, haccepts⟩ := keys_need_administrator hinit valid_keyAskedForKey hes
  refine ⟨hkeys, (haccepts 0 _ _ rfl).2 ?_⟩
  exact ⟨_, rfl⟩

end RunMesh
