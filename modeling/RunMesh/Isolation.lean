import RunMesh.Traffic

/-!
# Tenant isolation

A request of a tenant is served from the view of the tenant (`Request.serve_view`) : the response is
the one it would have if there were no other rows, and the view after it is the one that is left
then. The views of the other tenants stay as they are. So a tenant learns nothing of the others,
and changes nothing of theirs, in any state the service reaches (`tenant_isolation`).

A request that is served together with others keeps to its view in each of its transactions
(`Traffic.Reachable.proceed_isolated`). Served by itself, it is one way for the service to go on
(`Traffic.Reachable.serve`), so these states include those after any sequence of requests.
-/

namespace RunMesh

open Handler

variable {cfg : ApiConfig} {s : Backend} {req : Request} {p : Principal} {inputs : ℕ → Draw}

/-- Every transaction of the request draws new ids. -/
def Request.Supplied (cfg : ApiConfig) (req : Request) (inputs : ℕ → Draw) (s : Backend) : Prop :=
  ∀ p, (req.authenticate cfg (inputs 0) s).1 = some p →
    (req.endpoint.handler cfg p).Supplied (Draw.Fresh cfg) (fun n => inputs (n + 1))
      (req.authenticate cfg (inputs 0) s).2

/-- An authenticated request is served by the handler of its endpoint. -/
theorem Request.serve_eq (h : (req.authenticate cfg (inputs 0) s).1 = some p) :
    req.serve cfg inputs s = (req.endpoint.handler cfg p).run (fun n => inputs (n + 1))
      (req.authenticate cfg (inputs 0) s).2 := by
  rw [Request.serve]
  split
  · rename_i s' hauth
    rw [hauth] at h
    cases h
  · rename_i q s' hauth
    rw [hauth] at h ⊢
    cases h
    rfl

/-- A request keeps the tables in order and the views of the other tenants, and is served in the
view of its tenant as in the whole state. -/
theorem Request.serve_view (hs : s.Sound cfg)
    (hauth : (req.authenticate cfg (inputs 0) s).1 = some p) (hd : req.Supplied cfg inputs s) :
    req.serve cfg inputs (s.view cfg p.tenantId) =
        ((req.serve cfg inputs s).1, (req.serve cfg inputs s).2.view cfg p.tenantId) ∧
      ∀ B, B ≠ p.tenantId → (req.serve cfg inputs s).2.view cfg B = s.view cfg B := by
  obtain ⟨hsound, -, hkeep, hview, hafter⟩ := req.authenticates hs (inputs 0)
  have hstays : Stays cfg p.tenantId (req.endpoint.handler cfg p) := req.endpoint.handler_stays
  obtain ⟨hrun, -, -, hrest⟩ := (hstays _ hsound).run hsound (hd p hauth)
  rw [serve_eq hauth, serve_eq ((hview p).2 hauth), hafter p hauth]
  exact ⟨hrun, fun B hB => (hrest B hB).trans (hkeep p hauth B hB)⟩

/-- In any states the service reaches, a request of a tenant leaves the rows of the other tenants
as they are. If two of the states agree on the rows of the tenant, the request has one response in
both, and leaves the same rows of the tenant. -/
theorem tenant_isolation {s₁ s₂ : Traffic} (h₁ : s₁.Reachable cfg) (h₂ : s₂.Reachable cfg)
    (hauth : (req.authenticate cfg (inputs 0) s₁.backend).1 = some p)
    (hagree : s₁.backend.view cfg p.tenantId = s₂.backend.view cfg p.tenantId)
    (hd₁ : req.Supplied cfg inputs s₁.backend) (hd₂ : req.Supplied cfg inputs s₂.backend) :
    (∀ B, B ≠ p.tenantId →
      (req.serve cfg inputs s₁.backend).2.view cfg B = s₁.backend.view cfg B) ∧
    (req.serve cfg inputs s₁.backend).1 = (req.serve cfg inputs s₂.backend).1 ∧
    (req.serve cfg inputs s₁.backend).2.view cfg p.tenantId =
      (req.serve cfg inputs s₂.backend).2.view cfg p.tenantId := by
  have hs₁ := h₁.sound.backend
  have hs₂ := h₂.sound.backend
  -- both authenticate the principal, by the view they have in common
  have hauth₂ : (req.authenticate cfg (inputs 0) s₂.backend).1 = some p := by
    rw [← (req.authenticates hs₂ (inputs 0)).view p, ← hagree,
      (req.authenticates hs₁ (inputs 0)).view p]
    exact hauth
  obtain ⟨hview₁, hkeep⟩ := Request.serve_view hs₁ hauth hd₁
  obtain ⟨hview₂, -⟩ := Request.serve_view hs₂ hauth₂ hd₂
  rw [hagree, hview₂, Prod.mk.injEq] at hview₁
  exact ⟨hkeep, hview₁.1.symm, hview₁.2.symm⟩

/-- The tenant 2 has a workflow and a run. -/
def otherRun : Traffic :=
  quietTraffic.after unaryApi
    [.arrive ⟨.development otherDeveloper, .http (.createWorkflow chainDag)⟩, .proceed 0,
      .arrive ⟨.development otherDeveloper, .http (.createRun "aaa" "key" "" "")⟩, .proceed 1]

/-- The tenant 1 creates a run under the same idempotency key. -/
def sameKey : Request :=
  ⟨.development developer, .http (.createRun "a" "key" "" "")⟩

/-- The ids from 100 on. -/
def drawsFrom100 : ℕ → Draw :=
  fun _ => ⟨Env.at 0 100, Traffic.drawnSecret⟩

theorem fresh_drawsFrom100 {s : Backend} (hids : ∀ i ∈ s.db.ids, i < 100)
    (hartifacts : s.db.artifacts = []) (hkeys : s.apiKeys = []) (n : ℕ) :
    (drawsFrom100 n).Fresh cfg s :=
  ⟨Db.fresh_at hids 0, by simp [hartifacts], by simp [hkeys]⟩

/-- The run of the tenant 2 does not change, and it is no obstacle to the run of the tenant 1. -/
theorem tenant_isolation_sameKey :
    (otherRun.backend.db.workflowRuns.map fun r => (r.tenantId, r.idempotencyKey)) =
      [(2, "key")] ∧
    (sameKey.serve unaryApi drawsFrom100 otherRun.backend).2.view unaryApi 2 =
      otherRun.backend.view unaryApi 2 ∧
    (sameKey.serve unaryApi drawsFrom100 otherRun.backend).1 =
      (sameKey.serve unaryApi drawsFrom100 quietTraffic.backend).1 ∧
    (sameKey.serve unaryApi drawsFrom100 otherRun.backend).2.view unaryApi 1 =
      (sameKey.serve unaryApi drawsFrom100 quietTraffic.backend).2.view unaryApi 1 := by
  have hother : otherRun.Reachable unaryApi := Traffic.reachable_after init_quietTraffic _
  have hquiet : quietTraffic.Reachable unaryApi := init_quietTraffic.reachable
  have hauth : (sameKey.authenticate unaryApi (drawsFrom100 0) otherRun.backend).1 =
      some developer := rfl
  have hagree : otherRun.backend.view unaryApi developer.tenantId =
      quietTraffic.backend.view unaryApi developer.tenantId := rfl
  have hdother : sameKey.Supplied unaryApi drawsFrom100 otherRun.backend := by
    intro p hp
    cases hp
    exact ⟨fresh_drawsFrom100 (by decide +kernel) rfl rfl 1, trivial⟩
  have hdquiet : sameKey.Supplied unaryApi drawsFrom100 quietTraffic.backend := by
    intro p hp
    cases hp
    exact ⟨fresh_drawsFrom100 (by decide +kernel) rfl rfl 1, trivial⟩
  obtain ⟨hkeep, hresponse, hview⟩ :=
    tenant_isolation hother hquiet hauth hagree hdother hdquiet
  exact ⟨by decide +kernel, hkeep 2 (by decide), hresponse, hview⟩

/-! ## Requests together -/

/-- The same of one transaction, between those of other requests : it leaves the rows of the other
tenants as they are, and in two states that agree on the rows of the tenant it leaves the same rows
and the same rest. -/
theorem Traffic.Reachable.proceed_isolated {s₁ s₂ : Traffic} (h₁ : s₁.Reachable cfg)
    (h₂ : s₂.Reachable cfg) {n₁ n₂ : ℕ} {f : Flight} (hf₁ : s₁.requests[n₁]? = some f)
    (hf₂ : s₂.requests[n₂]? = some f)
    (hagree : s₁.backend.view cfg f.tenantId = s₂.backend.view cfg f.tenantId) {d : Draw}
    (hd₁ : d.Fresh cfg s₁.backend) (hd₂ : d.Fresh cfg s₂.backend) :
    (∀ B, B ≠ f.tenantId → ((traffic cfg).next s₁ (.proceed n₁ d)).backend.view cfg B =
      s₁.backend.view cfg B) ∧
    ((traffic cfg).next s₁ (.proceed n₁ d)).requests[n₁]? =
      ((traffic cfg).next s₂ (.proceed n₂ d)).requests[n₂]? ∧
    ((traffic cfg).next s₁ (.proceed n₁ d)).backend.view cfg f.tenantId =
      ((traffic cfg).next s₂ (.proceed n₂ d)).backend.view cfg f.tenantId := by
  have hobeys₁ := h₁.sound.requests f (List.mem_of_getElem? hf₁)
  have hobeys₂ := h₂.sound.requests f (List.mem_of_getElem? hf₂)
  obtain ⟨A, code⟩ := f
  cases code with
  | done r =>
    simp only [traffic, hf₁, hf₂]
    exact ⟨fun _ _ => trivial, trivial, hagree⟩
  | step after rest =>
    obtain ⟨hstep₁, hrest₁, -⟩ := hobeys₁ _ (.refl _) h₁.sound.backend d hd₁
    obtain ⟨hstep₂, hrest₂, -⟩ := hobeys₂ _ (.refl _) h₂.sound.backend d hd₂
    have hlt₁ : n₁ < s₁.requests.length := (List.getElem?_eq_some_iff.1 hf₁).1
    have hlt₂ : n₂ < s₂.requests.length := (List.getElem?_eq_some_iff.1 hf₂).1
    have hview : (discipline cfg A).view s₁.backend = (discipline cfg A).view s₂.backend := hagree
    simp only [traffic, hf₁, hf₂, List.getElem?_set_self hlt₁, List.getElem?_set_self hlt₂]
    refine ⟨hstep₁.keep, ?_, ?_⟩
    · rw [← hrest₁, ← hrest₂, hview]
    · calc (after d s₁.backend).view cfg A = after d (s₁.backend.view cfg A) := hstep₁.view.symm
        _ = after d (s₂.backend.view cfg A) := by rw [hagree]
        _ = (after d s₂.backend).view cfg A := hstep₂.view

/-- The last request to arrive may be served to its end before anything else happens. -/
theorem Traffic.Reachable.finish {A : ℕ} {code : Api Response} {rs : List Flight}
    (h : Reachable cfg ⟨s, rs ++ [⟨A, code⟩]⟩)
    (hd : code.Supplied (Draw.Fresh cfg) inputs s) :
    Reachable cfg ⟨(code.run inputs s).2, rs ++ [⟨A, .done (code.run inputs s).1⟩]⟩ := by
  induction code generalizing s inputs with
  | done r => exact h
  | step after rest ih =>
    refine ih _ _ ?_ hd.2
    have hnext : (traffic cfg).next ⟨s, rs ++ [⟨A, .step after rest⟩]⟩
        (.proceed rs.length (inputs 0)) =
        ⟨after (inputs 0) s, rs ++ [⟨A, rest (inputs 0) s⟩]⟩ := by
      simp [traffic]
    exact hnext ▸ h.next hd.1

/-- After a request that is served by itself, the service is in a state it can reach. -/
theorem Traffic.Reachable.serve {s : Traffic} (h : s.Reachable cfg)
    (hauth : (req.authenticate cfg (inputs 0) s.backend).1 = some p)
    (hd : req.Supplied cfg inputs s.backend) :
    Reachable cfg ⟨(req.serve cfg inputs s.backend).2,
      s.requests ++ [⟨p.tenantId, .done (req.serve cfg inputs s.backend).1⟩]⟩ := by
  rw [Request.serve_eq hauth]
  refine Reachable.finish ?_ (hd p hauth)
  have hnext : (traffic cfg).next s (.arrive req (inputs 0)) =
      ⟨(req.authenticate cfg (inputs 0) s.backend).2,
        s.requests ++ [⟨p.tenantId, req.endpoint.handler cfg p⟩]⟩ := by
    simp only [traffic]
    split
    · rename_i b hb
      simp [hb] at hauth
    · rename_i q b hb
      rw [hb] at hauth ⊢
      cases hauth
      rfl
  exact hnext ▸ h.next (e := .arrive req (inputs 0)) trivial

end RunMesh
