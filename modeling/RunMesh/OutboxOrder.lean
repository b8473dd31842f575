import RunMesh.Delivery
import Mathlib.Data.Prod.Lex
import Mathlib.Data.Finset.Max

/-!
# Claims and the order of publication

An event of an ordering key is claimed only when every earlier event of the key that is in
the table is published. So an event that was committed before a later one of its key was
first claimed is published first (`Follows`). The same test keeps an event from being
claimed again when an earlier one turns up after its first claim, as
`late_event_holds_back_claim` shows : what is always claimable, once its claim is released
or expired, is the first unpublished event of a key.
-/

namespace RunMesh

/-! ## The order of the claim -/

/-- What `(created_at,id)` compares. -/
def OutboxEvent.rank (e : OutboxEvent) : ℤ ×ₗ ℕ :=
  toLex (e.createdAt, e.id)

theorem OutboxEvent.before_iff {a b : OutboxEvent} : a.before b ↔ a.rank < b.rank := by
  simp [before, rank, Prod.Lex.toLex_lt_toLex]

theorem claimOrder_iff {a b : OutboxEvent} : claimOrder a b ↔ a.rank ≤ b.rank := by
  rw [claimOrder, OutboxEvent.before_iff, not_lt]

instance : Std.Total claimOrder :=
  ⟨fun a b => by simpa only [claimOrder_iff] using le_total a.rank b.rank⟩

instance : IsTrans OutboxEvent claimOrder :=
  ⟨fun a b c hab hbc => by
    rw [claimOrder_iff] at *
    exact hab.trans hbc⟩

/-- An ordering key with an unpublished event has a first one. -/
theorem exists_first_unpublished {events : List OutboxEvent} {e : OutboxEvent} (he : e ∈ events)
    (hun : e.publishedAt = none) :
    ∃ first ∈ events, first.orderingKey = e.orderingKey ∧ first.publishedAt = none ∧
      ¬e.before first ∧ ∀ earlier ∈ events, ¬first.Blocks earlier := by
  have hmem : ∀ o, o ∈ (events.filter fun o => o.orderingKey = e.orderingKey ∧
      o.publishedAt = none).toFinset ↔
      o ∈ events ∧ o.orderingKey = e.orderingKey ∧ o.publishedAt = none := by simp
  obtain ⟨first, hfirst, hmin⟩ := Finset.exists_min_image _ OutboxEvent.rank
    ⟨e, (hmem e).2 ⟨he, rfl, hun⟩⟩
  obtain ⟨hev, hkey, hfun⟩ := (hmem first).1 hfirst
  refine ⟨first, hev, hkey, hfun, ?_, ?_⟩
  · rw [OutboxEvent.before_iff, not_lt]
    exact hmin e ((hmem e).2 ⟨he, rfl, hun⟩)
  · rintro o ho ⟨hokey, houn, hobefore⟩
    exact (hmin o ((hmem o).2 ⟨ho, hokey.trans hkey, houn⟩)).not_gt
      (OutboxEvent.before_iff.1 hobefore)

/-- A claim takes a claimable row that it does not skip, or takes a full batch of rows that
come before it. -/
theorem mem_candidates_or_full (svc : Service) {now : ℤ} {locked : List ℕ}
    {events : List OutboxEvent} {e : OutboxEvent} (he : e ∈ events)
    (hcl : Claimable now events e) (hlocked : e.id ∉ locked) :
    e ∈ candidates svc now locked events ∨
      (candidates svc now locked events).length = svc.batchSize ∧
        ∀ o ∈ candidates svc now locked events, ¬e.before o := by
  set sorted := (events.filter fun o => Claimable now events o ∧ o.id ∉ locked).insertionSort
    claimOrder with hsorted
  have hmem : e ∈ sorted.take svc.batchSize ++ sorted.drop svc.batchSize := by
    rw [List.take_append_drop, hsorted, List.mem_insertionSort]
    exact List.mem_filter.2 ⟨he, decide_eq_true ⟨hcl, hlocked⟩⟩
  rcases List.mem_append.1 hmem with htake | hdrop
  · exact Or.inl htake
  · refine Or.inr ⟨?_, fun o ho => ?_⟩
    · have := List.length_pos_of_mem hdrop
      rw [List.length_drop] at this
      rw [candidates, ← hsorted, List.length_take]
      omega
    · have hpair : sorted.Pairwise claimOrder := List.pairwise_insertionSort _ _
      rw [← List.take_append_drop svc.batchSize sorted, List.pairwise_append] at hpair
      exact hpair.2.2 o ho e hdrop

/-! ## First publications -/

/-- Every element with `q` comes after one with `p`. -/
def FirstBefore {α : Type*} (p q : α → Prop) (l : List α) : Prop :=
  ∀ l₁ x l₂, l = l₁ ++ x :: l₂ → q x → ∃ y ∈ l₁, p y

theorem FirstBefore.of_forall_not {α : Type*} {p q : α → Prop} {l : List α}
    (h : ∀ x ∈ l, ¬q x) : FirstBefore p q l := by
  rintro l₁ x l₂ rfl hx
  exact absurd hx (h x (by simp))

theorem FirstBefore.concat {α : Type*} {p q : α → Prop} {l : List α} (h : FirstBefore p q l)
    {x : α} (hx : q x → ∃ y ∈ l, p y) : FirstBefore p q (l ++ [x]) := by
  intro l₁ y l₂ hl hy
  rcases List.eq_nil_or_concat l₂ with rfl | ⟨l₃, z, rfl⟩
  · obtain ⟨rfl, hxy⟩ := List.append_inj' hl rfl
    obtain rfl := List.singleton_inj.1 hxy
    exact hx hy
  · have hl' : l ++ [x] = (l₁ ++ y :: l₃) ++ [z] := by simpa using hl
    exact h l₁ y l₃ (List.append_inj' hl' rfl).1 hy

variable {svc : Service} {s s' : Outbox} {a : OutboxStep} {e : OutboxEvent}

/-- A row with the id of an event that was claimed. -/
theorem Outbox.Sound.publishAttempts_pos (h : s.Sound) {x e' : OutboxEvent} (hx : s.Claimed x)
    (he' : e' ∈ s.events) (hid : x.id = e'.id) : 0 < e'.publishAttempts := by
  obtain ⟨r, hr, hrx, hpos⟩ := hx
  rwa [← Table.eq_of_key h.nodup hr he' ((OutboxEvent.id_of_asInserted hrx).trans hid)]

/-- The row `e'` is claimed only when the broker has taken `e`, and sent and taken only
after it. -/
structure Behind (s : Outbox) (e e' : OutboxEvent) : Prop where
  claimed : 0 < e'.publishAttempts → e.message ∈ s.log
  log : FirstBefore (·.eventId = e.id) (·.eventId = e'.id) s.log
  sent : FirstBefore (·.id = e.id) (·.id = e'.id) s.sent

/-- A row that was not claimed is not sent or taken. -/
theorem Outbox.Sound.behind (h : s.Sound) {e' : OutboxEvent}
    (hnot : ∀ r ∈ s.events, r.id = e'.id → r.publishAttempts = 0) (hzero : e'.publishAttempts = 0) :
    Behind s e e' := by
  have hsent : ∀ x ∈ s.sent, x.id ≠ e'.id := by
    intro x hx hid
    obtain ⟨r, hr, hrx, hpos⟩ := h.sent x hx
    exact hpos.ne' (hnot r hr ((OutboxEvent.id_of_asInserted hrx).trans hid))
  refine ⟨fun hpos => absurd hzero hpos.ne', .of_forall_not fun m hm hid => ?_,
    .of_forall_not hsent⟩
  obtain ⟨x, hx, rfl⟩ := h.log m hm
  exact hsent x hx hid

/-- A row stays behind another, if the broker has that one when the row is claimed. -/
theorem Behind.move_of_claimed {e' e₁ : OutboxEvent} (hb : Behind s e e') (h : s.Sound)
    (m : OutboxMove svc s a s') (he' : e' ∈ s.events) (hmove : RowMove svc s a e' e₁)
    (hclaimed : 0 < e₁.publishAttempts → e.message ∈ s'.log) : Behind s' e e₁ := by
  have hid : e₁.id = e'.id := OutboxEvent.id_of_asInserted hmove.asInserted
  -- an event of `e'` that is sent or taken was claimed, so the broker has `e`
  have htaken : ∀ x : OutboxEvent, s.Claimed x → x.id = e₁.id → e.message ∈ s.log :=
    fun x hx hxid => hb.claimed (h.publishAttempts_pos hx he' (hxid.trans hid))
  have hlogged : ∀ x ∈ s.sent, (x.message).eventId = e₁.id → ∃ y ∈ s.log, y.eventId = e.id :=
    fun x hx hxid => ⟨_, htaken x (h.sent x hx) hxid, rfl⟩
  refine ⟨hclaimed, ?_, ?_⟩
  · have hold := hb.log
    rw [← hid] at hold
    cases m with
    | deliver hbatch => exact hold.concat (hlogged _ (h.publishing _ _ _ _ _ hbatch).1)
    | arrive hx => exact hold.concat (hlogged _ hx)
    | _ => exact hold
  · have hold := hb.sent
    rw [← hid] at hold
    cases m with
    | publish hbatch hx =>
      refine hold.concat fun hxid => ?_
      obtain ⟨y, hy, hye⟩ := h.log _ (htaken _ (h.rows _ _ hbatch _ hx) hxid)
      exact ⟨y, hy, congrArg Message.eventId hye⟩
    | _ => exact hold

/-- A row stays behind an earlier one of its ordering key. -/
theorem Behind.move {e' e₁ : OutboxEvent} (hb : Behind s e e') (h : s.Sound)
    (m : OutboxMove svc s a s') (hmem : ∃ r ∈ s.events, r.asInserted = e.asInserted)
    (he' : e' ∈ s.events) (hkey : e.orderingKey = e'.orderingKey) (hbefore : e.before e')
    (hmove : RowMove svc s a e' e₁) : Behind s' e e₁ := by
  refine hb.move_of_claimed h m he' hmove fun hpos => m.mono.2.2.subset ?_
  cases hmove with
  | claim hcl =>
    obtain ⟨r, hr, hre⟩ := hmem
    rw [← OutboxEvent.message_of_asInserted hre]
    refine h.message_mem_log hr fun hun => hcl.2.2 r hr ⟨?_, hun, ?_⟩
    · rw [OutboxEvent.orderingKey_of_asInserted hre, hkey]
    · exact (OutboxEvent.before_of_asInserted hre rfl).2 hbefore
  | _ => exact hb.claimed hpos

/-- The later rows of the ordering key of `e`, among those that `P` names, are behind it. -/
structure Follows (e : OutboxEvent) (P : ℕ → Prop) (s : Outbox) : Prop where
  mem : ∃ r ∈ s.events, r.asInserted = e.asInserted
  behind : ∀ e' ∈ s.events, e.orderingKey = e'.orderingKey → e.before e' → P e'.id →
    Behind s e e'

theorem Follows.next {P : ℕ → Prop} (hf : Follows e P s) (h : s.Sound)
    (ha : (outbox svc).allowed s a) : Follows e P ((outbox svc).next s a) := by
  have m := outbox_move svc s a
  have hnext := h.next ha
  generalize (outbox svc).next s a = s' at m hnext
  constructor
  · obtain ⟨r, hr, hre⟩ := hf.mem
    obtain ⟨r', hr', hmove⟩ := (m.rows h.nodup).mem_row hr
    exact ⟨r', hr', hmove.asInserted.trans hre⟩
  · intro e₁ he₁ hkey hbefore hP
    rcases (m.rows h.nodup).of_mem_row he₁ with ⟨e', he', hmove⟩ | ⟨new, rfl, hnew⟩
    · have hsame := hmove.asInserted
      rw [OutboxEvent.orderingKey_of_asInserted hsame] at hkey
      rw [OutboxEvent.before_of_asInserted rfl hsame] at hbefore
      rw [OutboxEvent.id_of_asInserted hsame] at hP
      exact (hf.behind e' he' hkey hbefore hP).move h m hf.mem he' hkey hbefore hmove
    · have hzero : e₁.publishAttempts = 0 :=
        (congrArg OutboxEvent.publishAttempts (ha.2 e₁ hnew)).symm
      refine hnext.behind (fun r hr hid => ?_) hzero
      rw [Table.eq_of_key hnext.nodup hr he₁ hid, hzero]

/-- An event that is in the table when a later one of its ordering key was not yet claimed
is sent, and taken by the broker, before it. -/
theorem Outbox.Sound.firstBefore (h : s.Sound) {as : List OutboxStep}
    (hv : (outbox svc).Valid s as) (he : e ∈ s.events) {e' : OutboxEvent}
    (he' : e' ∈ ((outbox svc).run s as).events) (hkey : e.orderingKey = e'.orderingKey)
    (hbefore : e.before e') (hnot : ∀ r ∈ s.events, r.id = e'.id → r.publishAttempts = 0) :
    Behind ((outbox svc).run s as) e e' := by
  have hfollows : Follows e (fun i => ∀ r ∈ s.events, r.id = i → r.publishAttempts = 0) s :=
    ⟨⟨e, he, rfl⟩, fun r hr _ _ hr0 => h.behind hr0 (hr0 r hr rfl)⟩
  have hrun := (outbox svc).invariant (P := fun t => t.Sound ∧ Follows e _ t)
    (fun t a ht ha => ⟨ht.1.next ha, ht.2.next ht.1 ha⟩) ⟨h, hfollows⟩ hv
  exact hrun.2.behind e' he' hkey hbefore hnot

/-! ## Outbox safety -/

/-- A row is published only after a `Publish` of it returned nil. The claim of an
unpublished row is released or has an expiry, the ordering key of the row has a first
unpublished row, and a claim takes that one, once its own claim is released or expired,
unless it skips it or its batch is full of earlier rows. -/
structure Outbox.Safe (svc : Service) (s : Outbox) : Prop where
  published : ∀ r ∈ s.events, r.publishedAt ≠ none → ∃ e ∈ s.returned, e.id = r.id
  expires : ∀ r ∈ s.events, r.claimToken = none ∨ ∃ x, r.claimExpiresAt = some x
  first : ∀ r ∈ s.events, r.publishedAt = none →
    ∃ first ∈ s.events, first.orderingKey = r.orderingKey ∧ first.publishedAt = none ∧
      ¬r.before first ∧ ∀ earlier ∈ s.events, ¬first.Blocks earlier
  reclaimed : ∀ r ∈ s.events, r.publishedAt = none →
    (∀ earlier ∈ s.events, ¬r.Blocks earlier) → ∀ now locked, r.Free now → r.id ∉ locked →
      r ∈ candidates svc now locked s.events ∨
        (candidates svc now locked s.events).length = svc.batchSize ∧
          ∀ o ∈ candidates svc now locked s.events, ¬r.before o

theorem Outbox.Sound.safe (h : s.Sound) (svc : Service) : s.Safe svc where
  published r hr hpub := by
    obtain ⟨e, he, her⟩ := h.published r hr hpub
    exact ⟨e, he, OutboxEvent.id_of_asInserted her⟩
  expires r hr := by
    by_cases htok : r.claimToken = none
    · exact Or.inl htok
    · exact Or.inr (Option.ne_none_iff_exists'.1 (h.expiry r hr htok))
  first r hr hun := exists_first_unpublished hr hun
  reclaimed r hr hun hfirst now locked hfree hlocked :=
    mem_candidates_or_full svc hr ⟨hun, hfree, hfirst⟩ hlocked

/-- Outbox safety. After every interleaving of the publishers the outbox is safe, and an
event that was committed before a later one of its ordering key was first claimed is
published first. The events of a run share its id as ordering key. -/
theorem outbox_safety (svc : Service) :
    (∀ s₀ as, s₀.Init → (outbox svc).Valid s₀ as →
      ((outbox svc).run s₀ as).Safe svc ∧
      ∀ bs, bs <+: as → ∀ e ∈ ((outbox svc).run s₀ bs).events,
        ∀ e' ∈ ((outbox svc).run s₀ as).events, e.orderingKey = e'.orderingKey → e.before e' →
          (∀ r ∈ ((outbox svc).run s₀ bs).events, r.id = e'.id → r.publishAttempts = 0) →
            FirstBefore (·.eventId = e.id) (·.eventId = e'.id) ((outbox svc).run s₀ as).log ∧
            FirstBefore (·.id = e.id) (·.id = e'.id) ((outbox svc).run s₀ as).sent) ∧
    ∀ w₀ as, w₀.Init → (world svc).Valid w₀ as →
      ∀ e ∈ ((world svc).run w₀ as).outbox.events, ∀ runId,
        ((world svc).run w₀ as).plane.db.EventOf e runId → e.orderingKey = runId := by
  refine ⟨fun s₀ as h0 hv => ⟨(h0.sound.run hv).safe svc, ?_⟩, ?_⟩
  · rintro bs ⟨cs, rfl⟩ e he e' he' hkey hbefore hnot
    obtain ⟨hvbs, hvcs⟩ := ((outbox svc).along_append _ bs cs s₀).1 hv
    rw [(outbox svc).run_append] at he' ⊢
    have hb := (h0.sound.run hvbs).firstBefore hvcs he he' hkey hbefore hnot
    exact ⟨hb.log, hb.sent⟩
  · intro w₀ as h0 hv e he runId habout
    have hw := h0.coherent_run hv
    have hmem : e.asInserted ∈ ((world svc).run w₀ as).plane.db.outboxEvents :=
      hw.events ▸ List.mem_map_of_mem he
    have hkey : ((world svc).run w₀ as).plane.db.EventOf e e.orderingKey :=
      hw.reachable.eventOf_orderingKey e.asInserted hmem
    exact hkey.unique hw.reachable.wellFormed.toKeyed habout

/-! ## A late event -/

/-- An event of a run. -/
def sampleEvent (id runId : ℕ) (createdAt : ℤ) : OutboxEvent where
  id := id
  aggregateType := .workflowRun
  aggregateId := runId
  eventType := .runCreated
  payload := { workflowRunId := some runId }
  traceParent := ""
  createdAt := createdAt

/-- An empty outbox. -/
def emptyOutbox : Outbox := ⟨[], fun _ => none, [], [], [], 0⟩

theorem init_emptyOutbox : emptyOutbox.Init := ⟨rfl, fun _ => rfl, rfl, rfl, rfl⟩

/-- The settings that are all left to their defaults. -/
def defaultService : Service := ⟨0, 0, 0⟩

/-- An event is claimed, then an earlier one of its run is committed, and then the claim is
released because `Publish` failed. -/
def lateEvent : List OutboxStep :=
  [.insert [sampleEvent 2 1 5], .claim 9 [], .insert [sampleEvent 3 1 4], .publish 9 2,
    .publishErr 9, .release 9 .answered]

/-- The event whose claim was released is not claimed again while the earlier one is
unpublished. -/
theorem late_event_holds_back_claim :
    emptyOutbox.Init ∧ (outbox defaultService).Valid emptyOutbox lateEvent ∧
      ((outbox defaultService).run emptyOutbox lateEvent).events.map
        (fun r => (r.id, r.publishedAt, r.claimToken, r.publishAttempts)) =
          [(2, none, none, 1), (3, none, none, 0)] ∧
      ∀ now, ∀ locked, ∀ r ∈ candidates defaultService now locked
        ((outbox defaultService).run emptyOutbox lateEvent).events, r.id ≠ 2 := by
  refine ⟨init_emptyOutbox, by decide, by decide, fun now locked r hr hid => ?_⟩
  obtain ⟨hmem, -, -, hfirst⟩ := claimable_of_mem_candidates hr
  have hblocks : ∃ earlier ∈ ((outbox defaultService).run emptyOutbox lateEvent).events,
      ∀ r ∈ ((outbox defaultService).run emptyOutbox lateEvent).events,
        r.id = 2 → r.Blocks earlier := by decide
  obtain ⟨earlier, hearlier, hall⟩ := hblocks
  exact hfirst earlier hearlier (hall r hmem hid)

/-- The two events of `lateEvent`, the earlier one committed first. -/
def promptEvent : List OutboxStep :=
  [.insert [sampleEvent 3 1 4, sampleEvent 2 1 5], .claim 9 [], .publish 9 3, .deliver 9,
    .publishOk 9, .acknowledge 9 .answered, .claim 10 [], .publish 10 2, .deliver 10]

theorem outbox_safety_promptEvent :
    ((outbox defaultService).run emptyOutbox promptEvent).log.map (·.eventId) = [3, 2] ∧
      FirstBefore (·.eventId = 3) (·.eventId = 2)
        ((outbox defaultService).run emptyOutbox promptEvent).log := by
  refine ⟨by decide, ?_⟩
  exact (((outbox_safety defaultService).1 emptyOutbox promptEvent init_emptyOutbox
    (by decide)).2 (promptEvent.take 1) (List.take_prefix _ _) (sampleEvent 3 1 4) (by decide)
    _ (List.mem_of_getElem? (i := 1) rfl) rfl (by decide) (by decide)).1

end RunMesh
