import RunMesh.Outbox

/-!
# The outbox is safe

Claims are leases : a publisher may go on after its claim has expired and another one has
claimed its events. `Outbox.Sound` is what every interleaving keeps. The rows a publisher
works on are rows of the table that were claimed, what the broker took was sent, what
`Publish` returned nil for the broker took, and a row is published only if its `Publish`
returned nil.
-/

namespace RunMesh

variable {svc : Service} {s s' : Outbox} {a : OutboxStep}

/-! ## Rows -/

namespace OutboxEvent

@[simp] theorem asInserted_claim (token : ℕ) (x : ℤ) (o : OutboxEvent) :
    (o.claim token x).asInserted = o.asInserted := rfl

@[simp] theorem asInserted_acknowledge (now : ℤ) (o : OutboxEvent) :
    (o.acknowledge now).asInserted = o.asInserted := rfl

@[simp] theorem asInserted_unclaim (o : OutboxEvent) : o.unclaim.asInserted = o.asInserted := rfl

variable {o o' e e' : OutboxEvent}

theorem id_of_asInserted (h : o.asInserted = o'.asInserted) : o.id = o'.id :=
  show o.asInserted.id = o'.asInserted.id by rw [h]

theorem message_of_asInserted (h : o.asInserted = o'.asInserted) : o.message = o'.message :=
  show o.asInserted.message = o'.asInserted.message by rw [h]

theorem orderingKey_of_asInserted (h : o.asInserted = o'.asInserted) :
    o.orderingKey = o'.orderingKey :=
  show o.asInserted.orderingKey = o'.asInserted.orderingKey by rw [h]

theorem before_of_asInserted (ho : o.asInserted = o'.asInserted)
    (he : e.asInserted = e'.asInserted) : o.before e ↔ o'.before e' :=
  show o.asInserted.before e.asInserted ↔ o'.asInserted.before e'.asInserted by rw [ho, he]

end OutboxEvent

/-- What a step does to a row. -/
inductive RowMove (svc : Service) (s : Outbox) : OutboxStep → OutboxEvent → OutboxEvent → Prop
  | keep (a : OutboxStep) (r : OutboxEvent) : RowMove svc s a r r
  | claim {token : ℕ} {locked : List ℕ} {r : OutboxEvent} (h : Claimable s.clock s.events r) :
      RowMove svc s (.claim token locked) r (r.claim token (s.clock + svc.claimTTL))
  | acknowledge {token : ℕ} {outcome : Outcome} {rest : List OutboxEvent} {e r : OutboxEvent}
      {since : ℤ} (hb : s.batches token = some ⟨rest, .acknowledging e, since⟩) (hid : r.id = e.id)
      (hclaim : r.claimToken = some token) :
      RowMove svc s (.acknowledge token outcome) r (r.acknowledge s.clock)
  | unclaim {token : ℕ} {outcome : Outcome} {rest : List OutboxEvent} {since : ℤ}
      {r : OutboxEvent} (hb : s.batches token = some ⟨rest, .releasing, since⟩)
      (hclaim : r.claimToken = some token) :
      RowMove svc s (.release token outcome) r r.unclaim

theorem RowMove.asInserted {r r' : OutboxEvent} (h : RowMove svc s a r r') :
    r'.asInserted = r.asInserted := by
  cases h <;> rfl

theorem RowMove.publishAttempts_le {r r' : OutboxEvent} (h : RowMove svc s a r r') :
    r.publishAttempts ≤ r'.publishAttempts := by
  cases h with
  | claim => exact Nat.le_succ _
  | _ => exact le_refl r.publishAttempts

theorem RowMove.published {r r' : OutboxEvent} (h : RowMove svc s a r r')
    (hr : r.publishedAt ≠ none) : r'.publishedAt ≠ none := by
  cases h with
  | acknowledge => exact Option.some_ne_none _
  | _ => exact hr

/-- The candidates of a claim are claimable. -/
theorem claimable_of_mem_candidates {now : ℤ} {locked : List ℕ} {events : List OutboxEvent}
    {o : OutboxEvent} (h : o ∈ candidates svc now locked events) :
    o ∈ events ∧ Claimable now events o := by
  have hmem := (List.mem_insertionSort _).1 (List.mem_of_mem_take h)
  obtain ⟨hev, hp⟩ := List.mem_filter.1 hmem
  exact ⟨hev, (of_decide_eq_true hp).1⟩

/-- The table after a step : each row moved, and new ones. -/
def RowsMove (svc : Service) (s : Outbox) (a : OutboxStep) (events : List OutboxEvent) : Prop :=
  ∃ f new, events = s.events.map f ++ new ∧ (∀ r ∈ s.events, RowMove svc s a r (f r)) ∧
    (new = [] ∨ a = .insert new)

theorem RowsMove.keep (svc : Service) (s : Outbox) (a : OutboxStep) : RowsMove svc s a s.events :=
  ⟨id, [], by simp, fun r _ => .keep a r, Or.inl rfl⟩

theorem RowsMove.update {p : OutboxEvent → Bool} {f : OutboxEvent → OutboxEvent}
    (h : ∀ r ∈ s.events, p r = true → RowMove svc s a r (f r)) :
    RowsMove svc s a (Table.update p f s.events) := by
  refine ⟨_, [], (List.append_nil _).symm, fun r hr => ?_, Or.inl rfl⟩
  by_cases hp : p r = true
  · simpa [hp] using h r hr hp
  · simpa [hp] using RowMove.keep a r

/-- An acknowledgement moves the row it finds. -/
theorem RowsMove.acknowledge {token : ℕ} {outcome : Outcome} {rest : List OutboxEvent}
    {e : OutboxEvent} {since : ℤ} (hb : s.batches token = some ⟨rest, .acknowledging e, since⟩) :
    RowsMove svc s (.acknowledge token outcome)
      (Table.update (Outbox.acknowledges token e) (.acknowledge s.clock) s.events) :=
  .update fun _ _ hp =>
    have hp := of_decide_eq_true hp
    .acknowledge hb hp.1 hp.2.2

/-- A step moves each row and may insert new ones. -/
theorem OutboxMove.rows (hnd : (s.events.map OutboxEvent.id).Nodup) (m : OutboxMove svc s a s') :
    RowsMove svc s a s'.events := by
  cases m with
  | insert new => exact ⟨id, new, by simp, fun r _ => .keep _ r, Or.inr rfl⟩
  | claim token locked ids row hids hrow =>
    refine .update fun r hr hp => ?_
    obtain ⟨o, ho, hid⟩ := List.mem_map.1 (hids ▸ of_decide_eq_true hp)
    obtain ⟨hev, hcl⟩ := claimable_of_mem_candidates ho
    obtain rfl := Table.eq_of_key hnd hev hr hid
    exact hrow ▸ .claim hcl
  | acknowledge hb => exact .acknowledge hb
  | acknowledgeErr hb hev =>
    rcases hev with rfl | rfl
    · exact .keep svc s _
    · exact .acknowledge hb
  | release hb hev =>
    rcases hev with rfl | rfl
    · exact .keep svc s _
    · exact .update fun _ _ hp => .unclaim hb (of_decide_eq_true hp).1
  | _ => exact .keep svc s _

/-- A row stays. -/
theorem RowsMove.mem_row {events : List OutboxEvent} (h : RowsMove svc s a events)
    {r : OutboxEvent} (hr : r ∈ s.events) : ∃ r' ∈ events, RowMove svc s a r r' := by
  obtain ⟨f, new, rfl, hf, -⟩ := h
  exact ⟨f r, List.mem_append_left _ (List.mem_map_of_mem hr), hf r hr⟩

/-- A row was there before or is inserted. -/
theorem RowsMove.of_mem_row {events : List OutboxEvent} (h : RowsMove svc s a events)
    {r' : OutboxEvent} (hr' : r' ∈ events) :
    (∃ r ∈ s.events, RowMove svc s a r r') ∨ ∃ new, a = .insert new ∧ r' ∈ new := by
  obtain ⟨f, new, rfl, hf, hnew⟩ := h
  rcases List.mem_append.1 hr' with hr' | hr'
  · obtain ⟨r, hr, rfl⟩ := List.mem_map.1 hr'
    exact Or.inl ⟨r, hr, hf r hr⟩
  · rcases hnew with rfl | rfl
    · simp at hr'
    · exact Or.inr ⟨new, rfl, hr'⟩

/-! ## Publishers -/

/-- What a step does to a publisher that is in its loop afterwards. -/
inductive BatchMove (svc : Service) (s s' : Outbox) : OutboxStep → ℕ → Batch → Prop
  | keep {a : OutboxStep} {token : ℕ} {b : Batch} (hb : s.batches token = some b) :
      BatchMove svc s s' a token b
  | claim {token : ℕ} {locked : List ℕ} {p : OutboxEvent → Bool}
      (hp : p = fun o => decide (o.id ∈ (candidates svc s.clock locked s.events).map (·.id)))
      (hev : s'.events = Table.update p (.claim token (s.clock + svc.claimTTL)) s.events) :
      BatchMove svc s s' (.claim token locked) token
        ⟨Table.returning p (.claim token (s.clock + svc.claimTTL)) s.events, .ready, s.clock⟩
  | publish {token : ℕ} {rest : List OutboxEvent} {since : ℤ} {e : OutboxEvent}
      (hb : s.batches token = some ⟨rest, .ready, since⟩) (he : e ∈ rest)
      (hsent : s'.sent = s.sent ++ [e]) :
      BatchMove svc s s' (.publish token e.id) token ⟨rest.erase e, .publishing e false, s.clock⟩
  | deliver {token : ℕ} {rest : List OutboxEvent} {e : OutboxEvent} {d : Bool} {since : ℤ}
      (hb : s.batches token = some ⟨rest, .publishing e d, since⟩)
      (hlog : s'.log = s.log ++ [e.message]) :
      BatchMove svc s s' (.deliver token) token ⟨rest, .publishing e true, since⟩
  | publishOk {token : ℕ} {rest : List OutboxEvent} {e : OutboxEvent} {since : ℤ}
      (hb : s.batches token = some ⟨rest, .publishing e true, since⟩)
      (hret : s'.returned = s.returned ++ [e]) :
      BatchMove svc s s' (.publishOk token) token ⟨rest, .acknowledging e, s.clock⟩
  | publishErr {token : ℕ} {rest : List OutboxEvent} {e : OutboxEvent} {d : Bool} {since : ℤ}
      (hb : s.batches token = some ⟨rest, .publishing e d, since⟩) :
      BatchMove svc s s' (.publishErr token) token ⟨rest, .releasing, s.clock⟩
  | acknowledge {token : ℕ} {rest : List OutboxEvent} {e : OutboxEvent} {since : ℤ}
      (hb : s.batches token = some ⟨rest, .acknowledging e, since⟩) :
      BatchMove svc s s' (.acknowledge token .answered) token ⟨rest, .ready, since⟩
  | acknowledgeErr {token : ℕ} {outcome : Outcome} {rest : List OutboxEvent} {e : OutboxEvent}
      {since : ℤ} (hb : s.batches token = some ⟨rest, .acknowledging e, since⟩) :
      BatchMove svc s s' (.acknowledge token outcome) token ⟨rest, .releasing, since⟩

theorem OutboxMove.batch (m : OutboxMove svc s a s') {u : ℕ} {b' : Batch}
    (h : s'.batches u = some b') : BatchMove svc s s' a u b' := by
  -- either the publisher that moved, or one that was there before
  have hset : ∀ {t : Outbox} {token : ℕ} {b : Option Batch},
      (t.setBatch token b).batches u = some b' → t.batches = s.batches →
      (∀ b₀, b = some b₀ → BatchMove svc s s' a token b₀) → BatchMove svc s s' a u b' := by
    intro t token b h ht hb
    rcases Outbox.setBatch_eq_some h with ⟨rfl, hb'⟩ | ⟨-, h⟩
    · exact hb b' hb'
    · exact .keep (ht ▸ h)
  cases m with
  | claim token locked ids row hids hrow =>
    refine hset h rfl fun b₀ hb₀ => Option.some.inj hb₀ ▸ ?_
    rw [hids, hrow]
    exact .claim rfl rfl
  | publish hb he => exact hset h rfl fun b₀ hb₀ => Option.some.inj hb₀ ▸ .publish hb he rfl
  | deliver hb => exact hset h rfl fun b₀ hb₀ => Option.some.inj hb₀ ▸ .deliver hb rfl
  | publishOk hb => exact hset h rfl fun b₀ hb₀ => Option.some.inj hb₀ ▸ .publishOk hb rfl
  | publishErr hb => exact hset h rfl fun b₀ hb₀ => Option.some.inj hb₀ ▸ .publishErr hb
  | acknowledge hb =>
    refine hset h rfl fun b₀ hb₀ => ?_
    split_ifs at hb₀
    exact Option.some.inj hb₀ ▸ .acknowledge hb
  | acknowledgeErr hb hev =>
    exact hset h rfl fun b₀ hb₀ => Option.some.inj hb₀ ▸ .acknowledgeErr hb
  | release hb hev => exact hset h rfl fun b₀ hb₀ => nomatch hb₀
  | crash token => exact hset h rfl fun b₀ hb₀ => nomatch hb₀
  | _ => exact .keep h

/-! ## What every interleaving keeps -/

/-- The row of the event is in the table and was claimed. -/
def Outbox.Claimed (s : Outbox) (e : OutboxEvent) : Prop :=
  ∃ r ∈ s.events, r.asInserted = e.asInserted ∧ 0 < r.publishAttempts

/-- The table, the publishers and the broker agree. -/
structure Outbox.Sound (s : Outbox) : Prop where
  nodup : (s.events.map OutboxEvent.id).Nodup
  /-- A claim has an expiry. -/
  expiry : ∀ r ∈ s.events, r.claimToken ≠ none → r.claimExpiresAt ≠ none
  rows : ∀ token b, s.batches token = some b → ∀ e ∈ b.rows, s.Claimed e
  sent : ∀ e ∈ s.sent, s.Claimed e
  publishing : ∀ token rest e d since,
    s.batches token = some ⟨rest, .publishing e d, since⟩ →
      e ∈ s.sent ∧ (d = true → e.message ∈ s.log)
  acknowledging : ∀ token rest e since,
    s.batches token = some ⟨rest, .acknowledging e, since⟩ → e ∈ s.returned
  log : ∀ m ∈ s.log, ∃ e ∈ s.sent, e.message = m
  returned : ∀ e ∈ s.returned, e.message ∈ s.log
  published : ∀ r ∈ s.events, r.publishedAt ≠ none →
    ∃ e ∈ s.returned, e.asInserted = r.asInserted

theorem Outbox.Init.sound (h : s.Init) : s.Sound where
  nodup := by simp [h.events]
  expiry := by simp [h.events]
  rows := by simp [h.batches]
  sent := by simp [h.sent]
  publishing := by simp [h.batches]
  acknowledging := by simp [h.batches]
  log := by simp [h.log]
  returned := by simp [h.returned]
  published := by simp [h.events]

theorem OutboxMove.claimed (hnd : (s.events.map OutboxEvent.id).Nodup)
    (m : OutboxMove svc s a s') {e : OutboxEvent} (h : s.Claimed e) : s'.Claimed e := by
  obtain ⟨r, hr, hre, hpos⟩ := h
  obtain ⟨r', hr', hmove⟩ := (m.rows hnd).mem_row hr
  exact ⟨r', hr', hmove.asInserted.trans hre, hpos.trans_le hmove.publishAttempts_le⟩

/-- What was sent, returned and taken stays. -/
theorem OutboxMove.mono (m : OutboxMove svc s a s') :
    s.sent <+: s'.sent ∧ s.returned <+: s'.returned ∧ s.log <+: s'.log := by
  cases m <;> simp

/-- A publisher works on rows it worked on before, or on rows it has just claimed. -/
theorem OutboxMove.of_batch (m : OutboxMove svc s a s') {token : ℕ} {b' : Batch}
    (h : s'.batches token = some b') :
    (∃ b, s.batches token = some b ∧ b'.rows ⊆ b.rows) ∨ ∀ e ∈ b'.rows, s'.Claimed e := by
  cases m.batch h with
  | keep hb => exact Or.inl ⟨_, hb, List.Subset.refl _⟩
  | claim _ hev =>
    refine Or.inr fun e he => ?_
    obtain ⟨o, ho, rfl⟩ := List.mem_map.1 he
    obtain ⟨hmem, hp⟩ := List.mem_filter.1 ho
    rw [Outbox.Claimed, hev]
    exact ⟨_, Table.mem_update.2 ⟨o, hmem, by simp only [hp, if_true]⟩, rfl, Nat.succ_pos _⟩
  | publish hb he _ =>
    refine Or.inl ⟨_, hb, fun o ho => ?_⟩
    rcases List.mem_cons.1 ho with rfl | ho
    · exact he
    · exact List.mem_of_mem_erase ho
  | deliver hb => exact Or.inl ⟨_, hb, List.Subset.refl _⟩
  | publishOk hb => exact Or.inl ⟨_, hb, List.Subset.refl _⟩
  | publishErr hb => exact Or.inl ⟨_, hb, List.subset_cons_self _ _⟩
  | acknowledge hb => exact Or.inl ⟨_, hb, List.subset_cons_self _ _⟩
  | acknowledgeErr hb => exact Or.inl ⟨_, hb, List.subset_cons_self _ _⟩

theorem OutboxMove.nodup (m : OutboxMove svc s a s') (h : s.Sound)
    (ha : (outbox svc).allowed s a) : (s'.events.map OutboxEvent.id).Nodup := by
  obtain ⟨f, new, hev, hf, hnew⟩ := m.rows h.nodup
  have hids : (s.events.map f).map OutboxEvent.id = s.events.map OutboxEvent.id := by
    rw [List.map_map]
    exact List.map_congr_left fun r hr => OutboxEvent.id_of_asInserted (hf r hr).asInserted
  rw [hev, List.map_append, hids]
  rcases hnew with rfl | rfl
  · simpa using h.nodup
  · simpa using ha.1

theorem OutboxMove.expiry (m : OutboxMove svc s a s') (h : s.Sound)
    (ha : (outbox svc).allowed s a) {r' : OutboxEvent} (hr' : r' ∈ s'.events)
    (htok : r'.claimToken ≠ none) : r'.claimExpiresAt ≠ none := by
  rcases (m.rows h.nodup).of_mem_row hr' with ⟨r, hr, hmove⟩ | ⟨new, rfl, hnew⟩
  · cases hmove with
    | keep => exact h.expiry _ hr htok
    | claim => exact Option.some_ne_none _
    | acknowledge => exact absurd rfl htok
    | unclaim => exact absurd rfl htok
  · exact absurd (congrArg OutboxEvent.claimToken (ha.2 r' hnew)).symm htok

theorem OutboxMove.sent_claimed (m : OutboxMove svc s a s') (h : s.Sound) {e : OutboxEvent}
    (he : e ∈ s'.sent) : s'.Claimed e := by
  refine m.claimed h.nodup ?_
  cases m with
  | publish hb hmem =>
    rcases List.mem_append.1 he with he | he
    · exact h.sent e he
    · rw [List.mem_singleton.1 he]
      exact h.rows _ _ hb _ hmem
  | _ => exact h.sent e he

theorem OutboxMove.publishing (m : OutboxMove svc s a s') (h : s.Sound) {token : ℕ}
    {rest : List OutboxEvent} {e : OutboxEvent} {d : Bool} {since : ℤ}
    (hb' : s'.batches token = some ⟨rest, .publishing e d, since⟩) :
    e ∈ s'.sent ∧ (d = true → e.message ∈ s'.log) := by
  generalize hb₀ : (⟨rest, .publishing e d, since⟩ : Batch) = b' at hb'
  cases m.batch hb' with
  | keep hb =>
    subst hb₀
    obtain ⟨hmem, hdel⟩ := h.publishing _ _ _ _ _ hb
    exact ⟨m.mono.1.subset hmem, fun hd => m.mono.2.2.subset (hdel hd)⟩
  | publish hb hmem hsent =>
    cases hb₀
    exact ⟨by simp [hsent], by simp⟩
  | deliver hb hlog =>
    cases hb₀
    exact ⟨m.mono.1.subset (h.publishing _ _ _ _ _ hb).1, fun _ => by simp [hlog]⟩
  | _ => cases hb₀

theorem OutboxMove.acknowledging (m : OutboxMove svc s a s') (h : s.Sound) {token : ℕ}
    {rest : List OutboxEvent} {e : OutboxEvent} {since : ℤ}
    (hb' : s'.batches token = some ⟨rest, .acknowledging e, since⟩) : e ∈ s'.returned := by
  generalize hb₀ : (⟨rest, .acknowledging e, since⟩ : Batch) = b' at hb'
  cases m.batch hb' with
  | keep hb =>
    subst hb₀
    exact m.mono.2.1.subset (h.acknowledging _ _ _ _ hb)
  | publishOk hb hret =>
    cases hb₀
    simp [hret]
  | _ => cases hb₀

theorem OutboxMove.log_sent (m : OutboxMove svc s a s') (h : s.Sound) {x : Message}
    (hx : x ∈ s'.log) : ∃ e ∈ s'.sent, e.message = x := by
  have hold : x ∈ s.log → ∃ e ∈ s'.sent, e.message = x := fun hx => by
    obtain ⟨e, he, hex⟩ := h.log x hx
    exact ⟨e, m.mono.1.subset he, hex⟩
  cases m with
  | deliver hb =>
    rcases List.mem_append.1 hx with hx | hx
    · exact hold hx
    · exact ⟨_, (h.publishing _ _ _ _ _ hb).1, (List.mem_singleton.1 hx).symm⟩
  | arrive he =>
    rcases List.mem_append.1 hx with hx | hx
    · exact hold hx
    · exact ⟨_, he, (List.mem_singleton.1 hx).symm⟩
  | _ => exact hold hx

theorem OutboxMove.returned_log (m : OutboxMove svc s a s') (h : s.Sound) {e : OutboxEvent}
    (he : e ∈ s'.returned) : e.message ∈ s'.log := by
  refine m.mono.2.2.subset ?_
  cases m with
  | publishOk hb =>
    rcases List.mem_append.1 he with he | he
    · exact h.returned e he
    · rw [List.mem_singleton.1 he]
      exact (h.publishing _ _ _ _ _ hb).2 rfl
  | _ => exact h.returned e he

/-- A row is acknowledged by a publisher whose `Publish` of it has returned nil. -/
theorem OutboxMove.published_returned (m : OutboxMove svc s a s') (h : s.Sound)
    (ha : (outbox svc).allowed s a) {r' : OutboxEvent} (hr' : r' ∈ s'.events)
    (hpub : r'.publishedAt ≠ none) : ∃ e ∈ s'.returned, e.asInserted = r'.asInserted := by
  rcases (m.rows h.nodup).of_mem_row hr' with ⟨r, hr, hmove⟩ | ⟨new, rfl, hnew⟩
  · cases hmove with
    | acknowledge hb hid =>
      obtain ⟨o, ho, hoe, -⟩ := h.rows _ _ hb _ (List.mem_cons_self ..)
      obtain rfl := Table.eq_of_key h.nodup ho hr
        ((OutboxEvent.id_of_asInserted hoe).trans hid.symm)
      exact ⟨_, m.mono.2.1.subset (h.acknowledging _ _ _ _ hb), hoe.symm⟩
    | _ =>
      obtain ⟨e, he, her⟩ := h.published _ hr hpub
      exact ⟨e, m.mono.2.1.subset he, her⟩
  · exact absurd (congrArg OutboxEvent.publishedAt (ha.2 r' hnew)).symm hpub

theorem Outbox.Sound.next (h : s.Sound) (ha : (outbox svc).allowed s a) :
    ((outbox svc).next s a).Sound := by
  have m := outbox_move svc s a
  exact {
    nodup := m.nodup h ha
    expiry := fun r hr => m.expiry h ha hr
    rows := fun token b hb e he => by
      rcases m.of_batch hb with ⟨b₀, hb₀, hsub⟩ | hcl
      · exact m.claimed h.nodup (h.rows token b₀ hb₀ e (hsub he))
      · exact hcl e he
    sent := fun e he => m.sent_claimed h he
    publishing := fun _ _ _ _ _ hb => m.publishing h hb
    acknowledging := fun _ _ _ _ hb => m.acknowledging h hb
    log := fun x hx => m.log_sent h hx
    returned := fun e he => m.returned_log h he
    published := fun r hr => m.published_returned h ha hr }

/-- Every interleaving keeps the outbox sound. -/
theorem Outbox.Sound.run (h : s.Sound) {as : List OutboxStep} (hv : (outbox svc).Valid s as) :
    ((outbox svc).run s as).Sound :=
  (outbox svc).invariant (fun _ _ hs ha => hs.next ha) h hv

/-- The broker took what is published. -/
theorem Outbox.Sound.message_mem_log (h : s.Sound) {r : OutboxEvent} (hr : r ∈ s.events)
    (hpub : r.publishedAt ≠ none) : r.message ∈ s.log := by
  obtain ⟨e, he, her⟩ := h.published r hr hpub
  exact OutboxEvent.message_of_asInserted her ▸ h.returned e he

end RunMesh
