import RunMesh.OutboxOrder
import Mathlib.Algebra.Order.Ring.Int

/-!
# Publisher exclusivity

One claim covers a batch that is sent event by event, and its time to live is compared with
the timeout of one `Publish` only. `Timely` bounds the time a publisher takes : `Publish`
returns within its timeout, and between two of them, or before the first, no more than
`pause` goes by. A batch of `n` events is then sent within `n * (pause + publishTimeout)`,
and claims outlive their batches if and only if this is below the time to live for a full
batch (`publisher_exclusivity_iff`). If they do, and if no event is committed that comes
before a claimed one of its ordering key (`InOrder`), then no two publishers send events of
one ordering key at once, and no event is sent after a later one.

There are two invariants. `Guarded` : each event a publisher has still to send is claimed by
it, with an expiry past the time its batch can take. `Ordered` : a claimed event comes first
among the unpublished ones of its ordering key.
-/

namespace RunMesh

variable {svc : Service} {pause : ℤ} {s s' : Outbox} {a : OutboxStep} {token : ℕ} {b : Batch}

/-! ## Timing -/

/-- At the time `now` the publisher may still be where it stands. -/
def Batch.InTime (svc : Service) (pause now : ℤ) (b : Batch) : Prop :=
  match b.phase with
  | .publishing _ _ => now ≤ b.since + svc.publishTimeout
  | .releasing => True
  | _ => b.rest ≠ [] → now ≤ b.since + pause

/-- Time goes on only as far as each publisher may stay where it stands. -/
def Timely (svc : Service) (pause : ℤ) (s : Outbox) : OutboxStep → Prop
  | .advance now => ∀ token b, s.batches token = some b → b.InTime svc pause now
  | _ => True

/-- No event is committed that comes before a claimed one of its ordering key. -/
def InOrder (s : Outbox) : OutboxStep → Prop
  | .insert new => ∀ e ∈ new, ∀ r ∈ s.events, r.orderingKey = e.orderingKey → e.before r →
      r.publishAttempts = 0
  | _ => True

/-- An allowed step that is timely. -/
def Prompt (svc : Service) (pause : ℤ) (s : Outbox) (a : OutboxStep) : Prop :=
  (outbox svc).allowed s a ∧ Timely svc pause s a

/-- An allowed step that is timely and in order. -/
def Paced (svc : Service) (pause : ℤ) (s : Outbox) (a : OutboxStep) : Prop :=
  (outbox svc).allowed s a ∧ Timely svc pause s a ∧ InOrder s a

/-- The claim on an event inside `Publish` has not expired. -/
def Unexpired (s : Outbox) : Prop :=
  ∀ token b, s.batches token = some b → ∀ e ∈ b.phase.inPublish,
    ∃ r ∈ s.events, r.id = e.id ∧ r.claimToken = some token ∧
      ∃ x, r.claimExpiresAt = some x ∧ s.clock < x

/-- No claim on an event inside `Publish` has expired, no two publishers are inside
`Publish` for one ordering key, and no event was sent after a later one of its key. -/
structure Exclusive (s : Outbox) : Prop where
  unexpired : Unexpired s
  alone : ∀ token token' b b', s.batches token = some b → s.batches token' = some b' →
    ∀ e ∈ b.phase.inPublish, ∀ e' ∈ b'.phase.inPublish, e.orderingKey = e'.orderingKey →
      token = token'
  inOrder : s.sent.Pairwise fun e e' => e.orderingKey = e'.orderingKey → ¬e'.before e

/-- The latest time at which the publisher leaves its last `Publish`. -/
def Batch.due (svc : Service) (pause : ℤ) (b : Batch) : ℤ :=
  b.since + (b.phase.inPublish.length * svc.publishTimeout +
    b.rest.length * (pause + svc.publishTimeout))

/-- The row of the event is claimed by the publisher until `x`. -/
def Outbox.Held (s : Outbox) (token : ℕ) (x : ℤ) (e : OutboxEvent) : Prop :=
  ∃ r ∈ s.events, r.asInserted = e.asInserted ∧ r.publishedAt = none ∧
    r.claimToken = some token ∧ r.claimExpiresAt = some x

/-- The claims of the publishers outlive their batches. -/
structure Guarded (svc : Service) (pause : ℤ) (s : Outbox) : Prop where
  sound : s.Sound
  inTime : ∀ token b, s.batches token = some b → b.InTime svc pause s.clock
  held : ∀ token b, s.batches token = some b → b.phase ≠ .releasing →
    ∃ x, b.due svc pause < x ∧ ∀ e ∈ b.pending, s.Held token x e
  distinct : ∀ token b, s.batches token = some b → (b.rows.map OutboxEvent.id).Nodup

/-- Claimed rows come first in their ordering key, and their events are sent in order. -/
structure Ordered (s : Outbox) : Prop where
  first : ∀ r ∈ s.events, 0 < r.publishAttempts → ∀ earlier ∈ s.events, ¬r.Blocks earlier
  inOrder : s.sent.Pairwise fun e e' => e.orderingKey = e'.orderingKey → ¬e'.before e

theorem Outbox.Init.guarded (h : s.Init) : Guarded svc pause s where
  sound := h.sound
  inTime := by simp [h.batches]
  held := by simp [h.batches]
  distinct := by simp [h.batches]

theorem Outbox.Init.ordered (h : s.Init) : Ordered s where
  first := by simp [h.events]
  inOrder := by simp [h.sent]

/-- While a publisher has an event to send, its batch is not due. -/
theorem Batch.InTime.le_due {now : ℤ} (hpause : 0 ≤ pause) (h : b.InTime svc pause now)
    (hphase : b.phase ≠ .releasing) {e : OutboxEvent} (he : e ∈ b.pending) :
    now ≤ b.due svc pause := by
  have hpos := svc.publishTimeout_pos
  have hround : 0 ≤ pause + svc.publishTimeout := by omega
  have hnonneg : 0 ≤ (b.rest.length : ℤ) * (pause + svc.publishTimeout) :=
    mul_nonneg (Int.natCast_nonneg _) hround
  have hrest : b.rest ≠ [] → pause + svc.publishTimeout ≤
      (b.rest.length : ℤ) * (pause + svc.publishTimeout) := fun hne =>
    le_mul_of_one_le_left hround (by exact_mod_cast List.length_pos_iff.2 hne)
  obtain ⟨rest, phase, since⟩ := b
  cases phase with
  | publishing e d =>
    simp only [Batch.InTime, Batch.due, Phase.inPublish, List.length_singleton, Nat.cast_one,
      one_mul] at *
    omega
  | releasing => exact absurd rfl hphase
  | ready =>
    have hne : rest ≠ [] := List.ne_nil_of_mem he
    have hnow := h hne
    have hle := hrest hne
    simp only [Batch.due, Phase.inPublish, List.length_nil, Nat.cast_zero, zero_mul] at *
    omega
  | acknowledging e =>
    have hne : rest ≠ [] := List.ne_nil_of_mem he
    have hnow := h hne
    have hle := hrest hne
    simp only [Batch.due, Phase.inPublish, List.length_nil, Nat.cast_zero, zero_mul] at *
    omega

/-- A row stays claimed by a publisher that has its event to send. -/
theorem Guarded.held_next (h : Guarded svc pause s) (hpause : 0 ≤ pause)
    (m : OutboxMove svc s a s') (hb : s.batches token = some b) (hphase : b.phase ≠ .releasing)
    {x : ℤ} (hx : b.due svc pause < x) {e : OutboxEvent} (he : e ∈ b.pending)
    (hheld : s.Held token x e) : s'.Held token x e := by
  obtain ⟨r, hr, hre, hun, htok, hexp⟩ := hheld
  obtain ⟨r', hr', hmove⟩ := (m.rows h.sound.nodup).mem_row hr
  refine ⟨r', hr', hmove.asInserted.trans hre, ?_⟩
  cases hmove with
  | keep => exact ⟨hun, htok, hexp⟩
  | claim hcl =>
    -- the claim has not expired, so no other publisher gets the row
    have hle := (h.inTime token b hb).le_due hpause hphase he
    rcases hcl.2.1 with hnone | ⟨y, hy, hle'⟩
    · simp [htok] at hnone
    · rw [hexp, Option.mem_some] at hy
      omega
  | acknowledge hack hid hclaim =>
    obtain rfl := Option.some.inj (htok.symm.trans hclaim)
    obtain rfl := Option.some.inj (hb.symm.trans hack)
    have hnd := h.distinct _ _ hb
    rw [Batch.rows, List.map_append, List.nodup_append] at hnd
    exact absurd (hid.symm.trans (OutboxEvent.id_of_asInserted hre))
      (hnd.2.2 _ (List.mem_map_of_mem (List.mem_singleton_self _)) _ (List.mem_map_of_mem he))
  | unclaim hrel hclaim =>
    obtain rfl := Option.some.inj (htok.symm.trans hclaim)
    obtain rfl := Option.some.inj (hb.symm.trans hrel)
    exact absurd rfl hphase

/-- A claim takes at most a full batch. -/
theorem length_returning_candidates (svc : Service)
    (hnd : (s.events.map OutboxEvent.id).Nodup) (locked : List ℕ)
    (row : OutboxEvent → OutboxEvent) :
    (Table.returning (fun o => o.id ∈ (candidates svc s.clock locked s.events).map (·.id)) row
      s.events).length ≤ svc.batchSize := by
  set ids := (candidates svc s.clock locked s.events).map (·.id) with hids
  have hsub : (s.events.filter fun o => o.id ∈ ids).map OutboxEvent.id ⊆ ids := by
    intro i hi
    obtain ⟨o, ho, rfl⟩ := List.mem_map.1 hi
    exact of_decide_eq_true (List.mem_filter.1 ho).2
  have hnd' : ((s.events.filter fun o => o.id ∈ ids).map OutboxEvent.id).Nodup :=
    (List.filter_sublist.map _).nodup hnd
  calc (Table.returning (fun o => decide (o.id ∈ ids)) row s.events).length
      = ((s.events.filter fun o => o.id ∈ ids).map OutboxEvent.id).length := by
        simp [Table.returning]
    _ ≤ ids.length := (hnd'.subperm hsub).length_le
    _ ≤ svc.batchSize := by
        rw [hids, List.length_map]
        exact List.length_take_le _ _

/-- The rows a claim returns are held until it expires. -/
theorem held_of_claim (locked : List ℕ) {p : OutboxEvent → Bool}
    (hnd : (s.events.map OutboxEvent.id).Nodup)
    (hp : p = fun o => decide (o.id ∈ (candidates svc s.clock locked s.events).map (·.id)))
    (hev : s'.events = Table.update p (.claim token (s.clock + svc.claimTTL)) s.events)
    {e : OutboxEvent}
    (he : e ∈ Table.returning p (.claim token (s.clock + svc.claimTTL)) s.events) :
    s'.Held token (s.clock + svc.claimTTL) e := by
  obtain ⟨o, ho, rfl⟩ := List.mem_map.1 he
  obtain ⟨hmem, hpo⟩ := List.mem_filter.1 ho
  have hpo' := hpo
  rw [hp] at hpo'
  obtain ⟨c, hc, hid⟩ := List.mem_map.1 (of_decide_eq_true hpo')
  obtain ⟨hcmem, hcl⟩ := claimable_of_mem_candidates hc
  obtain rfl := Table.eq_of_key hnd hcmem hmem hid
  rw [Outbox.Held, hev]
  exact ⟨_, Table.mem_update.2 ⟨c, hmem, by simp only [hpo, if_true]⟩, rfl, hcl.1, rfl, rfl⟩

/-- The events a publisher has to send stay claimed past the time its batch can take. -/
theorem Guarded.next_held (h : Guarded svc pause s) (hpause : 0 ≤ pause)
    (hfit : svc.batchSize * (pause + svc.publishTimeout) < svc.claimTTL)
    (m : OutboxMove svc s a s') (hb' : s'.batches token = some b) (hphase : b.phase ≠ .releasing) :
    ∃ x, b.due svc pause < x ∧ ∀ e ∈ b.pending, s'.Held token x e := by
  -- a move that sends nothing new and does not put off the batch
  have hold : ∀ b₀ : Batch, s.batches token = some b₀ → b₀.phase ≠ .releasing →
      b.due svc pause ≤ b₀.due svc pause → b.pending ⊆ b₀.pending →
      ∃ x, b.due svc pause < x ∧ ∀ e ∈ b.pending, s'.Held token x e := by
    intro b₀ hb₀ hphase₀ hdue hsub
    obtain ⟨x, hx, hheld⟩ := h.held token b₀ hb₀ hphase₀
    exact ⟨x, hdue.trans_lt hx, fun e he =>
      h.held_next hpause m hb₀ hphase₀ hx (hsub he) (hheld e (hsub he))⟩
  have hround : 0 ≤ pause + svc.publishTimeout := by
    have := svc.publishTimeout_pos
    omega
  cases m.batch hb' with
  | keep hb => exact hold _ hb hphase le_rfl (List.Subset.refl _)
  | @claim _ locked _ hp hev =>
    refine ⟨s.clock + svc.claimTTL, ?_, fun e he => held_of_claim locked h.sound.nodup hp hev he⟩
    have hlen := length_returning_candidates svc h.sound.nodup locked
      (OutboxEvent.claim token (s.clock + svc.claimTTL))
    have hle := mul_le_mul_of_nonneg_right (Int.ofNat_le.2 hlen) hround
    simp only [Batch.due, Phase.inPublish, List.length_nil, Nat.cast_zero, zero_mul, hp]
    omega
  | @publish _ rest since e hb he _ =>
    refine hold _ hb (by simp) ?_ fun o ho => ?_
    · have hnow : s.clock ≤ since + pause := h.inTime _ _ hb (List.ne_nil_of_mem he)
      have hlen : (rest.length : ℤ) = (rest.erase e).length + 1 := by
        exact_mod_cast (List.length_erase_add_one he).symm
      simp only [Batch.due, Phase.inPublish, List.length_nil, List.length_singleton, hlen]
      push_cast
      rw [add_mul]
      omega
    · rcases List.mem_cons.1 ho with rfl | ho
      · exact he
      · exact List.mem_of_mem_erase ho
  | deliver hb _ => exact hold _ hb (by simp) le_rfl (List.Subset.refl _)
  | publishOk hb _ =>
    refine hold _ hb (by simp) ?_ (List.subset_cons_self _ _)
    have hnow := h.inTime _ _ hb
    simp only [Batch.InTime] at hnow
    simp only [Batch.due, Phase.inPublish, List.length_nil, List.length_singleton, Nat.cast_one,
      Nat.cast_zero, one_mul, zero_mul]
    omega
  | publishErr hb => exact absurd rfl hphase
  | acknowledge hb => exact hold _ hb (by simp) le_rfl (List.Subset.refl _)
  | acknowledgeErr hb => exact absurd rfl hphase

/-- Only time passing moves the clock. -/
theorem OutboxMove.clock (m : OutboxMove svc s a s') :
    s'.clock = s.clock ∨ a = .advance s'.clock := by
  cases m with
  | advance now => exact Or.inr rfl
  | _ => exact Or.inl rfl

theorem Guarded.next_inTime (h : Guarded svc pause s) (hpause : 0 ≤ pause)
    (ht : Timely svc pause s a) (m : OutboxMove svc s a s') (hb' : s'.batches token = some b) :
    b.InTime svc pause s'.clock := by
  have hpos := svc.publishTimeout_pos
  have hclock := m.clock
  cases m.batch hb' with
  | keep hb =>
    rcases hclock with hc | rfl
    · exact hc ▸ h.inTime token b hb
    · exact ht token b hb
  | claim =>
    rw [hclock.resolve_right (by simp)]
    exact fun _ => by simpa using hpause
  | publish =>
    rw [hclock.resolve_right (by simp)]
    simp only [Batch.InTime]
    omega
  | deliver hb =>
    rw [hclock.resolve_right (by simp)]
    have hold := h.inTime _ _ hb
    exact hold
  | publishOk hb =>
    rw [hclock.resolve_right (by simp)]
    exact fun _ => by simpa using hpause
  | publishErr => trivial
  | acknowledge hb =>
    rw [hclock.resolve_right (by simp)]
    have hold := h.inTime _ _ hb
    exact hold
  | acknowledgeErr => trivial

theorem Guarded.next_distinct (h : Guarded svc pause s) (m : OutboxMove svc s a s')
    (hb' : s'.batches token = some b) : (b.rows.map OutboxEvent.id).Nodup := by
  cases m.batch hb' with
  | keep hb => exact h.distinct token b hb
  | @claim _ _ p =>
    exact Table.nodup_map_returning h.sound.nodup
      (f := .claim token (s.clock + svc.claimTTL)) (fun _ => rfl) p
  | publish hb he =>
    have hnd := ((List.perm_cons_erase he).map _).nodup_iff.1 (h.distinct _ _ hb)
    exact hnd
  | deliver hb =>
    have hnd := h.distinct _ _ hb
    exact hnd
  | publishOk hb =>
    have hnd := h.distinct _ _ hb
    exact hnd
  | publishErr hb =>
    have hnd := h.distinct _ _ hb
    exact hnd.of_cons
  | acknowledge hb =>
    have hnd := h.distinct _ _ hb
    exact hnd.of_cons
  | acknowledgeErr hb =>
    have hnd := h.distinct _ _ hb
    exact hnd.of_cons

theorem Guarded.next (h : Guarded svc pause s) (hpause : 0 ≤ pause)
    (hfit : svc.batchSize * (pause + svc.publishTimeout) < svc.claimTTL)
    (ha : Prompt svc pause s a) : Guarded svc pause ((outbox svc).next s a) := by
  have m := outbox_move svc s a
  exact {
    sound := h.sound.next ha.1
    inTime := fun _ _ hb => h.next_inTime hpause ha.2 m hb
    held := fun _ _ hb hphase => h.next_held hpause hfit m hb hphase
    distinct := fun _ _ hb => h.next_distinct m hb }

/-- A claimed row stays the first unpublished one of its ordering key. -/
theorem Ordered.next_first (h : Ordered s) (hs : s.Sound) (ha : (outbox svc).allowed s a)
    (ho : InOrder s a) (m : OutboxMove svc s a s') {r' : OutboxEvent} (hr' : r' ∈ s'.events)
    (hpos : 0 < r'.publishAttempts) {earlier' : OutboxEvent} (he' : earlier' ∈ s'.events) :
    ¬r'.Blocks earlier' := by
  rintro ⟨hkey, hun, hbefore⟩
  have hrows := m.rows hs.nodup
  rcases hrows.of_mem_row hr' with ⟨r, hr, hmove⟩ | ⟨new, rfl, hnew⟩
  · rcases hrows.of_mem_row he' with ⟨earlier, he, hmove'⟩ | ⟨new, rfl, hnew⟩
    · have hblocks : r.Blocks earlier := by
        refine ⟨?_, ?_, ?_⟩
        · rwa [← OutboxEvent.orderingKey_of_asInserted hmove.asInserted,
            ← OutboxEvent.orderingKey_of_asInserted hmove'.asInserted]
        · by_contra hpub
          exact hmove'.published hpub hun
        · exact (OutboxEvent.before_of_asInserted hmove'.asInserted hmove.asInserted).1 hbefore
      cases hmove with
      | claim hcl => exact hcl.2.2 earlier he hblocks
      | _ => exact h.first _ hr hpos earlier he hblocks
    · cases hmove with
      | keep => exact hpos.ne' (ho earlier' hnew _ hr hkey.symm hbefore)
  · exact hpos.ne' (congrArg OutboxEvent.publishAttempts (ha.2 r' hnew)).symm

/-- No event is sent after a later one of its ordering key. -/
theorem Ordered.next_inOrder (h : Ordered s) (hg : Guarded svc pause s)
    (m : OutboxMove svc s a s') :
    s'.sent.Pairwise fun e e' => e.orderingKey = e'.orderingKey → ¬e'.before e := by
  cases m with
  | publish hb he =>
    refine List.pairwise_append.2 ⟨h.inOrder, List.pairwise_singleton _ _, fun x hx y hy => ?_⟩
    rw [List.mem_singleton.1 hy]
    intro hkey hbefore
    obtain ⟨r, hr, hrx, hpos⟩ := hg.sound.sent x hx
    obtain ⟨_, -, hheld⟩ := hg.held _ _ hb (by simp)
    obtain ⟨q, hq, hqe, hun, -⟩ := hheld _ he
    refine h.first r hr hpos q hq ⟨?_, hun, ?_⟩
    · rw [OutboxEvent.orderingKey_of_asInserted hqe, OutboxEvent.orderingKey_of_asInserted hrx,
        hkey]
    · exact (OutboxEvent.before_of_asInserted hqe hrx).2 hbefore
  | _ => exact h.inOrder

theorem Ordered.next (h : Ordered s) (hg : Guarded svc pause s)
    (ha : (outbox svc).allowed s a) (ho : InOrder s a) : Ordered ((outbox svc).next s a) where
  first _ hr hpos _ he := h.next_first hg.sound ha ho (outbox_move svc s a) hr hpos he
  inOrder := h.next_inOrder hg (outbox_move svc s a)

theorem Phase.ne_releasing {p : Phase} {e : OutboxEvent} (h : e ∈ p.inPublish) :
    p ≠ .releasing := by
  rintro rfl
  simp [Phase.inPublish] at h

theorem Guarded.unexpired (h : Guarded svc pause s) (hpause : 0 ≤ pause) : Unexpired s := by
  intro token b hb e he
  have hmem : e ∈ b.pending := List.mem_append_left _ he
  obtain ⟨x, hx, hheld⟩ := h.held token b hb (Phase.ne_releasing he)
  obtain ⟨r, hr, hre, -, htok, hexp⟩ := hheld e hmem
  exact ⟨r, hr, OutboxEvent.id_of_asInserted hre, htok, x, hexp,
    ((h.inTime token b hb).le_due hpause (Phase.ne_releasing he) hmem).trans_lt hx⟩

/-- Publishers whose claims outlive their batches and come in order exclude each other. -/
theorem Guarded.exclusive (h : Guarded svc pause s) (hord : Ordered s) (hpause : 0 ≤ pause) :
    Exclusive s where
  unexpired := h.unexpired hpause
  alone token token' b b' hb hb' e he e' he' hkey := by
    have hclaimed : ∀ {t c o}, s.batches t = some c → o ∈ c.phase.inPublish →
        ∃ r ∈ s.events, r.orderingKey = o.orderingKey ∧ r.publishedAt = none ∧
          r.claimToken = some t ∧ 0 < r.publishAttempts := by
      intro t c o hc ho
      have hmem : o ∈ c.pending := List.mem_append_left _ ho
      obtain ⟨x, -, hheld⟩ := h.held t c hc (Phase.ne_releasing ho)
      obtain ⟨r, hr, hro, hun, htok, -⟩ := hheld o hmem
      exact ⟨r, hr, OutboxEvent.orderingKey_of_asInserted hro, hun, htok,
        h.sound.publishAttempts_pos (h.sound.rows t c hc o (List.mem_append_right _ hmem)) hr
          (OutboxEvent.id_of_asInserted hro).symm⟩
    obtain ⟨r, hr, hrk, hun, htok, hpos⟩ := hclaimed hb he
    obtain ⟨r', hr', hrk', hun', htok', hpos'⟩ := hclaimed hb' he'
    have hkeys : r.orderingKey = r'.orderingKey := hrk.trans (hkey.trans hrk'.symm)
    -- of two rows of one key that are claimed and unpublished, neither comes first
    rcases lt_trichotomy r.rank r'.rank with hlt | heq | hlt
    · exact absurd ⟨hkeys, hun, OutboxEvent.before_iff.2 hlt⟩ (hord.first r' hr' hpos' r hr)
    · have hid : r.id = r'.id := congrArg (fun k => (ofLex k).2) heq
      rw [Table.eq_of_key h.sound.nodup hr hr' hid] at htok
      exact Option.some.inj (htok.symm.trans htok')
    · exact absurd ⟨hkeys.symm, hun', OutboxEvent.before_iff.2 hlt⟩ (hord.first r hr hpos r' hr')
  inOrder := hord.inOrder

/-! ## A full batch -/

/-- A publisher, the only one, is about to send the events `es`, claimed until `x`. -/
structure Loop (token : ℕ) (x c : ℤ) (es : List OutboxEvent) (s : Outbox) : Prop where
  batch : s.batches token = some ⟨es, .ready, c⟩
  only : ∀ u, u ≠ token → s.batches u = none
  clock : s.clock = c
  nodup : (s.events.map OutboxEvent.id).Nodup
  held : ∀ e ∈ es, s.Held token x e
  distinct : (es.map OutboxEvent.id).Nodup

/-- Time may pass as far as the only publisher allows. -/
theorem paced_advance (token : ℕ) (hb : s.batches token = some b)
    (honly : ∀ u, u ≠ token → s.batches u = none) {now : ℤ} (hnow : s.clock ≤ now)
    (hin : b.InTime svc pause now) :
    Paced svc pause s (.advance now) := by
  refine ⟨hnow, fun u b' hb' => ?_, trivial⟩
  by_cases hu : u = token
  · obtain rfl := Option.some.inj ((hu ▸ hb').symm.trans hb)
    exact hin
  · simp [honly u hu] at hb'

/-- The publisher waits as long as it may, and sends an event as slowly as it may. -/
def sendSlowly (svc : Service) (pause c : ℤ) (token : ℕ) (e : OutboxEvent) : List OutboxStep :=
  [.advance (c + pause), .publish token e.id, .advance (c + pause + svc.publishTimeout)]

theorem Loop.sendSlowly (svc : Service) {x c : ℤ} {e : OutboxEvent} {es : List OutboxEvent}
    (h : Loop token x c (e :: es) s) (hpause : 0 ≤ pause) :
    (outbox svc).Along (Paced svc pause) s (sendSlowly svc pause c token e) ∧
      (outbox svc).run s (RunMesh.sendSlowly svc pause c token e) =
        { s with
          sent := s.sent ++ [e]
          clock := c + pause + svc.publishTimeout
          batches := Function.update s.batches token
            (some ⟨es, .publishing e false, c + pause⟩) } := by
  have hpos := svc.publishTimeout_pos
  have hpub : (outbox svc).next { s with clock := c + pause } (.publish token e.id) =
      { s with
        sent := s.sent ++ [e]
        clock := c + pause
        batches := Function.update s.batches token
          (some ⟨es, .publishing e false, c + pause⟩) } := by
    simp [outbox, Outbox.publish, h.batch, Outbox.setBatch]
  refine ⟨⟨?_, ⟨trivial, trivial, trivial⟩, ?_, trivial⟩, ?_⟩
  · exact paced_advance token h.batch h.only (by rw [h.clock]; omega) fun _ => le_rfl
  · show Paced svc pause ((outbox svc).next { s with clock := c + pause } _) _
    rw [hpub]
    refine paced_advance token (Function.update_self ..) (fun u hu => ?_) ?_ le_rfl
    · simp [hu, h.only u hu]
    · show c + pause ≤ _
      omega
  · show (outbox svc).next ((outbox svc).next { s with clock := c + pause } _) _ = _
    rw [hpub]
    rfl

/-- The acknowledgement of an event that the publisher holds finds its row. -/
theorem Outbox.Held.countP_acknowledges {x : ℤ} {e : OutboxEvent} (h : s.Held token x e)
    (hnd : (s.events.map OutboxEvent.id).Nodup) :
    s.events.countP (Outbox.acknowledges token e) = 1 := by
  obtain ⟨r, hr, hre, hun, htok, -⟩ := h
  have hid := OutboxEvent.id_of_asInserted hre
  refine Table.countP_eq_one (List.Nodup.of_map _ hnd) hr (decide_eq_true ⟨hid, hun, htok⟩) ?_
  intro o ho hp
  exact Table.eq_of_key hnd ho hr ((of_decide_eq_true hp).1.trans hid.symm)

/-- The event is sent and acknowledged. -/
def sendOk (svc : Service) (pause c : ℤ) (token : ℕ) (e : OutboxEvent) : List OutboxStep :=
  sendSlowly svc pause c token e ++
    [.deliver token, .publishOk token, .acknowledge token .answered]

theorem Loop.sendOk (svc : Service) {x c : ℤ} {e e' : OutboxEvent} {es : List OutboxEvent}
    (h : Loop token x c (e :: e' :: es) s) (hpause : 0 ≤ pause) :
    (outbox svc).Along (Paced svc pause) s (sendOk svc pause c token e) ∧
      Loop token x (c + pause + svc.publishTimeout) (e' :: es)
        ((outbox svc).run s (RunMesh.sendOk svc pause c token e)) := by
  obtain ⟨halong, hrun⟩ := h.sendSlowly svc hpause
  have hone := (h.held e (by simp)).countP_acknowledges h.nodup
  refine ⟨((outbox svc).along_append _ _ _ _).2 ⟨halong, ?_⟩, ?_⟩
  · exact ⟨⟨trivial, trivial, trivial⟩, ⟨trivial, trivial, trivial⟩, ⟨trivial, trivial, trivial⟩,
      trivial⟩
  · set now := c + pause + svc.publishTimeout
    have hack : (outbox svc).run s (RunMesh.sendOk svc pause c token e) =
        { events := Table.update (Outbox.acknowledges token e) (.acknowledge now) s.events
          batches := Function.update s.batches token (some ⟨e' :: es, .ready, now⟩)
          sent := s.sent ++ [e]
          returned := s.returned ++ [e]
          log := s.log ++ [e.message]
          clock := now } := by
      rw [RunMesh.sendOk, (outbox svc).run_append, hrun]
      simp [outbox, Outbox.deliver, Outbox.publishOk, Outbox.acknowledge, Outbox.setBatch, hone]
    rw [hack]
    have hnd := h.distinct
    rw [List.map_cons, List.nodup_cons] at hnd
    exact {
      batch := Function.update_self ..
      only := fun u hu => by simp [hu, h.only u hu]
      clock := rfl
      nodup := (Table.map_update (f := .acknowledge now) (g := OutboxEvent.id) (fun _ => rfl)
        s.events).symm ▸ h.nodup
      held := fun o ho => by
        obtain ⟨r, hr, hro, hrest⟩ := h.held o (List.mem_cons_of_mem _ ho)
        have hne : Outbox.acknowledges token e r = false := decide_eq_false fun hp =>
          hnd.1 (hp.1 ▸ OutboxEvent.id_of_asInserted hro ▸ List.mem_map_of_mem ho)
        exact ⟨r, Table.mem_update.2 ⟨r, hr, by simp [hne]⟩, hro, hrest⟩
      distinct := hnd.2 }

/-- The publisher sends the last event of its batch when its earlier ones have taken as long
as they may. -/
theorem Loop.full (svc : Service) {x : ℤ} (hpause : 0 ≤ pause) (es : List OutboxEvent) :
    ∀ {c : ℤ} {e : OutboxEvent} {s : Outbox}, Loop token x c (e :: es) s →
      ∃ as, (outbox svc).Along (Paced svc pause) s as ∧
        ((outbox svc).run s as).clock = c + (es.length + 1) * (pause + svc.publishTimeout) ∧
        ∃ b, ((outbox svc).run s as).batches token = some b ∧ ∃ o ∈ b.phase.inPublish,
          ∀ r ∈ ((outbox svc).run s as).events, r.id = o.id → r.claimExpiresAt = some x := by
  induction es with
  | nil =>
    intro c e s h
    obtain ⟨halong, hrun⟩ := h.sendSlowly svc hpause
    refine ⟨_, halong, ?_⟩
    rw [hrun]
    refine ⟨by simp; omega, _, Function.update_self .., e, List.mem_singleton_self e, ?_⟩
    intro r hr hid
    obtain ⟨q, hq, hqe, -, -, hexp⟩ := h.held e (by simp)
    rwa [Table.eq_of_key h.nodup hr hq (hid.trans (OutboxEvent.id_of_asInserted hqe).symm)]
  | cons e' es ih =>
    intro c e s h
    obtain ⟨halong, hloop⟩ := h.sendOk svc hpause
    obtain ⟨as, has, hclock, hlast⟩ := ih hloop
    refine ⟨RunMesh.sendOk svc pause c token e ++ as, ((outbox svc).along_append _ _ _ _).2
      ⟨halong, has⟩, ?_⟩
    rw [(outbox svc).run_append]
    refine ⟨hclock.trans ?_, hlast⟩
    rw [List.length_cons, Nat.cast_succ, add_mul ((es.length : ℤ) + 1) 1, one_mul]
    omega

/-- As many events as fit in a batch, of different runs. -/
def fullBatch (svc : Service) : List OutboxEvent :=
  (List.range svc.batchSize).map fun i => sampleEvent i i 0

theorem map_id_fullBatch (svc : Service) :
    (fullBatch svc).map OutboxEvent.id = List.range svc.batchSize := by
  rw [fullBatch, List.map_map]
  exact List.map_id _

/-- A claim takes the full batch. -/
theorem mem_candidates_fullBatch (svc : Service) {o : OutboxEvent} (ho : o ∈ fullBatch svc) :
    o ∈ candidates svc 0 [] (fullBatch svc) := by
  have hfull : ((fullBatch svc).filter fun o => Claimable 0 (fullBatch svc) o ∧
      o.id ∉ ([] : List ℕ)).length ≤ svc.batchSize :=
    (List.length_filter_le _ _).trans (by simp [fullBatch])
  rw [candidates, List.take_of_length_le (by rwa [List.length_insertionSort]),
    List.mem_insertionSort]
  refine List.mem_filter.2 ⟨ho, decide_eq_true ⟨?_, List.not_mem_nil⟩⟩
  obtain ⟨i, -, rfl⟩ := List.mem_map.1 ho
  refine ⟨rfl, Or.inl rfl, ?_⟩
  rintro earlier he ⟨hkey, -, hbefore⟩
  obtain ⟨j, -, rfl⟩ := List.mem_map.1 he
  obtain rfl : j = i := hkey
  simp [OutboxEvent.before] at hbefore

/-- The full batch is committed and claimed. -/
def claimFullBatch (svc : Service) : List OutboxStep :=
  [.insert (fullBatch svc), .claim 0 []]

theorem loop_claimFullBatch (pause : ℤ) (hacc : svc.publishTimeout < svc.claimTTL) :
    (outbox svc).Along (Paced svc pause) emptyOutbox (claimFullBatch svc) ∧
      ∃ e es, es.length + 1 = svc.batchSize ∧ Loop 0 (0 + svc.claimTTL) 0 (e :: es)
        ((outbox svc).run emptyOutbox (claimFullBatch svc)) := by
  have hnd : ((fullBatch svc).map OutboxEvent.id).Nodup := by
    rw [map_id_fullBatch]
    exact List.nodup_range
  have hunclaimed : ∀ e ∈ fullBatch svc, e.asInserted = e ∧ e.claimToken = none := by
    intro e he
    obtain ⟨i, -, rfl⟩ := List.mem_map.1 he
    exact ⟨rfl, rfl⟩
  refine ⟨⟨⟨⟨by simpa [emptyOutbox] using hnd, fun e he => (hunclaimed e he).1⟩, trivial,
    by simp [InOrder, emptyOutbox]⟩, ⟨⟨rfl, fun e he => ?_⟩, trivial, trivial⟩, trivial⟩, ?_⟩
  · have he' : e ∈ fullBatch svc := by simpa [emptyOutbox, outbox] using he
    simp [(hunclaimed e he').2]
  · set p : OutboxEvent → Bool := fun o =>
      decide (o.id ∈ (candidates svc 0 [] (fullBatch svc)).map (·.id)) with hp
    set row := OutboxEvent.claim 0 (0 + svc.claimTTL)
    have hall : ∀ o ∈ fullBatch svc, p o = true := fun o ho =>
      decide_eq_true (List.mem_map_of_mem (mem_candidates_fullBatch svc ho))
    have hret : Table.returning p row (fullBatch svc) = (fullBatch svc).map row := by
      rw [Table.returning, List.filter_eq_self.2 hall]
    have hlen : ((fullBatch svc).map row).length = svc.batchSize := by simp [fullBatch]
    have hrun : (outbox svc).run emptyOutbox (claimFullBatch svc) =
        Outbox.setBatch { emptyOutbox with events := Table.update p row (fullBatch svc) } 0
          (some ⟨(fullBatch svc).map row, .ready, 0⟩) := by
      show Outbox.claim svc { emptyOutbox with events := [] ++ fullBatch svc } 0 [] = _
      rw [List.nil_append, Outbox.claim, if_neg, ← hret]
      · rfl
      · rintro (hle | hnil)
        · omega
        · have hnone : candidates svc 0 [] (fullBatch svc) = [] := List.map_eq_nil_iff.1 hnil
          have hmem := mem_candidates_fullBatch svc (o := sampleEvent 0 0 0)
            (List.mem_map.2 ⟨0, List.mem_range.2 svc.batchSize_pos, rfl⟩)
          simp [hnone] at hmem
    obtain ⟨e, es, hes⟩ := List.exists_cons_of_length_pos (hlen ▸ svc.batchSize_pos)
    refine ⟨e, es, by rw [← hlen, hes, List.length_cons], ?_⟩
    rw [hrun, ← hes]
    exact {
      batch := by simp [Outbox.setBatch]
      only := fun u hu => by simp [Outbox.setBatch, hu, emptyOutbox]
      clock := rfl
      nodup := (Table.map_update (f := row) (g := OutboxEvent.id) (fun _ => rfl)
        (fullBatch svc)).symm ▸ hnd
      held := fun o ho => held_of_claim (s := { emptyOutbox with events := fullBatch svc })
        [] hnd rfl rfl (hret ▸ ho)
      distinct := by
        rw [List.map_map]
        exact hnd }

/-- If claims never expire inside `Publish`, a full batch fits into the life of a claim. -/
theorem fit_of_unexpired (hacc : svc.publishTimeout < svc.claimTTL) (hpause : 0 ≤ pause)
    (h : ∀ s₀ as, s₀.Init → (outbox svc).Along (Paced svc pause) s₀ as →
      Unexpired ((outbox svc).run s₀ as)) :
    svc.batchSize * (pause + svc.publishTimeout) < svc.claimTTL := by
  obtain ⟨hclaim, e, es, hlen, hloop⟩ := loop_claimFullBatch pause hacc
  obtain ⟨as, has, hclock, b, hb, o, ho, hexp⟩ := hloop.full svc hpause
  have hun := h emptyOutbox (claimFullBatch svc ++ as) init_emptyOutbox
    (((outbox svc).along_append _ _ _ _).2 ⟨hclaim, has⟩)
  rw [(outbox svc).run_append] at hun
  obtain ⟨r, hr, hid, -, x, hx, hlt⟩ := hun 0 b hb o ho
  obtain rfl := Option.some.inj (hx.symm.trans (hexp r hr hid))
  have hsize : ((es.length : ℤ) + 1) = svc.batchSize := by exact_mod_cast hlen
  rw [hclock, hsize] at hlt
  omega

/-- Publisher exclusivity. With settings the code accepts, if publishers take no longer than
the timeout inside `Publish` and than `pause` before each, then their claims do not expire
inside `Publish` if and only if a full batch fits into the life of a claim. The same holds
of their excluding each other, if events are committed in the order of their claims. -/
theorem publisher_exclusivity_iff (hacc : svc.publishTimeout < svc.claimTTL)
    (hpause : 0 ≤ pause) :
    ((∀ s₀ as, s₀.Init → (outbox svc).Along (Prompt svc pause) s₀ as →
      Unexpired ((outbox svc).run s₀ as)) ↔
        svc.batchSize * (pause + svc.publishTimeout) < svc.claimTTL) ∧
    ((∀ s₀ as, s₀.Init → (outbox svc).Along (Paced svc pause) s₀ as →
      Exclusive ((outbox svc).run s₀ as)) ↔
        svc.batchSize * (pause + svc.publishTimeout) < svc.claimTTL) := by
  refine ⟨⟨fun h => ?_, fun hfit s₀ as h0 has => ?_⟩, ⟨fun h => ?_, fun hfit s₀ as h0 has => ?_⟩⟩
  · refine fit_of_unexpired hacc hpause fun s₀ as h0 has => h s₀ as h0 ?_
    exact (outbox svc).along_mono (fun _ _ ha => ⟨ha.1, ha.2.1⟩) has
  · have hguarded : Guarded svc pause ((outbox svc).run s₀ as) :=
      (outbox svc).invariant_along (fun _ _ hs ha => hs.next hpause hfit ha) h0.guarded has
    exact hguarded.unexpired hpause
  · exact fit_of_unexpired hacc hpause fun s₀ as h0 has => (h s₀ as h0 has).unexpired
  · have hboth := (outbox svc).invariant_along (P := fun s => Guarded svc pause s ∧ Ordered s)
      (fun _ _ hs ha => ⟨hs.1.next hpause hfit ⟨ha.1, ha.2.1⟩, hs.2.next hs.1 ha.1 ha.2.2⟩)
      ⟨h0.guarded, h0.ordered⟩ has
    exact hboth.1.exclusive hboth.2 hpause

/-! ## Runs of known publishers -/

instance (svc : Service) (pause now : ℤ) : ∀ b : Batch, Decidable (b.InTime svc pause now)
  | ⟨_, .publishing _ _, _⟩ => inferInstanceAs (Decidable (_ ≤ _))
  | ⟨_, .releasing, _⟩ => .isTrue trivial
  | ⟨_, .ready, _⟩ => inferInstanceAs (Decidable (_ → _))
  | ⟨_, .acknowledging _, _⟩ => inferInstanceAs (Decidable (_ → _))

/-- A timely step, if the publishers are those of the tokens. -/
def TimelyOn (svc : Service) (pause : ℤ) (tokens : List ℕ) (s : Outbox) : OutboxStep → Prop
  | .advance now => ∀ token ∈ tokens, ∀ b ∈ s.batches token, b.InTime svc pause now
  | .claim token _ => token ∈ tokens
  | _ => True

instance (svc : Service) (pause : ℤ) (tokens : List ℕ) (s : Outbox) :
    ∀ a, Decidable (TimelyOn svc pause tokens s a)
  | .advance now => inferInstanceAs
      (Decidable (∀ token ∈ tokens, ∀ b ∈ s.batches token, b.InTime svc pause now))
  | .claim _ _ => inferInstanceAs (Decidable (_ ∈ _))
  | .insert _ | .publish .. | .deliver _ | .arrive _ | .publishOk _ | .publishErr _
  | .acknowledge .. | .release .. | .crash _ => .isTrue trivial

instance (s : Outbox) : DecidablePred (InOrder s)
  | .insert new => inferInstanceAs (Decidable (∀ e ∈ new, ∀ r ∈ s.events,
      r.orderingKey = e.orderingKey → e.before r → r.publishAttempts = 0))
  | .advance _ | .claim .. | .publish .. | .deliver _ | .arrive _ | .publishOk _ | .publishErr _
  | .acknowledge .. | .release .. | .crash _ => .isTrue trivial

/-- A publisher is there because it claimed. -/
theorem OutboxMove.batches_none (m : OutboxMove svc s a s') {tokens : List ℕ}
    (ha : TimelyOn svc pause tokens s a) (h : ∀ u ∉ tokens, s.batches u = none) :
    ∀ u ∉ tokens, s'.batches u = none := by
  intro u hu
  rw [Option.eq_none_iff_forall_ne_some]
  intro b hb
  cases m.batch hb with
  | claim => exact hu ha
  | _ => simp_all

theorem along_timely_of_tokens {tokens : List ℕ} {as : List OutboxStep}
    (h : ∀ u ∉ tokens, s.batches u = none)
    (has : (outbox svc).Along (TimelyOn svc pause tokens) s as) :
    (outbox svc).Along (Timely svc pause) s as := by
  induction as generalizing s with
  | nil => trivial
  | cons a as ih =>
    refine ⟨?_, ih ((outbox_move svc s a).batches_none has.1 h) has.2⟩
    cases a with
    | advance now =>
      intro token b hb
      by_cases hmem : token ∈ tokens
      · exact has.1 token hmem b hb
      · simp [h token hmem] at hb
    | _ => trivial

/-- A run of the publishers of the tokens is paced if each of its steps is. -/
theorem along_paced_of_tokens (tokens : List ℕ) {as : List OutboxStep}
    (hv : (outbox svc).Valid emptyOutbox as)
    (ht : (outbox svc).Along (TimelyOn svc pause tokens) emptyOutbox as)
    (ho : (outbox svc).Along InOrder emptyOutbox as) :
    (outbox svc).Along (Paced svc pause) emptyOutbox as :=
  ((outbox svc).along_and _ _ as emptyOutbox).2 ⟨hv, ((outbox svc).along_and _ _ as
    emptyOutbox).2 ⟨along_timely_of_tokens (fun _ _ => rfl) ht, ho⟩⟩

/-- Three events of different runs, claimed together and each sent for ten seconds. When the
third is about to be taken by the broker, the claim has expired, and another publisher
claims and sends it. -/
def slowBatch : List OutboxStep :=
  [.insert [sampleEvent 1 1 0, sampleEvent 2 2 0, sampleEvent 3 3 0], .claim 9 [],
    .publish 9 1, .advance (10 * second), .deliver 9, .publishOk 9, .acknowledge 9 .answered,
    .publish 9 2, .advance (20 * second), .deliver 9, .publishOk 9, .acknowledge 9 .answered,
    .publish 9 3, .advance (30 * second), .claim 10 [], .publish 10 3]

/-- With the default settings, two publishers are inside `Publish` for one event. -/
theorem slow_batch_is_overtaken :
    defaultService.publishTimeout < defaultService.claimTTL ∧ emptyOutbox.Init ∧
      (outbox defaultService).Along (Paced defaultService 0) emptyOutbox slowBatch ∧
      (((outbox defaultService).run emptyOutbox slowBatch).batches 9).map
        (fun b => b.phase.inPublish.map (·.id)) = some [3] ∧
      (((outbox defaultService).run emptyOutbox slowBatch).batches 10).map
        (fun b => b.phase.inPublish.map (·.id)) = some [3] ∧
      ((outbox defaultService).run emptyOutbox slowBatch).events.map
        (fun r => (r.id, r.claimToken)) = [(1, none), (2, none), (3, some 10)] :=
  ⟨by decide, init_emptyOutbox, along_paced_of_tokens [9, 10] (by decide) (by decide) (by decide),
    by decide, by decide, by decide⟩

/-- Batches of two. -/
def pairService : Service := ⟨2, 30 * second, 10 * second⟩

/-- The first two events of `slowBatch`, sent as slowly, and the third by the other
publisher. -/
def slowPair : List OutboxStep :=
  [.insert [sampleEvent 1 1 0, sampleEvent 2 2 0, sampleEvent 3 3 0], .claim 9 [],
    .publish 9 1, .advance (10 * second), .deliver 9, .publishOk 9, .acknowledge 9 .answered,
    .publish 9 2, .advance (20 * second), .claim 10 [], .publish 10 3]

theorem publisher_exclusivity_iff_slowPair :
    Exclusive ((outbox pairService).run emptyOutbox slowPair) :=
  (publisher_exclusivity_iff (by decide) le_rfl).2.2 (by decide) emptyOutbox slowPair
    init_emptyOutbox (along_paced_of_tokens [9, 10] (by decide) (by decide) (by decide))

/-- An event is being sent when an earlier one of its run is committed and sent. -/
def lateCommit : List OutboxStep :=
  [.insert [sampleEvent 2 1 5], .claim 9 [], .publish 9 2, .insert [sampleEvent 3 1 4],
    .claim 10 [], .publish 10 3]

/-- Claims that do not expire are not enough : two publishers are inside `Publish` for one
ordering key, and the later event is sent first. -/
theorem late_commit_is_not_exclusive :
    (outbox pairService).Valid emptyOutbox lateCommit ∧
      (outbox pairService).Along (TimelyOn pairService 0 [9, 10]) emptyOutbox lateCommit ∧
      ¬Exclusive ((outbox pairService).run emptyOutbox lateCommit) := by
  refine ⟨by decide, by decide, fun h => ?_⟩
  have hsent : ¬((outbox pairService).run emptyOutbox lateCommit).sent.Pairwise
      fun e e' => e.orderingKey = e'.orderingKey → ¬e'.before e := by decide
  exact hsent h.inOrder

end RunMesh
