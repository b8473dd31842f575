import RunMesh.OutboxOrder

/-!
# Draining the outbox

`Service.publishBatch` calls `publishClaimedBatch` until it publishes nothing. Here both are
functions of the outbox table. What a call gets from outside is a `PublishInput` : its token, the
times of its statements, the rows locked by others, the order in which `RETURNING` gives the
claimed rows, and how each request ends.

A call claims only first events of ordering keys, so an outbox may take more calls than it has
batches. But an outbox with an unpublished event has a first one, and if no claim of another
publisher is in the way it is claimed and published (`publishClaimedBatch_spec`). So every call
but the last lowers the number of unpublished events, and the loop ends (`publishBatch_drains`).
-/

namespace RunMesh

/-! ## The loop -/

/-- The errors `publishClaimedBatch` returns. -/
inductive PublishError
  | timeouts (publishTimeout claimTTL : ℤ)
  | query
  | publish
  | acknowledge
  | claimLost (eventId : ℕ)
  deriving DecidableEq, Repr

/-- What a call of `publishClaimedBatch` gets from outside. -/
structure PublishInput where
  token : ℕ
  /-- `now()` of the claim. -/
  now : ℤ
  /-- The ids of the rows `SKIP LOCKED` skips. -/
  locked : List ℕ
  /-- The order in which `RETURNING` gives the rows. -/
  order : List OutboxEvent → List OutboxEvent
  /-- `now()` of the acknowledgement of the `i`-th event. -/
  ackNow : ℕ → ℤ
  claim : Outcome
  publish : ℕ → Outcome
  acknowledge : ℕ → Outcome
  release : Outcome

/-- The table, and the events handed to the broker, in order. -/
structure Relay where
  events : List OutboxEvent
  published : List OutboxEvent

namespace Relay

/-- The broker takes an event. -/
def take (s : Relay) (e : OutboxEvent) : Relay :=
  { s with published := s.published ++ [e] }

/-- The acknowledgement statement. -/
def acknowledge (s : Relay) (token : ℕ) (now : ℤ) (e : OutboxEvent) : Relay :=
  { s with events := Table.update (Outbox.acknowledges token e) (.acknowledge now) s.events }

/-- `releaseClaims`. -/
def release (s : Relay) (input : PublishInput) : Relay :=
  if input.release = .lost then s
  else { s with events := Table.update (Outbox.releases input.token) .unclaim s.events }

/-- The claim statement. -/
def claim (svc : Service) (s : Relay) (input : PublishInput) : Relay × List OutboxEvent :=
  let ids := (candidates svc input.now input.locked s.events).map OutboxEvent.id
  let row := OutboxEvent.claim input.token (input.now + svc.claimTTL)
  ({ s with events := Table.update (fun o => o.id ∈ ids) row s.events },
    Table.returning (fun o => o.id ∈ ids) row s.events)

end Relay

/-- The loop over the claimed events, from the `i`-th on. -/
def publishEvents (input : PublishInput) :
    ℕ → List OutboxEvent → Relay → Except PublishError Unit × Relay
  | _, [], s => (.ok (), s)
  | i, e :: rest, s =>
    match input.publish i with
    | .lost => (.error .publish, s.release input)
    | .unanswered => (.error .publish, (s.take e).release input)
    | .answered =>
      let s := s.take e
      match input.acknowledge i with
      | .lost => (.error .acknowledge, s.release input)
      | .unanswered =>
        (.error .acknowledge, (s.acknowledge input.token (input.ackNow i) e).release input)
      | .answered =>
        let s' := s.acknowledge input.token (input.ackNow i) e
        if s.events.countP (Outbox.acknowledges input.token e) = 1 then
          publishEvents input (i + 1) rest s'
        else (.error (.claimLost e.id), s'.release input)

/-- `Service.publishClaimedBatch` : the number of events published. -/
def publishClaimedBatch (svc : Service) (input : PublishInput) (s : Relay) :
    Except PublishError ℕ × Relay :=
  if svc.claimTTL ≤ svc.publishTimeout then
    (.error (.timeouts svc.publishTimeout svc.claimTTL), s)
  else
    match input.claim with
    | .lost => (.error .query, s)
    | .unanswered => (.error .query, (s.claim svc input).1)
    | .answered =>
      let events := input.order (s.claim svc input).2
      let r := publishEvents input 0 events (s.claim svc input).1
      (r.1.map fun _ => events.length, r.2)

/-- `Service.publishBatch`, `inputs` being those of its calls from the `n`-th on. The recursion is
on the number of calls, and the result is `none` if they are used up. -/
def publishBatch (svc : Service) (inputs : ℕ → PublishInput) :
    ℕ → ℕ → Relay → Option (Except PublishError Unit × Relay)
  | 0, _, _ => none
  | calls + 1, n, s =>
    match publishClaimedBatch svc (inputs n) s with
    | (.error e, s') => some (.error e, s')
    | (.ok 0, s') => some (.ok (), s')
    | (.ok (_ + 1), s') => publishBatch svc inputs calls (n + 1) s'

/-- No row is locked by another, and every request is answered. -/
structure PublishInput.Undisturbed (input : PublishInput) : Prop where
  locked : input.locked = []
  order : ∀ l, (input.order l).Perm l
  claim : input.claim = .answered
  publish : ∀ i, input.publish i = .answered
  acknowledge : ∀ i, input.acknowledge i = .answered

/-- The unpublished events. -/
def Relay.unpublished (s : Relay) : List OutboxEvent :=
  s.events.filter fun o => o.publishedAt = none

/-- No claim is in the way at `now`, and a published event has none. -/
structure Relay.Idle (now : ℤ) (s : Relay) : Prop where
  nodup : (s.events.map OutboxEvent.id).Nodup
  free : ∀ o ∈ s.events, o.publishedAt = none → o.Free now
  done : ∀ o ∈ s.events, o.publishedAt ≠ none → o.claimToken = none

variable {svc : Service} {input : PublishInput} {s : Relay} {now : ℤ}

theorem RowMove.done {o : Outbox} {a : OutboxStep} {r r' : OutboxEvent} (h : RowMove svc o a r r')
    (hr : r.publishedAt ≠ none → r.claimToken = none) (hpub : r'.publishedAt ≠ none) :
    r'.claimToken = none := by
  cases h with
  | keep => exact hr hpub
  | claim hclaimable => exact absurd hclaimable.1 hpub
  | acknowledge => rfl
  | unclaim => rfl

/-- What the publishers leave behind is idle once their claims are released or expired. -/
theorem Relay.Idle.of_run {o : Outbox} (ho : o.Init) {as : List OutboxStep}
    (hv : (outbox svc).Valid o as) (hfree : ∀ r ∈ ((outbox svc).run o as).events, r.Free now)
    (published : List OutboxEvent) :
    Relay.Idle now ⟨((outbox svc).run o as).events, published⟩ := by
  have hrun : ((outbox svc).run o as).Sound ∧ ∀ r ∈ ((outbox svc).run o as).events,
      r.publishedAt ≠ none → r.claimToken = none := by
    refine (outbox svc).invariant
      (P := fun o => o.Sound ∧ ∀ r ∈ o.events, r.publishedAt ≠ none → r.claimToken = none)
      (fun o a h ha => ⟨h.1.next ha, fun r' hr' hpub => ?_⟩) ⟨ho.sound, by simp [ho.events]⟩ hv
    rcases ((outbox_move svc o a).rows h.1.nodup).of_mem_row hr' with
      ⟨r, hr, hmove⟩ | ⟨new, rfl, hnew⟩
    · exact hmove.done (h.2 r hr) hpub
    · exact absurd (congrArg OutboxEvent.publishedAt (ha.2 r' hnew)).symm hpub
  exact ⟨hrun.1.nodup, fun r hr _ => hfree r hr, hrun.2⟩

/-! ## One call -/

theorem OutboxEvent.Free.mono {o : OutboxEvent} {now' : ℤ} (h : o.Free now) (hle : now ≤ now') :
    o.Free now' :=
  h.imp_right fun ⟨x, hx, hxn⟩ => ⟨x, hx, hxn.trans hle⟩

/-- The row after the acknowledgements of the events with the ids, or as it was. -/
def Acknowledged (ids : List ℕ) (o o' : OutboxEvent) : Prop :=
  (o.id ∉ ids ∧ o' = o) ∨ (o.id ∈ ids ∧ ∃ t, o' = o.acknowledge t)

/-- The acknowledgement of a claimed event finds its row and no other. -/
theorem Relay.acknowledge_eq {token : ℕ} (t : ℤ) {e o : OutboxEvent}
    (hnd : (s.events.map OutboxEvent.id).Nodup) (ho : o ∈ s.events) (hid : o.id = e.id)
    (hun : o.publishedAt = none) (htok : o.claimToken = some token) :
    s.events.countP (Outbox.acknowledges token e) = 1 ∧
      s.acknowledge token t e =
        ⟨s.events.map fun r => if r.id = e.id then r.acknowledge t else r, s.published⟩ := by
  have hp : Outbox.acknowledges token e o = true := by
    simp [Outbox.acknowledges, hid, hun, htok]
  have hkey : ∀ r ∈ s.events, Outbox.acknowledges token e r = true → r.id = o.id :=
    fun r _ hr => (of_decide_eq_true hr).1.trans hid.symm
  constructor
  · exact Table.countP_eq_one (List.Nodup.of_map _ hnd) ho hp fun r hr hpr =>
      Table.eq_of_key hnd hr ho (hkey r hr hpr)
  · rw [Relay.acknowledge, Table.update_eq_of_key hnd ho hp hkey, hid, Table.update]
    simp only [decide_eq_true_eq]

/-- A loop whose requests are answered publishes the events it has claimed. -/
theorem publishEvents_spec (hin : input.Undisturbed) (es : List OutboxEvent) :
    ∀ (i : ℕ) {s : Relay}, (s.events.map OutboxEvent.id).Nodup → (es.map OutboxEvent.id).Nodup →
      (∀ e ∈ es, ∃ o ∈ s.events, o.id = e.id ∧ o.publishedAt = none ∧
        o.claimToken = some input.token) →
      ∃ f : OutboxEvent → OutboxEvent,
        publishEvents input i es s = (.ok (), ⟨s.events.map f, s.published ++ es⟩) ∧
        ∀ o ∈ s.events, Acknowledged (es.map OutboxEvent.id) o (f o) := by
  induction es with
  | nil =>
    intro i s _ _ _
    exact ⟨id, by simp [publishEvents], fun o _ => .inl ⟨List.not_mem_nil, rfl⟩⟩
  | cons e es ih =>
    intro i s hnd hes hheld
    obtain ⟨o, ho, hid, hun, htok⟩ := hheld e (List.mem_cons_self ..)
    obtain ⟨hone, hack⟩ :=
      Relay.acknowledge_eq (s := s.take e) (input.ackNow i) hnd ho hid hun htok
    set row : OutboxEvent → OutboxEvent := fun r =>
      if r.id = e.id then r.acknowledge (input.ackNow i) else r with hrow
    have hrowid : ∀ r, (row r).id = r.id := by
      intro r
      simp only [hrow]
      split <;> rfl
    rw [List.map_cons, List.nodup_cons] at hes
    have hnd' : ((s.events.map row).map OutboxEvent.id).Nodup := by
      rw [List.map_map, show OutboxEvent.id ∘ row = OutboxEvent.id from funext hrowid]
      exact hnd
    obtain ⟨f, hf, hrows⟩ := ih (i + 1) (s := ⟨s.events.map row, s.published ++ [e]⟩) hnd' hes.2
      (by
        intro e' he'
        obtain ⟨o', ho', hid', hun', htok'⟩ := hheld e' (List.mem_cons_of_mem _ he')
        have hne : o'.id ≠ e.id := fun h => hes.1 (h ▸ hid' ▸ List.mem_map_of_mem he')
        exact ⟨o', List.mem_map.2 ⟨o', ho', by simp [hrow, hne]⟩, hid', hun', htok'⟩)
    refine ⟨f ∘ row, ?_, fun r hr => ?_⟩
    · rw [publishEvents, hin.publish, hin.acknowledge]
      simp only [hone, if_true]
      rw [hack]
      refine hf.trans ?_
      rw [List.map_map, List.append_assoc, List.singleton_append]
    · rcases hrows (row r) (List.mem_map_of_mem hr) with ⟨hout, hkeep⟩ | ⟨hin', t, hset⟩
      · rw [hrowid] at hout
        by_cases hre : r.id = e.id
        · refine .inr ⟨by simp [hre], input.ackNow i, ?_⟩
          rw [Function.comp_apply, hkeep]
          simp [hrow, hre]
        · refine .inl ⟨by simpa [hre] using hout, ?_⟩
          rw [Function.comp_apply, hkeep]
          simp [hrow, hre]
      · rw [hrowid] at hin'
        have hre : r.id ≠ e.id := fun h => hes.1 (h ▸ hin')
        refine .inr ⟨List.mem_cons_of_mem _ hin', t, ?_⟩
        rw [Function.comp_apply, hset]
        simp [hrow, hre]

/-- The claim of an undisturbed call, with the ids replaced by the rows. -/
theorem Relay.claim_eq (svc : Service) (hlocked : input.locked = [])
    (hnd : (s.events.map OutboxEvent.id).Nodup) {row : OutboxEvent → OutboxEvent}
    (hrow : row = OutboxEvent.claim input.token (input.now + svc.claimTTL))
    {heads : List OutboxEvent} (hheads : heads = candidates svc input.now [] s.events) :
    s.claim svc input = (⟨s.events.map fun o => if o ∈ heads then row o else o, s.published⟩,
      (s.events.filter fun o => o ∈ heads).map row) := by
  have hmem : ∀ o ∈ s.events, o.id ∈ heads.map OutboxEvent.id ↔ o ∈ heads := by
    intro o ho
    refine ⟨fun h => ?_, List.mem_map_of_mem⟩
    obtain ⟨c, hc, hid⟩ := List.mem_map.1 h
    rw [hheads] at hc ⊢
    rwa [← Table.eq_of_key hnd (claimable_of_mem_candidates hc).1 ho hid]
  have hupdate : Table.update (fun o => o.id ∈ heads.map OutboxEvent.id) row s.events =
      s.events.map fun o => if o ∈ heads then row o else o :=
    List.map_congr_left fun o ho => by simp only [hmem o ho, decide_eq_true_eq]
  have hreturning : Table.returning (fun o => o.id ∈ heads.map OutboxEvent.id) row s.events =
      (s.events.filter fun o => o ∈ heads).map row :=
    congrArg _ (List.filter_congr fun o ho => by simp only [hmem o ho])
  rw [Relay.claim, hlocked, ← hheads, ← hrow, hupdate, hreturning]

/-- The rows a call leaves : the heads are published, and the others as they were. -/
def Sends (heads : List OutboxEvent) (o o' : OutboxEvent) : Prop :=
  (o ∉ heads ∧ o' = o) ∨ (o ∈ heads ∧ o'.publishedAt ≠ none ∧ o'.claimToken = none ∧
    o'.asInserted = o.asInserted)

theorem Sends.asInserted {heads : List OutboxEvent} {o o' : OutboxEvent} (h : Sends heads o o') :
    o'.asInserted = o.asInserted := by
  rcases h with ⟨-, rfl⟩ | ⟨-, -, -, h⟩
  · rfl
  · exact h

/-- An undisturbed call publishes the candidates of its claim. -/
theorem publishClaimedBatch_spec (hacc : svc.publishTimeout < svc.claimTTL)
    (hin : input.Undisturbed) (hnd : (s.events.map OutboxEvent.id).Nodup)
    {heads : List OutboxEvent} (hheads : heads = candidates svc input.now [] s.events) :
    ∃ es f, publishClaimedBatch svc input s =
        (.ok es.length, ⟨s.events.map f, s.published ++ es⟩) ∧
      (es.map OutboxEvent.asInserted).Perm
        ((s.events.filter fun o => o ∈ heads).map OutboxEvent.asInserted) ∧
      ∀ o ∈ s.events, Sends heads o (f o) := by
  set row := OutboxEvent.claim input.token (input.now + svc.claimTTL) with hrow
  have hclaim := Relay.claim_eq svc hin.locked hnd hrow hheads
  have hperm := hin.order ((s.events.filter fun o => o ∈ heads).map row)
  set es := input.order ((s.events.filter fun o => o ∈ heads).map row) with hes
  have hsource : ∀ e, e ∈ es ↔ ∃ o ∈ s.events, o ∈ heads ∧ row o = e := by
    intro e
    simp only [hperm.mem_iff, List.mem_map, List.mem_filter, decide_eq_true_eq, and_assoc]
  -- The claimed rows are the candidates, so an id tells whether a row was claimed.
  have hidmem : ∀ o ∈ s.events, o.id ∈ es.map OutboxEvent.id ↔ o ∈ heads := by
    intro o ho
    constructor
    · intro h
      obtain ⟨e, he, hid⟩ := List.mem_map.1 h
      obtain ⟨o', ho', hc, rfl⟩ := (hsource e).1 he
      rwa [← Table.eq_of_key hnd ho' ho hid]
    · intro hc
      exact List.mem_map.2 ⟨row o, (hsource _).2 ⟨o, ho, hc, rfl⟩, rfl⟩
  have hnd₁ : ((s.events.map fun o => if o ∈ heads then row o else o).map
      OutboxEvent.id).Nodup := by
    rw [List.map_map]
    convert hnd using 2
    funext o
    simp only [Function.comp_apply]
    split <;> rfl
  have hes_nd : (es.map OutboxEvent.id).Nodup := by
    rw [(hperm.map OutboxEvent.id).nodup_iff, List.map_map]
    exact (List.filter_sublist.map OutboxEvent.id).nodup hnd
  obtain ⟨f, hf, hrows⟩ := publishEvents_spec hin es 0
    (s := ⟨s.events.map fun o => if o ∈ heads then row o else o, s.published⟩) hnd₁ hes_nd
    (by
      intro e he
      obtain ⟨o, ho, hc, rfl⟩ := (hsource e).1 he
      have hunpublished : o.publishedAt = none :=
        (claimable_of_mem_candidates (hheads ▸ hc)).2.1
      exact ⟨row o, List.mem_map.2 ⟨o, ho, if_pos hc⟩, rfl, hunpublished, rfl⟩)
  refine ⟨es, fun o => f (if o ∈ heads then row o else o), ?_, ?_, fun o ho => ?_⟩
  · simp only [publishClaimedBatch, if_neg (not_le.2 hacc), hin.claim, hclaim, ← hes, hf,
      List.map_map]
    rfl
  · refine (hperm.map _).trans (List.Perm.of_eq ?_)
    rw [List.map_map]
    rfl
  · have hstep := hrows _ (List.mem_map_of_mem ho)
    by_cases hc : o ∈ heads
    · simp only [if_pos hc] at hstep ⊢
      obtain ⟨hout, -⟩ | ⟨-, t, hset⟩ := hstep
      · exact absurd ((hidmem o ho).2 hc) hout
      · rw [hset]
        exact .inr ⟨hc, Option.some_ne_none t, rfl, rfl⟩
    · simp only [if_neg hc] at hstep ⊢
      obtain ⟨-, hkeep⟩ | ⟨hin', -⟩ := hstep
      · exact .inl ⟨hc, hkeep⟩
      · exact absurd ((hidmem o ho).1 hin') hc

/-! ## The whole loop -/

/-- An idle outbox with an unpublished event has a candidate. -/
theorem candidates_ne_nil (svc : Service) (hs : s.Idle now) {o : OutboxEvent} (ho : o ∈ s.events)
    (hun : o.publishedAt = none) : candidates svc now [] s.events ≠ [] := by
  obtain ⟨first, hmem, -, hfun, -, hfirst⟩ := exists_first_unpublished ho hun
  have hclaimable : Claimable now s.events first := ⟨hfun, hs.free first hmem hfun, hfirst⟩
  rcases mem_candidates_or_full svc hmem hclaimable List.not_mem_nil with hc | ⟨hfull, -⟩
  · exact List.ne_nil_of_mem hc
  · exact List.ne_nil_of_length_pos (hfull ▸ svc.batchSize_pos)

/-- A candidate comes before every other unpublished event of its key. -/
theorem Relay.Idle.before_of_head {now' : ℤ} {locked : List ℕ} {a b : OutboxEvent}
    (hs : s.Idle now) (ha : a ∈ candidates svc now' locked s.events) (hb : b ∈ s.unpublished)
    (hkey : a.orderingKey = b.orderingKey) (hne : a ≠ b) : a.before b := by
  obtain ⟨hmem, -, -, hfirst⟩ := claimable_of_mem_candidates ha
  obtain ⟨hbmem, hun⟩ := List.mem_filter.1 hb
  have hnot : ¬b.before a := fun h => hfirst b hbmem ⟨hkey.symm, of_decide_eq_true hun, h⟩
  rw [OutboxEvent.before_iff, not_lt] at hnot
  refine OutboxEvent.before_iff.2 (lt_of_le_of_ne hnot fun heq => hne ?_)
  have hid : a.id = b.id := congrArg (fun r => (ofLex r).2) heq
  exact Table.eq_of_key hs.nodup hmem hbmem hid

/-- Each event comes after those of its ordering key that precede it in `(created_at, id)`. -/
def InKeyOrder (es : List OutboxEvent) : Prop :=
  es.Pairwise fun a b => a.orderingKey = b.orderingKey → a.before b

/-- The events `out` were published between `s` and `s'`, each once and in the order of its key,
and nothing else happened. -/
structure Relay.Drained (s : Relay) (out : List OutboxEvent) (s' : Relay) : Prop where
  published : s'.published = s.published ++ out
  rows : s'.events.map OutboxEvent.asInserted = s.events.map OutboxEvent.asInserted
  once : ((out ++ s'.unpublished).map OutboxEvent.asInserted).Perm
    (s.unpublished.map OutboxEvent.asInserted)
  inOrder : InKeyOrder out
  ahead : ∀ a ∈ out, ∀ b ∈ s'.unpublished, a.orderingKey = b.orderingKey → a.before b

theorem Relay.Drained.refl (s : Relay) : s.Drained [] s where
  published := (List.append_nil _).symm
  rows := rfl
  once := .refl _
  inOrder := List.Pairwise.nil
  ahead := List.forall_mem_nil _

/-- What is published later was unpublished before. -/
theorem Relay.Drained.exists_unpublished {s' : Relay} {out : List OutboxEvent}
    (h : s.Drained out s') {b : OutboxEvent} (hb : b ∈ out ++ s'.unpublished) :
    ∃ b₁ ∈ s.unpublished, b₁.asInserted = b.asInserted :=
  List.mem_map.1 (h.once.subset (List.mem_map_of_mem hb))

theorem Relay.Drained.trans {s₁ s₂ : Relay} {out₁ out₂ : List OutboxEvent}
    (h₁ : s.Drained out₁ s₁) (h₂ : s₁.Drained out₂ s₂) : s.Drained (out₁ ++ out₂) s₂ := by
  have hahead : ∀ a ∈ out₁, ∀ b ∈ out₂ ++ s₂.unpublished,
      a.orderingKey = b.orderingKey → a.before b := by
    intro a ha b hb hkey
    obtain ⟨b₁, hb₁, hsame⟩ := h₂.exists_unpublished hb
    rw [← OutboxEvent.orderingKey_of_asInserted hsame] at hkey
    exact (OutboxEvent.before_of_asInserted rfl hsame).1 (h₁.ahead a ha b₁ hb₁ hkey)
  refine ⟨?_, h₂.rows.trans h₁.rows, ?_, ?_, fun a ha b hb => ?_⟩
  · rw [h₂.published, h₁.published, List.append_assoc]
  · refine List.Perm.trans ?_ h₁.once
    simpa only [List.map_append, List.append_assoc] using h₂.once.append_left _
  · exact List.pairwise_append.2 ⟨h₁.inOrder, h₂.inOrder, fun a ha b hb =>
      hahead a ha b (List.mem_append_left _ hb)⟩
  · rcases List.mem_append.1 ha with ha | ha
    · exact hahead a ha b (List.mem_append_right _ hb)
    · exact h₂.ahead a ha b hb

/-- A call leaves an idle outbox idle. -/
theorem Relay.Idle.next {now' : ℤ} (hs : s.Idle now) (hle : now ≤ now')
    {f : OutboxEvent → OutboxEvent} {heads : List OutboxEvent} (es : List OutboxEvent)
    (hf : ∀ o ∈ s.events, Sends heads o (f o)) :
    Relay.Idle now' ⟨s.events.map f, s.published ++ es⟩ := by
  refine ⟨?_, fun o' ho' hun => ?_, fun o' ho' hpub => ?_⟩
  · have hids : (s.events.map f).map OutboxEvent.id = s.events.map OutboxEvent.id := by
      rw [List.map_map]
      exact List.map_congr_left fun o ho => OutboxEvent.id_of_asInserted (hf o ho).asInserted
    rw [hids]
    exact hs.nodup
  · obtain ⟨o, ho, rfl⟩ := List.mem_map.1 ho'
    rcases hf o ho with ⟨-, h⟩ | ⟨-, hpub, -⟩
    · rw [h] at hun ⊢
      exact (hs.free o ho hun).mono hle
    · exact absurd hun hpub
  · obtain ⟨o, ho, rfl⟩ := List.mem_map.1 ho'
    rcases hf o ho with ⟨-, h⟩ | ⟨-, -, htok, -⟩
    · rw [h] at hpub ⊢
      exact hs.done o ho hpub
    · exact htok

/-- A call leaves the unpublished events that were not heads. -/
theorem Relay.unpublished_next {f : OutboxEvent → OutboxEvent} {heads : List OutboxEvent}
    (es : List OutboxEvent) (hf : ∀ o ∈ s.events, Sends heads o (f o)) :
    Relay.unpublished ⟨s.events.map f, s.published ++ es⟩ =
      s.unpublished.filter fun o => o ∉ heads := by
  have hrow : ∀ o ∈ s.events, (f o).publishedAt = none ↔ o ∉ heads ∧ o.publishedAt = none := by
    intro o ho
    rcases hf o ho with ⟨hout, h⟩ | ⟨hin, hpub, -⟩
    · rw [h, iff_and_self]
      exact fun _ => hout
    · exact ⟨fun h => absurd h hpub, fun h => absurd hin h.1⟩
  calc Relay.unpublished ⟨s.events.map f, s.published ++ es⟩
      = (s.events.filter fun o => (f o).publishedAt = none).map f := List.filter_map ..
    _ = (s.events.filter fun o => o ∉ heads ∧ o.publishedAt = none).map f := by
        rw [List.filter_congr fun o ho => decide_eq_decide.2 (hrow o ho)]
    _ = s.events.filter fun o => o ∉ heads ∧ o.publishedAt = none := by
        refine (List.map_congr_left fun o ho => ?_).trans (List.map_id _)
        have hout := List.mem_filter.1 ho
        rcases hf o hout.1 with ⟨-, h⟩ | ⟨hin, -⟩
        · exact h
        · exact absurd hin (of_decide_eq_true hout.2).1
    _ = s.unpublished.filter fun o => o ∉ heads := by
        simp only [Relay.unpublished, List.filter_filter, Bool.decide_and]

/-- An undisturbed call on an idle outbox publishes events whose turn it is, and some if there
is an unpublished one. -/
theorem publishClaimedBatch_drained (hacc : svc.publishTimeout < svc.claimTTL)
    (hin : input.Undisturbed) (hs : s.Idle input.now) {now' : ℤ} (hle : input.now ≤ now') :
    ∃ es s', publishClaimedBatch svc input s = (.ok es.length, s') ∧ s.Drained es s' ∧
      s'.Idle now' ∧ (es = [] → s.unpublished = []) := by
  set heads := candidates svc input.now [] s.events with hheads
  obtain ⟨es, f, hcall, hperm, hrows⟩ := publishClaimedBatch_spec hacc hin hs.nodup hheads
  have hunpublished := Relay.unpublished_next es hrows
  have hturn : ∀ o ∈ heads, o ∈ s.unpublished := by
    intro o ho
    obtain ⟨hmem, hun, -⟩ := claimable_of_mem_candidates ho
    exact List.mem_filter.2 ⟨hmem, decide_eq_true hun⟩
  have hsent : s.events.filter (fun o => o ∈ heads) = s.unpublished.filter fun o => o ∈ heads := by
    rw [Relay.unpublished, List.filter_filter]
    refine List.filter_congr fun o _ => ?_
    rw [← Bool.decide_and, decide_eq_decide, iff_self_and]
    exact fun ho => of_decide_eq_true (List.mem_filter.1 (hturn o ho)).2
  have hhead : ∀ a ∈ es, ∃ o ∈ heads, o.asInserted = a.asInserted := by
    intro a ha
    obtain ⟨o, ho, hsame⟩ := List.mem_map.1 (hperm.subset (List.mem_map_of_mem ha))
    exact ⟨o, of_decide_eq_true (List.mem_filter.1 ho).2, hsame⟩
  have hbefore : ∀ a ∈ es, ∀ b ∈ s.unpublished, a.orderingKey = b.orderingKey →
      a.asInserted ≠ b.asInserted → a.before b := by
    intro a ha b hb hkey hne
    obtain ⟨o, ho, hsame⟩ := hhead a ha
    rw [← OutboxEvent.before_of_asInserted hsame rfl]
    refine hs.before_of_head ho hb ?_ fun h => hne (hsame.symm.trans (congrArg _ h))
    rw [OutboxEvent.orderingKey_of_asInserted hsame, hkey]
  refine ⟨es, _, hcall, ⟨rfl, ?_, ?_, ?_, ?_⟩, hs.next hle es hrows, ?_⟩
  · rw [List.map_map]
    exact List.map_congr_left fun o ho => (hrows o ho).asInserted
  · rw [hunpublished, List.map_append]
    refine (hperm.append_right _).trans ?_
    rw [hsent, ← List.map_append]
    simp only [decide_not]
    exact (List.filter_append_perm _ _).map _
  · have hnd : (es.map OutboxEvent.asInserted).Nodup := by
      rw [hperm.nodup_iff]
      refine List.Nodup.of_map OutboxEvent.id ?_
      rw [List.map_map]
      exact (List.filter_sublist.map OutboxEvent.id).nodup hs.nodup
    refine (List.pairwise_map.1 hnd).imp_of_mem fun {a b} ha hb hne hkey => ?_
    obtain ⟨o, ho, hsame⟩ := hhead b hb
    rw [← OutboxEvent.before_of_asInserted rfl hsame]
    refine hbefore a ha o (hturn o ho) ?_ (hsame ▸ hne)
    rw [hkey, OutboxEvent.orderingKey_of_asInserted hsame]
  · intro a ha b hb hkey
    rw [hunpublished, List.mem_filter] at hb
    refine hbefore a ha b hb.1 hkey fun hsame => of_decide_eq_true hb.2 ?_
    obtain ⟨o, ho, hsame'⟩ := hhead a ha
    have hid := OutboxEvent.id_of_asInserted (hsame'.trans hsame)
    rwa [← Table.eq_of_key hs.nodup (List.mem_filter.1 (hturn o ho)).1
      (List.mem_filter.1 hb.1).1 hid]
  · rintro rfl
    refine List.eq_nil_iff_forall_not_mem.2 fun o ho => ?_
    obtain ⟨ho, hun⟩ := List.mem_filter.1 ho
    obtain ⟨c, hc⟩ := List.exists_mem_of_ne_nil _
      (candidates_ne_nil svc hs ho (of_decide_eq_true hun))
    have hmem : c.asInserted ∈ (s.events.filter fun o => o ∈ heads).map OutboxEvent.asInserted :=
      List.mem_map_of_mem (hsent ▸ List.mem_filter.2 ⟨hturn c hc, decide_eq_true hc⟩)
    exact List.not_mem_nil (hperm.mem_iff.2 hmem)

/-- The loop ends without an error and publishes every unpublished event once, the events of a
key in their order, and no claim is left. -/
theorem publishBatch_spec (hacc : svc.publishTimeout < svc.claimTTL) {inputs : ℕ → PublishInput}
    (hin : ∀ n, (inputs n).Undisturbed) (hmono : ∀ n, (inputs n).now ≤ (inputs (n + 1)).now)
    (k : ℕ) :
    ∀ (n : ℕ) {s : Relay}, s.Idle (inputs n).now → s.unpublished.length = k →
      ∃ s' out now', (∀ calls, k < calls → publishBatch svc inputs calls n s = some (.ok (), s')) ∧
        s.Drained out s' ∧ s'.Idle now' ∧ s'.unpublished = [] := by
  induction k using Nat.strong_induction_on with
  | h k ih =>
    intro n s hs hk
    obtain ⟨es, s₁, hcall, hdrained, hidle, hnil⟩ :=
      publishClaimedBatch_drained hacc (hin n) hs (hmono n)
    have hlength := hdrained.once.length_eq
    rw [List.length_map, List.length_map, List.length_append, hk] at hlength
    cases es with
    | nil =>
      have hk0 : s₁.unpublished = [] := by
        rw [← List.length_eq_zero_iff]
        rw [hnil rfl] at hk
        simp at hk hlength
        omega
      refine ⟨s₁, [], (inputs (n + 1)).now, fun calls hcalls => ?_, hdrained, hidle, hk0⟩
      obtain ⟨calls, rfl⟩ := Nat.exists_eq_add_one_of_ne_zero (Nat.ne_zero_of_lt hcalls)
      rw [publishBatch, hcall]
      rfl
    | cons e es =>
      have hlt : s₁.unpublished.length < k := by
        rw [List.length_cons] at hlength
        omega
      obtain ⟨s', out, now', hloop, hdrained', hidle', hnil'⟩ := ih _ hlt (n + 1) hidle rfl
      refine ⟨s', (e :: es) ++ out, now', fun calls hcalls => ?_, hdrained.trans hdrained', hidle',
        hnil'⟩
      obtain ⟨calls, rfl⟩ := Nat.exists_eq_add_one_of_ne_zero (Nat.ne_zero_of_lt hcalls)
      rw [publishBatch, hcall]
      exact hloop calls (by omega)

/-- `publishBatch` drains an idle outbox when nothing disturbs it. It takes at most one call more
than there are unpublished events. -/
theorem publishBatch_drains (svc : Service) (hacc : svc.publishTimeout < svc.claimTTL)
    (inputs : ℕ → PublishInput) (hin : ∀ n, (inputs n).Undisturbed)
    (hmono : ∀ n, (inputs n).now ≤ (inputs (n + 1)).now) (s : Relay) (hs : s.Idle (inputs 0).now) :
    ∃ s' out,
      (∀ calls, s.unpublished.length < calls →
        publishBatch svc inputs calls 0 s = some (.ok (), s')) ∧
      s'.published = s.published ++ out ∧
      (out.map OutboxEvent.asInserted).Perm (s.unpublished.map OutboxEvent.asInserted) ∧
      InKeyOrder out ∧
      (∀ o ∈ s'.events, o.publishedAt ≠ none ∧ o.claimToken = none) ∧
      s'.events.map OutboxEvent.asInserted = s.events.map OutboxEvent.asInserted := by
  obtain ⟨s', out, now', hloop, hdrained, hidle, hnil⟩ :=
    publishBatch_spec hacc hin hmono _ 0 hs rfl
  have hpub : ∀ o ∈ s'.events, o.publishedAt ≠ none := by
    intro o ho hun
    have hmem : o ∈ s'.unpublished := List.mem_filter.2 ⟨ho, decide_eq_true hun⟩
    rw [hnil] at hmem
    exact List.not_mem_nil hmem
  refine ⟨s', out, hloop, hdrained.published, ?_, hdrained.inOrder,
    fun o ho => ⟨hpub o ho, hidle.done o ho (hpub o ho)⟩, hdrained.rows⟩
  have honce := hdrained.once
  rwa [hnil, List.append_nil] at honce

/-- Calls a second apart, whose claims return their rows backwards. -/
def calmInput (n : ℕ) : PublishInput where
  token := n + 10
  now := n
  locked := []
  order := List.reverse
  ackNow := fun _ => n
  claim := .answered
  publish := fun _ => .answered
  acknowledge := fun _ => .answered
  release := .answered

/-- Two events of one run and one of another, with a claim that has expired. -/
def abandonedOutbox : Relay where
  events := [sampleEvent 3 1 5, sampleEvent 2 1 4, (sampleEvent 4 2 4).claim 9 0]
  published := []

theorem publishBatch_drains_abandonedOutbox :
    (publishBatch defaultService calmInput 4 0 abandonedOutbox).map
        (fun r => r.2.published.map OutboxEvent.id) = some [4, 2, 3] ∧
      ∃ s' out, publishBatch defaultService calmInput 4 0 abandonedOutbox = some (.ok (), s') ∧
        s'.published = out ∧ InKeyOrder out := by
  refine ⟨by decide, ?_⟩
  obtain ⟨s', out, hloop, hout, -, horder, -⟩ :=
    publishBatch_drains defaultService (by decide) calmInput
      (fun _ => ⟨rfl, fun l => List.reverse_perm l, rfl, fun _ => rfl, fun _ => rfl⟩)
      (fun n => Int.ofNat_le.2 (Nat.le_succ n)) abandonedOutbox ⟨by decide, by decide, by decide⟩
  exact ⟨s', out, hloop 4 (by decide), hout, horder⟩

end RunMesh
