import RunMesh.Schema
import RunMesh.Trace
import Mathlib.Data.List.Sort
import Mathlib.Logic.Function.Basic

/-!
# The outbox and its publishers

`Service.publishClaimedBatch` as a machine. A call of it claims the oldest unpublished
event of some ordering keys in one statement, then, event by event, sends it with
`Publisher.Publish` and acknowledges it, and on an error releases what it still holds. A
publisher here is one such call, known by its claim token, and `Batch` is where it stands.
Any number of them interleave, at statement granularity, with inserts, with the passing of
time, and with the broker, which takes a copy of a sent event at any time after it was
sent, even if `Publish` failed or its publisher has crashed. `Publish` returns nil only if
the broker took the event during the call.

A statement that fails is `lost` or, if the database ran it, `unanswered`. A step that does
not apply, such as a step of a publisher that has crashed, does nothing. `OutboxMove` says
once what each step does.
-/

namespace RunMesh

/-! ## Settings -/

/-- The outbox settings of a `Service`. -/
structure Service where
  outboxBatchSize : ℤ
  outboxClaimTTL : ℤ
  outboxPublishTimeout : ℤ

/-- The batch size, 100 by default. -/
def Service.batchSize (svc : Service) : ℕ :=
  if svc.outboxBatchSize ≤ 0 then 100 else svc.outboxBatchSize.toNat

/-- The time to live of a claim, 30 seconds by default. -/
def Service.claimTTL (svc : Service) : ℤ :=
  if svc.outboxClaimTTL ≤ 0 then 30 * second else svc.outboxClaimTTL

/-- The timeout of a `Publish`, 10 seconds by default. -/
def Service.publishTimeout (svc : Service) : ℤ :=
  if svc.outboxPublishTimeout ≤ 0 then 10 * second else svc.outboxPublishTimeout

theorem Service.batchSize_pos (svc : Service) : 0 < svc.batchSize := by
  unfold Service.batchSize
  split_ifs <;> omega

theorem Service.publishTimeout_pos (svc : Service) : 0 < svc.publishTimeout := by
  unfold Service.publishTimeout second
  split_ifs <;> omega

/-! ## Rows and messages -/

namespace OutboxEvent

/-- `(a.created_at,a.id)<(b.created_at,b.id)`. -/
def before (a b : OutboxEvent) : Prop :=
  a.createdAt < b.createdAt ∨ a.createdAt = b.createdAt ∧ a.id < b.id

instance : DecidableRel before := fun _ _ => inferInstanceAs (Decidable (_ ∨ _))

/-- `claim_token IS NULL OR claim_expires_at<=now()`. -/
def Free (now : ℤ) (o : OutboxEvent) : Prop :=
  o.claimToken = none ∨ ∃ x ∈ o.claimExpiresAt, x ≤ now

instance (now : ℤ) : DecidablePred (Free now) := fun o =>
  inferInstanceAs (Decidable (_ ∨ ∃ x ∈ o.claimExpiresAt, x ≤ now))

/-- An unpublished event of the same ordering key that comes first. -/
def Blocks (o earlier : OutboxEvent) : Prop :=
  earlier.orderingKey = o.orderingKey ∧ earlier.publishedAt = none ∧ earlier.before o

instance (o : OutboxEvent) : DecidablePred (Blocks o) := fun _ =>
  inferInstanceAs (Decidable (_ ∧ _ ∧ _))

/-- `SET claim_token=$2,claim_expires_at=now()+$3,publish_attempts=publish_attempts+1`. -/
def claim (token : ℕ) (expires : ℤ) (o : OutboxEvent) : OutboxEvent :=
  { o with
    claimToken := some token
    claimExpiresAt := some expires
    publishAttempts := o.publishAttempts + 1 }

/-- `SET published_at=now(),claim_token=NULL,claim_expires_at=NULL`. -/
def acknowledge (now : ℤ) (o : OutboxEvent) : OutboxEvent :=
  { o with publishedAt := some now, claimToken := none, claimExpiresAt := none }

/-- `SET claim_token=NULL,claim_expires_at=NULL`. -/
def unclaim (o : OutboxEvent) : OutboxEvent :=
  { o with claimToken := none, claimExpiresAt := none }

end OutboxEvent

/-- What `Publish` sends : key, value and headers. -/
structure Message where
  key : ℕ
  value : Payload
  eventType : EventType
  eventId : ℕ
  deriving DecidableEq, Repr

/-- The message of an event. -/
def OutboxEvent.message (e : OutboxEvent) : Message :=
  ⟨e.orderingKey, e.payload, e.eventType, e.id⟩

/-! ## The claim statement -/

/-- `WHERE` of the claim : unpublished, its claim released or expired, and the first of its
ordering key. -/
def Claimable (now : ℤ) (events : List OutboxEvent) (o : OutboxEvent) : Prop :=
  o.publishedAt = none ∧ o.Free now ∧ ∀ earlier ∈ events, ¬o.Blocks earlier

instance (now : ℤ) (events : List OutboxEvent) : DecidablePred (Claimable now events) := fun _ =>
  inferInstanceAs (Decidable (_ ∧ _ ∧ _))

/-- `ORDER BY o.created_at,o.id`. -/
def claimOrder (a b : OutboxEvent) : Prop :=
  ¬b.before a

instance : DecidableRel claimOrder := fun _ _ => inferInstanceAs (Decidable (¬_))

/-- The candidates of a claim, `locked` being the ids of the rows it skips. -/
def candidates (svc : Service) (now : ℤ) (locked : List ℕ) (events : List OutboxEvent) :
    List OutboxEvent :=
  ((events.filter fun o => Claimable now events o ∧ o.id ∉ locked).insertionSort claimOrder).take
    svc.batchSize

/-! ## Publishers -/

/-- Where a publisher stands in its loop over the claimed events. -/
inductive Phase
  /-- About to send the next event. -/
  | ready
  /-- Inside `Publish`, `delivered` if the broker took the event. -/
  | publishing (e : OutboxEvent) (delivered : Bool)
  /-- `Publish` returned nil, and the acknowledgement is to come. -/
  | acknowledging (e : OutboxEvent)
  /-- There was an error, and the release is to come. -/
  | releasing
  deriving DecidableEq

/-- A publisher in its loop. -/
structure Batch where
  /-- The claimed events it has not sent, which the claim returned in no known order. -/
  rest : List OutboxEvent
  phase : Phase
  /-- When it claimed, or last entered or left `Publish`. -/
  since : ℤ
  deriving DecidableEq

/-- The events a publisher is inside `Publish` for. -/
def Phase.inPublish : Phase → List OutboxEvent
  | .publishing e _ => [e]
  | _ => []

/-- The event a publisher acknowledges. -/
def Phase.inAcknowledge : Phase → List OutboxEvent
  | .acknowledging e => [e]
  | _ => []

/-- The events a publisher has sent or will send. -/
def Batch.pending (b : Batch) : List OutboxEvent :=
  b.phase.inPublish ++ b.rest

/-- The events a publisher works on. -/
def Batch.rows (b : Batch) : List OutboxEvent :=
  b.phase.inAcknowledge ++ b.pending

/-- The outbox table, the publishers, and the broker. -/
structure Outbox where
  events : List OutboxEvent
  /-- The publishers in their loops, by claim token. -/
  batches : ℕ → Option Batch
  /-- The events handed to `Publish`, in order. -/
  sent : List OutboxEvent
  /-- The events whose `Publish` returned nil, in order. -/
  returned : List OutboxEvent
  /-- The messages the broker took, in order. -/
  log : List Message
  /-- `now()`. -/
  clock : ℤ

/-- How a request to a server ends for the client. `lost` and `unanswered` are errors, but
the server has done what was `unanswered`. -/
inductive Outcome
  | lost | unanswered | answered
  deriving DecidableEq, Repr

/-- What can happen. -/
inductive OutboxStep
  | insert (new : List OutboxEvent)
  | advance (now : ℤ)
  | claim (token : ℕ) (locked : List ℕ)
  | publish (token eventId : ℕ)
  | deliver (token : ℕ)
  | arrive (i : ℕ)
  | publishOk (token : ℕ)
  | publishErr (token : ℕ)
  | acknowledge (token : ℕ) (outcome : Outcome)
  | release (token : ℕ) (outcome : Outcome)
  | crash (token : ℕ)

namespace Outbox

/-- The publisher moves on, or is done. -/
def setBatch (s : Outbox) (token : ℕ) (b : Option Batch) : Outbox :=
  { s with batches := Function.update s.batches token b }

/-- The claim statement, and the loop it starts. -/
def claim (svc : Service) (s : Outbox) (token : ℕ) (locked : List ℕ) : Outbox :=
  let ids := (candidates svc s.clock locked s.events).map OutboxEvent.id
  let row := OutboxEvent.claim token (s.clock + svc.claimTTL)
  -- `publish timeout must be shorter than claim TTL`, and a loop over no event
  if svc.claimTTL ≤ svc.publishTimeout ∨ ids = [] then s
  else
    { s with events := Table.update (fun o => o.id ∈ ids) row s.events }.setBatch token
      (some ⟨Table.returning (fun o => o.id ∈ ids) row s.events, .ready, s.clock⟩)

/-- The call of `Publish` for the next event. -/
def publish (s : Outbox) (token eventId : ℕ) : Outbox :=
  match s.batches token with
  | some ⟨rest, .ready, _⟩ =>
    match rest.find? fun e => e.id = eventId with
    | some e =>
      { s with sent := s.sent ++ [e] }.setBatch token
        (some ⟨rest.erase e, .publishing e false, s.clock⟩)
    | none => s
  | _ => s

/-- The broker takes the event of a `Publish` that is running. -/
def deliver (s : Outbox) (token : ℕ) : Outbox :=
  match s.batches token with
  | some ⟨rest, .publishing e _, since⟩ =>
    { s with log := s.log ++ [e.message] }.setBatch token
      (some ⟨rest, .publishing e true, since⟩)
  | _ => s

/-- The broker takes a copy of an event that was sent. -/
def arrive (s : Outbox) (i : ℕ) : Outbox :=
  match s.sent[i]? with
  | some e => { s with log := s.log ++ [e.message] }
  | none => s

/-- `Publish` returns nil. -/
def publishOk (s : Outbox) (token : ℕ) : Outbox :=
  match s.batches token with
  | some ⟨rest, .publishing e true, _⟩ =>
    { s with returned := s.returned ++ [e] }.setBatch token
      (some ⟨rest, .acknowledging e, s.clock⟩)
  | _ => s

/-- `Publish` returns an error. -/
def publishErr (s : Outbox) (token : ℕ) : Outbox :=
  match s.batches token with
  | some ⟨rest, .publishing _ _, _⟩ => s.setBatch token (some ⟨rest, .releasing, s.clock⟩)
  | _ => s

/-- `WHERE id=$1 AND published_at IS NULL AND claim_token=$2`. -/
def acknowledges (token : ℕ) (e o : OutboxEvent) : Bool :=
  o.id = e.id ∧ o.publishedAt = none ∧ o.claimToken = some token

/-- The acknowledgement. An error or a lost claim ends the loop. -/
def acknowledge (s : Outbox) (token : ℕ) (outcome : Outcome) : Outbox :=
  match s.batches token with
  | some ⟨rest, .acknowledging e, since⟩ =>
    let s' :=
      if outcome = .lost then s
      else { s with events := Table.update (acknowledges token e) (.acknowledge s.clock) s.events }
    if outcome = .answered ∧ s.events.countP (acknowledges token e) = 1 then
      s'.setBatch token (if rest = [] then none else some ⟨rest, .ready, since⟩)
    else s'.setBatch token (some ⟨rest, .releasing, since⟩)
  | _ => s

/-- `WHERE claim_token=$1 AND published_at IS NULL`. -/
def releases (token : ℕ) (o : OutboxEvent) : Bool :=
  o.claimToken = some token ∧ o.publishedAt = none

/-- The release, after which the call returns. -/
def release (s : Outbox) (token : ℕ) (outcome : Outcome) : Outbox :=
  match s.batches token with
  | some ⟨_, .releasing, _⟩ =>
    if outcome = .lost then s.setBatch token none
    else
      { s with events := Table.update (releases token) .unclaim s.events }.setBatch token none
  | _ => s

end Outbox

/-- The outbox as a machine. Inserted rows are new and unclaimed, time does not go back, and
a claim token is new. -/
def outbox (svc : Service) : Machine Outbox OutboxStep where
  next s
    | .insert new => { s with events := s.events ++ new }
    | .advance now => { s with clock := now }
    | .claim token locked => s.claim svc token locked
    | .publish token eventId => s.publish token eventId
    | .deliver token => s.deliver token
    | .arrive i => s.arrive i
    | .publishOk token => s.publishOk token
    | .publishErr token => s.publishErr token
    | .acknowledge token outcome => s.acknowledge token outcome
    | .release token outcome => s.release token outcome
    | .crash token => s.setBatch token none
  allowed s
    | .insert new => ((s.events ++ new).map OutboxEvent.id).Nodup ∧ ∀ e ∈ new, e.asInserted = e
    | .advance now => s.clock ≤ now
    | .claim token _ => s.batches token = none ∧ ∀ e ∈ s.events, e.claimToken ≠ some token
    | _ => True

instance (svc : Service) (s : Outbox) : ∀ a, Decidable ((outbox svc).allowed s a)
  | .insert _ => inferInstanceAs (Decidable (_ ∧ _))
  | .advance _ => inferInstanceAs (Decidable (_ ≤ _))
  | .claim _ _ => inferInstanceAs (Decidable (_ ∧ _))
  | .publish .. | .deliver _ | .arrive _ | .publishOk _ | .publishErr _ | .acknowledge ..
  | .release .. | .crash _ => .isTrue trivial

/-- No event, and no publisher. -/
structure Outbox.Init (s : Outbox) : Prop where
  events : s.events = []
  batches : ∀ token, s.batches token = none
  sent : s.sent = []
  returned : s.returned = []
  log : s.log = []

/-! ## What a step does -/

namespace Outbox

variable (s : Outbox) (token : ℕ) (b : Option Batch)

@[simp] theorem setBatch_events : (s.setBatch token b).events = s.events := rfl

@[simp] theorem setBatch_sent : (s.setBatch token b).sent = s.sent := rfl

@[simp] theorem setBatch_returned : (s.setBatch token b).returned = s.returned := rfl

@[simp] theorem setBatch_log : (s.setBatch token b).log = s.log := rfl

@[simp] theorem setBatch_clock : (s.setBatch token b).clock = s.clock := rfl

variable {s token b}

/-- A publisher after one has moved is that one, or was there before. -/
theorem setBatch_eq_some {u : ℕ} {b' : Batch} (h : (s.setBatch token b).batches u = some b') :
    u = token ∧ b = some b' ∨ u ≠ token ∧ s.batches u = some b' := by
  simp only [setBatch, Function.update_apply] at h
  split_ifs at h with hu
  · exact Or.inl ⟨hu, h⟩
  · exact Or.inr ⟨hu, h⟩

end Outbox

/-- The step `a` leads from `s` to `s'`. -/
inductive OutboxMove (svc : Service) (s : Outbox) : OutboxStep → Outbox → Prop
  | idle (a : OutboxStep) : OutboxMove svc s a s
  | insert (new : List OutboxEvent) :
      OutboxMove svc s (.insert new) { s with events := s.events ++ new }
  | advance (now : ℤ) : OutboxMove svc s (.advance now) { s with clock := now }
  | claim (token : ℕ) (locked ids : List ℕ) (row : OutboxEvent → OutboxEvent)
      (hids : ids = (candidates svc s.clock locked s.events).map OutboxEvent.id)
      (hrow : row = OutboxEvent.claim token (s.clock + svc.claimTTL)) :
      OutboxMove svc s (.claim token locked)
        ({ s with events := Table.update (fun o => o.id ∈ ids) row s.events }.setBatch token
          (some ⟨Table.returning (fun o => o.id ∈ ids) row s.events, .ready, s.clock⟩))
  | publish {token : ℕ} {rest : List OutboxEvent} {since : ℤ} {e : OutboxEvent}
      (hb : s.batches token = some ⟨rest, .ready, since⟩) (he : e ∈ rest) :
      OutboxMove svc s (.publish token e.id) ({ s with sent := s.sent ++ [e] }.setBatch token
        (some ⟨rest.erase e, .publishing e false, s.clock⟩))
  | deliver {token : ℕ} {rest : List OutboxEvent} {e : OutboxEvent} {d : Bool} {since : ℤ}
      (hb : s.batches token = some ⟨rest, .publishing e d, since⟩) :
      OutboxMove svc s (.deliver token) ({ s with log := s.log ++ [e.message] }.setBatch token
        (some ⟨rest, .publishing e true, since⟩))
  | arrive {i : ℕ} {e : OutboxEvent} (he : e ∈ s.sent) :
      OutboxMove svc s (.arrive i) { s with log := s.log ++ [e.message] }
  | publishOk {token : ℕ} {rest : List OutboxEvent} {e : OutboxEvent} {since : ℤ}
      (hb : s.batches token = some ⟨rest, .publishing e true, since⟩) :
      OutboxMove svc s (.publishOk token) ({ s with returned := s.returned ++ [e] }.setBatch token
        (some ⟨rest, .acknowledging e, s.clock⟩))
  | publishErr {token : ℕ} {rest : List OutboxEvent} {e : OutboxEvent} {d : Bool} {since : ℤ}
      (hb : s.batches token = some ⟨rest, .publishing e d, since⟩) :
      OutboxMove svc s (.publishErr token) (s.setBatch token (some ⟨rest, .releasing, s.clock⟩))
  | acknowledge {token : ℕ} {rest : List OutboxEvent} {e : OutboxEvent} {since : ℤ}
      (hb : s.batches token = some ⟨rest, .acknowledging e, since⟩) :
      OutboxMove svc s (.acknowledge token .answered)
        ({ s with
          events := Table.update (Outbox.acknowledges token e) (.acknowledge s.clock)
            s.events }.setBatch token (if rest = [] then none else some ⟨rest, .ready, since⟩))
  | acknowledgeErr {token : ℕ} {outcome : Outcome} {rest : List OutboxEvent} {e : OutboxEvent}
      {since : ℤ} {events : List OutboxEvent}
      (hb : s.batches token = some ⟨rest, .acknowledging e, since⟩)
      (hev : events = s.events ∨ events =
        Table.update (Outbox.acknowledges token e) (.acknowledge s.clock) s.events) :
      OutboxMove svc s (.acknowledge token outcome)
        ({ s with events := events }.setBatch token (some ⟨rest, .releasing, since⟩))
  | release {token : ℕ} {outcome : Outcome} {rest : List OutboxEvent} {since : ℤ}
      {events : List OutboxEvent} (hb : s.batches token = some ⟨rest, .releasing, since⟩)
      (hev : events = s.events ∨
        events = Table.update (Outbox.releases token) .unclaim s.events) :
      OutboxMove svc s (.release token outcome)
        ({ s with events := events }.setBatch token none)
  | crash (token : ℕ) : OutboxMove svc s (.crash token) (s.setBatch token none)

theorem outbox_move (svc : Service) (s : Outbox) (a : OutboxStep) :
    OutboxMove svc s a ((outbox svc).next s a) := by
  cases a with
  | insert new => exact .insert new
  | advance now => exact .advance now
  | claim token locked =>
    simp only [outbox, Outbox.claim]
    split_ifs
    · exact .idle _
    · exact .claim token locked _ _ rfl rfl
  | publish token eventId =>
    simp only [outbox, Outbox.publish]
    split
    · next rest since hb =>
      split
      · next e he =>
        have hid : e.id = eventId := by simpa using List.find?_some he
        exact hid ▸ .publish hb (List.mem_of_find?_eq_some he)
      · exact .idle _
    · exact .idle _
  | deliver token =>
    simp only [outbox, Outbox.deliver]
    split
    · next hb => exact .deliver hb
    · exact .idle _
  | arrive i =>
    simp only [outbox, Outbox.arrive]
    split
    · next he => exact .arrive (List.mem_of_getElem? he)
    · exact .idle _
  | publishOk token =>
    simp only [outbox, Outbox.publishOk]
    split
    · next hb => exact .publishOk hb
    · exact .idle _
  | publishErr token =>
    simp only [outbox, Outbox.publishErr]
    split
    · next hb => exact .publishErr hb
    · exact .idle _
  | acknowledge token outcome =>
    simp only [outbox, Outbox.acknowledge]
    split
    · next rest e since hb =>
      by_cases hans : outcome = .answered ∧ s.events.countP (Outbox.acknowledges token e) = 1
      · obtain ⟨rfl, hone⟩ := hans
        simpa [hone] using OutboxMove.acknowledge hb
      · rw [if_neg hans]
        by_cases hlost : outcome = .lost
        · simpa [hlost] using OutboxMove.acknowledgeErr hb (Or.inl rfl)
        · simpa [hlost] using OutboxMove.acknowledgeErr hb (Or.inr rfl)
    · exact .idle _
  | release token outcome =>
    simp only [outbox, Outbox.release]
    split
    · next hb =>
      split_ifs
      · exact .release hb (Or.inl rfl)
      · exact .release hb (Or.inr rfl)
    · exact .idle _
  | crash token => exact .crash token

end RunMesh
