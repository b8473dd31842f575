import RunMesh.AtLeastOnce
import RunMesh.Auth
import RunMesh.Confinement

/-!
# Live notifications

After a publisher has acknowledged an event, and only then, `publishClaimedBatch` hands it to
`Broker.Publish`, which sends it to the channel of its tenant. The streams of the API subscribe to
the channel of their principal's tenant and forward what they get. `live` is the system of
`RunMesh.Delivery` with the notifications and the streams. A notification may fail, before or
after the broker has taken it, and a publisher may crash before it. When go-redis repeats a
`PUBLISH` after a network error, up to three times, the copies count as one. The broker keeps
nothing, so a stream gets what is sent while it is subscribed, and a message may be lost on the
way to it. A service without a broker is one whose notifications are all lost.

The tenant of an event is what the claim has returned with it, read from the tables as of the claim.
Rows keep their tenant, so it is the tenant of the run the event is about at any later time.
-/

namespace RunMesh

open Fallible

/-! ## Events and their tenants -/

/-- `live.Event`. -/
structure LiveEvent where
  id : ℕ
  type : EventType
  aggregateId : ℕ
  payload : Payload
  occurredAt : ℤ
  deriving DecidableEq, Repr

/-- The notification of an event. -/
def OutboxEvent.notification (e : OutboxEvent) : LiveEvent :=
  ⟨e.id, e.eventType, e.aggregateId, e.payload, e.createdAt⟩

/-- The tenant that the claim returns with an event, none for the empty text. No event is about a
definition. -/
def Db.eventTenant (db : Db) (e : OutboxEvent) : Option ℕ :=
  match e.aggregateType with
  | .workflowRun => (db.workflowRuns.find? fun r => r.id = e.aggregateId).map Run.tenantId
  | .taskRun =>
    (db.tasksWithRun.find? fun tr => tr.1.id = e.aggregateId).map fun tr => tr.2.tenantId

section Tenants

variable {db db' : Db} {env : Env} {op : Op} {e e' : OutboxEvent} {A : ℕ}

theorem OutboxEvent.notification_of_asInserted (h : e.asInserted = e'.asInserted) :
    e.notification = e'.notification :=
  show e.asInserted.notification = e'.asInserted.notification by rw [h]

theorem Db.eventTenant_of_asInserted (db : Db) (h : e.asInserted = e'.asInserted) :
    db.eventTenant e = db.eventTenant e' :=
  show db.eventTenant e.asInserted = db.eventTenant e'.asInserted by rw [h]

/-- The tenant of an event is that of the run it is about. -/
theorem Db.eventTenant_eq_some (hk : db.Keyed) :
    db.eventTenant e = some A ↔ ∃ r ∈ db.workflowRuns, r.tenantId = A ∧ db.EventOf e r.id := by
  unfold eventTenant EventOf
  cases hty : e.aggregateType with
  | workflowRun =>
    simp only [Option.map_eq_some_iff]
    constructor
    · rintro ⟨r, hr, rfl⟩
      have hid : r.id = e.aggregateId := by simpa using List.find?_some hr
      exact ⟨r, List.mem_of_find?_eq_some hr, rfl, .inl ⟨trivial, hid.symm⟩⟩
    · rintro ⟨r, hr, rfl, ⟨-, hid⟩ | ⟨hty', -⟩⟩
      · exact ⟨r, hid ▸ Table.find?_key hk.runs hr, rfl⟩
      · cases hty'
  | taskRun =>
    simp only [Option.map_eq_some_iff, Prod.exists]
    constructor
    · rintro ⟨t, r, htr, rfl⟩
      obtain ⟨ht, hr, hrun, hid⟩ := Table.find?_join htr
      exact ⟨r, hr, rfl, .inr ⟨trivial, t, ht, of_decide_eq_true hid, hrun.symm⟩⟩
    · rintro ⟨r, hr, rfl, ⟨hty', -⟩ | ⟨-, t, ht, hid, hrun⟩⟩
      · cases hty'
      · obtain ⟨⟨t', r'⟩, hfind⟩ := Table.exists_find?_join
          (p := fun tr : TaskRun × Run => decide (tr.1.id = e.aggregateId)) ht hr hrun.symm
          (decide_eq_true hid)
        obtain ⟨ht', hr', hrun', hid'⟩ := Table.find?_join hfind
        obtain rfl := Table.eq_of_key hk.tasks ht' ht ((of_decide_eq_true hid').trans hid.symm)
        obtain rfl := Table.eq_of_key hk.runs hr' hr (hrun'.trans hrun)
        exact ⟨t', r', hfind, rfl⟩

/-- An event keeps its tenant. -/
theorem exec_eventTenant (hw : db.WellFormed) (hf : db.Fresh env) {reply : Reply}
    (h : op.exec env db = .ok (reply, db')) (he : db.eventTenant e = some A) :
    db'.eventTenant e = some A := by
  obtain ⟨r, hr, rfl, hof⟩ := (Db.eventTenant_eq_some hw.toKeyed).1 he
  obtain ⟨r', hr', hid, htenant⟩ := exec_run_mem hw.toKeyed h hr
  exact (Db.eventTenant_eq_some (exec_wellFormed hw hf h).toKeyed).2
    ⟨r', hr', htenant, hid ▸ exec_eventOf hw.toKeyed h hof⟩

/-- Every event has a tenant. -/
theorem Reachable.exists_eventTenant {s : State} (h : Reachable s) :
    ∀ e ∈ s.db.outboxEvents, ∃ A, s.db.eventTenant e = some A := by
  have hrun : ∀ e ∈ s.db.outboxEvents, ∃ r ∈ s.db.workflowRuns, r.id = e.orderingKey := by
    refine (h.induction (P := fun db => db.WellFormed ∧ ∀ e ∈ db.outboxEvents,
      ∃ r ∈ db.workflowRuns, r.id = e.orderingKey)
      (fun _ h0 => ⟨h0.wellFormed, by simp [h0.outboxEvents]⟩) ?_).2
    rintro c db reply db' ⟨hw, hruns⟩ hf hok
    refine ⟨exec_wellFormed hw hf hok, fun e he => ?_⟩
    rcases (exec_writes hw.toKeyed hok).events.of_mem he with ⟨e₀, he₀, hkey⟩ | hwritten
    · obtain ⟨r, hr, hid⟩ := hruns e₀ he₀
      obtain ⟨r', hr', hid', -⟩ := exec_run_mem hw.toKeyed hok hr
      exact ⟨r', hr', hid'.trans (hid.trans hkey)⟩
    · rcases exec_run_of_writes hw hok hwritten with hrun | rfl
      · exact hrun
      · exact hruns e he
  intro e he
  obtain ⟨r, hr, hid⟩ := hrun e he
  exact ⟨r.tenantId, (Db.eventTenant_eq_some h.wellFormed.toKeyed).2
    ⟨r, hr, rfl, hid ▸ h.eventOf_orderingKey e he⟩⟩

end Tenants

/-! ## Streams -/

/-- A stream of the API that has subscribed. -/
structure Stream where
  tenantId : ℕ
  /-- How many notifications there were before. -/
  since : ℕ
  /-- The messages of the subscription that are to be forwarded. -/
  messages : List LiveEvent
  /-- What was written after `stream.connected`, none before the upgrade to a WebSocket. -/
  shown : Option (List LiveEvent)
  deriving DecidableEq

namespace Stream

/-- What the stream has got and not lost. -/
def events (st : Stream) : List LiveEvent :=
  st.shown.getD [] ++ st.messages

/-- A message on the channel of the tenant. -/
def receive (tenantId : ℕ) (e : LiveEvent) (st : Stream) : Stream :=
  if st.tenantId = tenantId then { st with messages := st.messages ++ [e] } else st

/-- The client is connected. -/
def connect (st : Stream) : Stream :=
  { st with shown := st.shown <|> some [] }

/-- The next message is written to the client. -/
def forward (st : Stream) : Stream :=
  match st.shown, st.messages with
  | some es, m :: ms => { st with shown := some (es ++ [m]), messages := ms }
  | _, _ => st

/-- A message of the subscription is lost. -/
def lose (i : ℕ) (st : Stream) : Stream :=
  { st with messages := st.messages.eraseIdx i }

@[simp] theorem events_connect (st : Stream) : st.connect.events = st.events := by
  obtain ⟨tenantId, since, messages, _ | es⟩ := st <;> rfl

@[simp] theorem events_forward (st : Stream) : st.forward.events = st.events := by
  obtain ⟨tenantId, since, _ | ⟨m, ms⟩, _ | es⟩ := st <;> simp [forward, events]

theorem events_lose (st : Stream) (i : ℕ) : (st.lose i).events.Sublist st.events :=
  (List.Sublist.refl _).append (List.eraseIdx_sublist ..)

theorem forward_since (st : Stream) :
    st.forward.tenantId = st.tenantId ∧ st.forward.since = st.since := by
  unfold forward
  split <;> exact ⟨rfl, rfl⟩

end Stream

/-! ## The system -/

/-- The system with its notifications and streams. -/
structure LiveWorld where
  world : World
  /-- The tenants that the last claim with a token has returned, by event. -/
  tenants : ℕ → ℕ → Option ℕ
  /-- The event that a publisher has acknowledged and not yet notified of. -/
  notifying : ℕ → Option OutboxEvent
  /-- What the broker has sent, with the tenant of the channel, in order. -/
  notified : List (ℕ × LiveEvent)
  streams : ℕ → Option Stream

/-- What can happen. -/
inductive LiveStep
  | durable (a : WorldStep)
  | notify (token : ℕ) (outcome : Outcome)
  | subscribe (id : ℕ) (principal : Principal)
  | connect (id : ℕ)
  | forward (id : ℕ)
  | lose (id i : ℕ)
  | disconnect (id : ℕ)

/-- The event whose acknowledgement affects one row. -/
def Outbox.acknowledged (s : Outbox) (token : ℕ) (outcome : Outcome) : Option OutboxEvent :=
  match s.batches token with
  | some ⟨_, .acknowledging e, _⟩ =>
    if outcome = .answered ∧ s.events.countP (acknowledges token e) = 1 then some e else none
  | _ => none

/-- The publisher whose next statement the step is. -/
def OutboxStep.publisher : OutboxStep → Option ℕ
  | .claim token _ | .publish token _ | .publishOk token | .publishErr token
  | .acknowledge token _ | .release token _ => some token
  | .insert _ | .advance _ | .deliver _ | .arrive _ | .crash _ => none

namespace LiveWorld

/-- What a publisher knows after its step : the tenants of a claim, and the event to notify of
after an acknowledgement. -/
def learn (s : LiveWorld) : OutboxStep → LiveWorld
  | .claim token _ =>
    let returned := fun id =>
      (s.world.outbox.events.find? fun e => e.id = id).bind s.world.plane.db.eventTenant
    { s with tenants := Function.update s.tenants token returned }
  | .acknowledge token outcome =>
    let acknowledged := s.world.outbox.acknowledged token outcome
    { s with notifying := Function.update s.notifying token acknowledged }
  | .crash token => { s with notifying := Function.update s.notifying token none }
  | _ => s

/-- A step of the system. -/
def durable (svc : Service) (s : LiveWorld) (a : WorldStep) : LiveWorld :=
  match a with
  | .publisher b => { s.learn b with world := (RunMesh.world svc).next s.world a }
  | _ => { s with world := (RunMesh.world svc).next s.world a }

/-- A message on the channel of the tenant. -/
def send (s : LiveWorld) (tenantId : ℕ) (e : LiveEvent) : LiveWorld :=
  { s with
    notified := s.notified ++ [(tenantId, e)]
    streams := fun id => (s.streams id).map (Stream.receive tenantId e) }

/-- `Broker.Publish`, after which the publisher goes on whatever the outcome. It is one message,
also if go-redis has repeated its `PUBLISH`. -/
def notify (s : LiveWorld) (token : ℕ) (outcome : Outcome) : LiveWorld :=
  match s.notifying token with
  | none => s
  | some e =>
    let s' := { s with notifying := Function.update s.notifying token none }
    match s.tenants token e.id with
    | none => s'
    | some tenantId => if outcome = .lost then s' else s'.send tenantId e.notification

/-- A stream moves on, or is gone. -/
def setStream (s : LiveWorld) (id : ℕ) (st : Option Stream) : LiveWorld :=
  { s with streams := Function.update s.streams id st }

/-- `Broker.Subscribe` for a request to `/v1/stream`. -/
def subscribe (s : LiveWorld) (id : ℕ) (principal : Principal) : LiveWorld :=
  match requireRole .viewer "runs:read" principal, s.streams id with
  | .ok _, none => s.setStream id (some ⟨principal.tenantId, s.notified.length, [], none⟩)
  | _, _ => s

/-- A publisher takes its next statement when it has notified of the last one. -/
def Idle (s : LiveWorld) : WorldStep → Prop
  | .publisher b => ∀ token ∈ b.publisher, s.notifying token = none
  | _ => True

instance (s : LiveWorld) (b : OutboxStep) : Decidable (s.Idle (.publisher b)) :=
  inferInstanceAs (Decidable (∀ token ∈ b.publisher, s.notifying token = none))

end LiveWorld

/-- The system with notifications as a machine. -/
def live (svc : Service) : Machine LiveWorld LiveStep where
  next s
    | .durable a => s.durable svc a
    | .notify token outcome => s.notify token outcome
    | .subscribe id principal => s.subscribe id principal
    | .connect id => s.setStream id ((s.streams id).map Stream.connect)
    | .forward id => s.setStream id ((s.streams id).map Stream.forward)
    | .lose id i => s.setStream id ((s.streams id).map (Stream.lose i))
    | .disconnect id => s.setStream id none
  allowed s
    | .durable a => (world svc).allowed s.world a ∧ s.Idle a
    | _ => True

/-- No run, no publisher and no stream. -/
structure LiveWorld.Init (s : LiveWorld) : Prop where
  world : s.world.Init
  notifying : ∀ token, s.notifying token = none
  notified : s.notified = []
  streams : ∀ id, s.streams id = none

/-! ## The system does not notice -/

/-- The step of the system without notifications. -/
def LiveStep.durable? : LiveStep → Option WorldStep
  | .durable a => some a
  | _ => none

section

variable {svc : Service} {s : LiveWorld}

theorem durable_world (svc : Service) (s : LiveWorld) (a : WorldStep) :
    (s.durable svc a).world = (world svc).next s.world a := by
  unfold LiveWorld.durable
  split <;> rfl

theorem live_world (a : LiveStep) :
    ((live svc).next s a).world = (a.durable?.map ((world svc).next s.world)).getD s.world := by
  cases a with
  | durable a => exact durable_world svc s a
  | notify token outcome =>
    simp only [live, LiveWorld.notify, LiveStep.durable?]
    split
    · rfl
    · split
      · rfl
      · split_ifs <;> rfl
  | subscribe id principal =>
    simp only [live, LiveWorld.subscribe, LiveStep.durable?]
    split <;> rfl
  | _ => rfl

/-- Without its notifications a history is a history of the system, with the same end. -/
theorem live_run_world (as : List LiveStep) : ∀ {s : LiveWorld}, (live svc).Valid s as →
    (world svc).Valid s.world (as.filterMap LiveStep.durable?) ∧
      ((live svc).run s as).world =
        (world svc).run s.world (as.filterMap LiveStep.durable?) := by
  induction as with
  | nil => exact fun _ => ⟨trivial, rfl⟩
  | cons a as ih =>
    intro s hv
    obtain ⟨hvalid, hrun⟩ := ih hv.2
    rw [live_world] at hvalid hrun
    cases ha : a.durable? with
    | none =>
      rw [ha] at hvalid hrun
      rw [List.filterMap_cons_none ha]
      exact ⟨hvalid, hrun⟩
    | some b =>
      rw [ha] at hvalid hrun
      rw [List.filterMap_cons_some ha]
      cases a <;> cases ha
      exact ⟨⟨hv.1.1, hvalid⟩, hrun⟩

end

/-! ## What is announced -/

section Announced

variable {svc : Service} {w w' : World} {a : WorldStep} {A token : ℕ} {e : OutboxEvent}

/-- The event is published, and it is one of the tenant. -/
def World.Announces (w : World) (A : ℕ) (e : LiveEvent) : Prop :=
  ∃ r ∈ w.outbox.events, r.notification = e ∧ r.publishedAt ≠ none ∧
    w.plane.db.eventTenant r = some A

theorem World.Coherent.eventTenant_move (h : w.Coherent) (m : SystemMove svc w w')
    (he : w.plane.db.eventTenant e = some A) : w'.plane.db.eventTenant e = some A := by
  cases m with
  | quiet hplane => rwa [hplane]
  | publisher _ _ _ hplane => rwa [hplane]
  | call c hc hplane =>
    rw [hplane, controlPlane_next_db]
    cases hexec : c.exec w.plane.db with
    | error => rwa [Call.after_of_error hexec]
    | ok r =>
      rw [Call.after_of_ok hexec]
      exact exec_eventTenant h.reachable.wellFormed hc.2 hexec he

/-- A row stays, and stays published. -/
theorem World.Coherent.mem_row (h : w.Coherent) (m : SystemMove svc w w') {r : OutboxEvent}
    (hr : r ∈ w.outbox.events) : ∃ r' ∈ w'.outbox.events, r'.asInserted = r.asInserted ∧
      (r.publishedAt ≠ none → r'.publishedAt ≠ none) := by
  have hrow : ∀ b, ∃ r' ∈ ((RunMesh.outbox svc).next w.outbox b).events,
      r'.asInserted = r.asInserted ∧ (r.publishedAt ≠ none → r'.publishedAt ≠ none) := by
    intro b
    obtain ⟨r', hr', hmove⟩ := ((outbox_move svc w.outbox b).rows h.sound.nodup).mem_row hr
    exact ⟨r', hr', hmove.asInserted, hmove.published⟩
  cases m with
  | quiet _ houtbox => exact ⟨r, houtbox ▸ hr, rfl, id⟩
  | call c _ _ houtbox => exact houtbox ▸ hrow _
  | publisher b _ _ _ houtbox => exact houtbox ▸ hrow b

/-- What is announced stays so. -/
theorem World.Announces.move {e : LiveEvent} (ha : w.Announces A e) (h : w.Coherent)
    (m : SystemMove svc w w') : w'.Announces A e := by
  obtain ⟨r, hr, hnote, hpub, htenant⟩ := ha
  obtain ⟨r', hr', hins, hpub'⟩ := h.mem_row m hr
  refine ⟨r', hr', ?_, hpub' hpub, ?_⟩
  · rw [OutboxEvent.notification_of_asInserted hins, hnote]
  · rw [Db.eventTenant_of_asInserted _ hins]
    exact h.eventTenant_move m htenant

/-- An event that is announced is not one that is unpublished. -/
theorem World.Announces.id_ne {e : LiveEvent} (ha : w.Announces A e) (h : w.outbox.Sound)
    {r : OutboxEvent} (hr : r ∈ w.outbox.events) (hun : r.publishedAt = none) : e.id ≠ r.id := by
  obtain ⟨r', hr', rfl, hpub, -⟩ := ha
  intro hid
  obtain rfl := Table.eq_of_key h.nodup hr' hr hid
  exact hpub hun

/-- An event whose acknowledgement succeeds was unpublished, and is published then. -/
theorem Outbox.Sound.acknowledged {o : Outbox} (h : o.Sound) (svc : Service) {outcome : Outcome}
    (hack : o.acknowledged token outcome = some e) :
    (∃ b, o.batches token = some b ∧ e ∈ b.rows) ∧
      (∃ r ∈ o.events, r.asInserted = e.asInserted ∧ r.publishedAt = none) ∧
      ∃ r ∈ ((outbox svc).next o (.acknowledge token outcome)).events,
        r.asInserted = e.asInserted ∧ r.publishedAt ≠ none := by
  unfold Outbox.acknowledged at hack
  split at hack
  next rest x since hb =>
    obtain ⟨⟨rfl, hone⟩, hx⟩ := Option.ite_none_right_eq_some.1 hack
    obtain rfl : x = e := Option.some.inj hx
    have hrows : x ∈ (⟨rest, .acknowledging x, since⟩ : Batch).rows := List.mem_cons_self
    obtain ⟨o', ho', hack'⟩ := List.countP_pos_iff.1 (hone ▸ Nat.one_pos)
    obtain ⟨hid, hun, -⟩ := of_decide_eq_true hack'
    obtain ⟨r, hr, hins, -⟩ := h.rows token _ hb x hrows
    obtain rfl := Table.eq_of_key h.nodup hr ho'
      ((OutboxEvent.id_of_asInserted hins).trans hid.symm)
    refine ⟨⟨_, hb, hrows⟩, ⟨r, hr, hins, hun⟩, r.acknowledge o.clock, ?_, hins,
      Option.some_ne_none _⟩
    have hnext : ((outbox svc).next o (.acknowledge token .answered)).events =
        Table.update (acknowledges token x) (.acknowledge o.clock) o.events := by
      simp [outbox, Outbox.acknowledge, hb, hone]
    rw [hnext]
    exact Table.mem_update.2 ⟨r, hr, by simp [hack']⟩
  next => cases hack

/-- Only publishers move publishers. -/
theorem world_batches (ha : ∀ b, a ≠ .publisher b) :
    ((world svc).next w a).outbox.batches = w.outbox.batches := by
  cases a with
  | publisher b => exact absurd rfl (ha b)
  | call | crash => rfl
  | lease id env duration outcome =>
    simp only [world, World.lease]
    split
    · split <;> rfl
    · rfl
  | fetch id =>
    simp only [world, World.fetch]
    split
    · split <;> rfl
    · rfl
  | _ =>
    simp only [world, World.join, World.assign, World.finish, World.commit]
    split <;> rfl

/-- A publisher works on events it worked on before, or has just claimed them. -/
theorem world_batch {b' : Batch}
    (hb' : ((world svc).next w a).outbox.batches token = some b') :
    (∃ b, w.outbox.batches token = some b ∧ b'.rows ⊆ b.rows) ∨
      ∃ locked, a = .publisher (.claim token locked) ∧
        ∀ e ∈ b'.rows, ∃ r ∈ w.outbox.events, r.asInserted = e.asInserted := by
  cases a with
  | publisher c =>
    cases (outbox_move svc w.outbox c).batch hb' with
    | keep hb | deliver hb | publishOk hb => exact .inl ⟨_, hb, List.Subset.refl _⟩
    | @claim _ locked p hp hev =>
      refine .inr ⟨locked, rfl, fun e he => ?_⟩
      obtain ⟨r, hr, rfl⟩ := List.mem_map.1 he
      exact ⟨r, List.mem_of_mem_filter hr, rfl⟩
    | publish hb he _ =>
      refine .inl ⟨_, hb, fun x hx => ?_⟩
      rcases List.mem_cons.1 hx with rfl | hx
      · exact he
      · exact List.mem_of_mem_erase hx
    | publishErr hb | acknowledge hb | acknowledgeErr hb =>
      exact .inl ⟨_, hb, List.subset_cons_self _ _⟩
  | _ =>
    rw [world_batches fun _ h => by cases h] at hb'
    exact .inl ⟨b', hb', List.Subset.refl _⟩

end Announced

/-! ## What every interleaving keeps -/

/-- Publishers know the tenants of their events, and notify of published events, each once. -/
structure LiveWorld.Sound (s : LiveWorld) : Prop where
  coherent : s.world.Coherent
  /-- What the claim has returned is right. -/
  known : ∀ token b, s.world.outbox.batches token = some b → ∀ e ∈ b.rows,
    ∃ A, s.tenants token e.id = some A ∧ s.world.plane.db.eventTenant e = some A
  pending : ∀ token e, s.notifying token = some e →
    ∃ A, s.tenants token e.id = some A ∧ s.world.Announces A e.notification
  apart : ∀ token token' e e', s.notifying token = some e → s.notifying token' = some e' →
    e.id = e'.id → token = token'
  unsaid : ∀ token e, s.notifying token = some e → ∀ n ∈ s.notified, n.2.id ≠ e.id
  once : (s.notified.map fun n => n.2.id).Nodup
  said : ∀ n ∈ s.notified, s.world.Announces n.1 n.2

section Sound

variable {svc : Service} {s : LiveWorld} {a : WorldStep} {token : ℕ} {e : OutboxEvent}

theorem LiveWorld.Init.sound (h : s.Init) : s.Sound where
  coherent := h.world.coherent
  known := by simp [h.world.outbox.batches]
  pending := by simp [h.notifying]
  apart := by simp [h.notifying]
  unsaid := by simp [h.notifying]
  once := by simp [h.notified]
  said := by simp [h.notified]

@[simp] theorem durable_notified (svc : Service) (s : LiveWorld) (a : WorldStep) :
    (s.durable svc a).notified = s.notified := by
  unfold LiveWorld.durable LiveWorld.learn
  repeat' split
  all_goals rfl

@[simp] theorem durable_streams (svc : Service) (s : LiveWorld) (a : WorldStep) :
    (s.durable svc a).streams = s.streams := by
  unfold LiveWorld.durable LiveWorld.learn
  repeat' split
  all_goals rfl

/-- A publisher is to notify of what it was before, or of what it has just acknowledged. -/
theorem durable_notifying (hidle : s.Idle a) (h : (s.durable svc a).notifying token = some e) :
    (s.durable svc a).tenants token = s.tenants token ∧ (s.notifying token = some e ∨
      ∃ outcome, a = .publisher (.acknowledge token outcome) ∧
        s.world.outbox.acknowledged token outcome = some e) := by
  cases a with
  | publisher b =>
    cases b with
    | claim u locked =>
      have hne : token ≠ u := by
        rintro rfl
        rw [show (s.durable svc (.publisher (.claim token locked))).notifying = s.notifying
          from rfl, hidle token rfl] at h
        cases h
      exact ⟨Function.update_of_ne hne _ _, .inl h⟩
    | acknowledge u outcome =>
      refine ⟨rfl, ?_⟩
      by_cases hu : token = u
      · subst hu
        exact .inr ⟨outcome, rfl, by simpa [LiveWorld.durable, LiveWorld.learn] using h⟩
      · exact .inl (by simpa [LiveWorld.durable, LiveWorld.learn, hu] using h)
    | crash u =>
      refine ⟨rfl, .inl ?_⟩
      by_cases hu : token = u
      · simp [LiveWorld.durable, LiveWorld.learn, hu] at h
      · simpa [LiveWorld.durable, LiveWorld.learn, hu] using h
    | _ => exact ⟨rfl, .inl h⟩
  | _ => exact ⟨rfl, .inl h⟩

/-- The tenants of a publisher that goes on are those it knew. -/
theorem durable_tenants (ha : (world svc).allowed s.world a) {b : Batch}
    (hb : s.world.outbox.batches token = some b) :
    (s.durable svc a).tenants token = s.tenants token := by
  cases a with
  | publisher c =>
    cases c with
    | claim u locked =>
      refine Function.update_of_ne ?_ _ _
      rintro rfl
      rw [ha.1.1] at hb
      cases hb
    | _ => rfl
  | _ => rfl

theorem LiveWorld.Sound.durable_known (h : s.Sound) (ha : (RunMesh.world svc).allowed s.world a)
    {b : Batch} (hb : ((RunMesh.world svc).next s.world a).outbox.batches token = some b) :
    ∀ e ∈ b.rows, ∃ A, (s.durable svc a).tenants token e.id = some A ∧
      ((RunMesh.world svc).next s.world a).plane.db.eventTenant e = some A := by
  intro e he
  have hmove : SystemMove svc s.world ((RunMesh.world svc).next s.world a) := world_system ha
  rcases world_batch hb with ⟨b₀, hb₀, hsub⟩ | ⟨locked, rfl, hrows⟩
  · obtain ⟨A, hknown, htenant⟩ := h.known token b₀ hb₀ e (hsub he)
    exact ⟨A, by rw [durable_tenants ha hb₀, hknown], h.coherent.eventTenant_move hmove htenant⟩
  · -- the claim reads the tenants of the rows it claims
    obtain ⟨r, hr, hins⟩ := hrows e he
    have hmem : r.asInserted ∈ s.world.plane.db.outboxEvents :=
      h.coherent.events ▸ List.mem_map_of_mem hr
    obtain ⟨A, hA⟩ := h.coherent.reachable.exists_eventTenant _ hmem
    have hA : s.world.plane.db.eventTenant r = some A := hA
    refine ⟨A, ?_, (Db.eventTenant_of_asInserted _ hins).symm.trans hA⟩
    have hfind : s.world.outbox.events.find? (fun x => x.id = e.id) = some r :=
      OutboxEvent.id_of_asInserted hins ▸ Table.find?_key h.coherent.sound.nodup hr
    simpa [LiveWorld.durable, LiveWorld.learn, hfind] using hA

theorem LiveWorld.Sound.durable (h : s.Sound) (ha : (RunMesh.world svc).allowed s.world a)
    (hidle : s.Idle a) : (s.durable svc a).Sound := by
  have hmove : SystemMove svc s.world ((RunMesh.world svc).next s.world a) := world_system ha
  have hworld := durable_world svc s a
  -- an acknowledged event is published by this step
  have hnew : ∀ {token e outcome}, a = .publisher (.acknowledge token outcome) →
      s.world.outbox.acknowledged token outcome = some e →
      (∃ A, s.tenants token e.id = some A ∧
        ((RunMesh.world svc).next s.world a).Announces A e.notification) ∧
      ∃ r ∈ s.world.outbox.events, r.id = e.id ∧ r.publishedAt = none := by
    rintro token e outcome rfl hack
    obtain ⟨⟨b, hb, he⟩, ⟨r, hr, hins, hun⟩, r', hr', hins', hpub⟩ :=
      h.coherent.sound.acknowledged svc hack
    obtain ⟨A, hknown, htenant⟩ := h.known token b hb e he
    refine ⟨⟨A, hknown, r', hr', OutboxEvent.notification_of_asInserted hins', hpub, ?_⟩,
      r, hr, OutboxEvent.id_of_asInserted hins, hun⟩
    exact (Db.eventTenant_of_asInserted _ hins').trans htenant
  refine ⟨?_, ?_, ?_, ?_, ?_, ?_, ?_⟩
  · rw [hworld]
    exact h.coherent.move hmove
  · intro token b hb
    rw [hworld] at hb ⊢
    exact h.durable_known ha hb
  · intro token e he
    obtain ⟨htenants, hold | ⟨outcome, hact, hack⟩⟩ := durable_notifying hidle he
    · obtain ⟨A, hknown, hann⟩ := h.pending token e hold
      exact ⟨A, by rw [htenants, hknown], hworld ▸ hann.move h.coherent hmove⟩
    · obtain ⟨⟨A, hknown, hann⟩, -⟩ := hnew hact hack
      exact ⟨A, by rw [htenants, hknown], hworld ▸ hann⟩
  · intro token token' e e' he he' hid
    have hclash : ∀ {token token' e e' outcome}, s.notifying token = some e →
        a = .publisher (.acknowledge token' outcome) →
        s.world.outbox.acknowledged token' outcome = some e' → e.id ≠ e'.id := by
      intro token token' e e' outcome hold hact hack
      obtain ⟨A, -, hann⟩ := h.pending _ _ hold
      obtain ⟨-, r, hr, hid', hun⟩ := hnew hact hack
      exact hid' ▸ hann.id_ne h.coherent.sound hr hun
    rcases (durable_notifying hidle he).2 with hold | ⟨outcome, hact, hack⟩ <;>
      rcases (durable_notifying hidle he').2 with hold' | ⟨outcome', hact', hack'⟩
    · exact h.apart _ _ _ _ hold hold' hid
    · exact absurd hid (hclash hold hact' hack')
    · exact absurd hid.symm (hclash hold' hact hack)
    · rw [hact] at hact'
      cases hact'
      rfl
  · intro token e he n hn
    rw [durable_notified] at hn
    rcases (durable_notifying hidle he).2 with hold | ⟨outcome, hact, hack⟩
    · exact h.unsaid token e hold n hn
    · obtain ⟨-, r, hr, hid, hun⟩ := hnew hact hack
      exact hid ▸ (h.said n hn).id_ne h.coherent.sound hr hun
  · rw [durable_notified]
    exact h.once
  · intro n hn
    rw [durable_notified] at hn
    rw [hworld]
    exact (h.said n hn).move h.coherent hmove

theorem of_update_none {β : Type*} {f : ℕ → Option β} {x : β} {u : ℕ}
    (h : Function.update f token none u = some x) : u ≠ token ∧ f u = some x := by
  by_cases hu : u = token
  · simp [hu] at h
  · exact ⟨hu, by rwa [Function.update_of_ne hu] at h⟩

/-- A publisher is done with its notification. -/
theorem LiveWorld.Sound.clear (h : s.Sound) (token : ℕ) :
    LiveWorld.Sound { s with notifying := Function.update s.notifying token none } where
  coherent := h.coherent
  known := h.known
  pending u e hu := h.pending u e (of_update_none hu).2
  apart u u' e e' hu hu' := h.apart u u' e e' (of_update_none hu).2 (of_update_none hu').2
  unsaid u e hu := h.unsaid u e (of_update_none hu).2
  once := h.once
  said := h.said

/-- A new notification of an event that no publisher is to notify of. -/
theorem LiveWorld.Sound.send (h : s.Sound) {A : ℕ} {x : LiveEvent}
    (hann : s.world.Announces A x) (hnew : ∀ n ∈ s.notified, n.2.id ≠ x.id)
    (hfree : ∀ token e, s.notifying token = some e → x.id ≠ e.id) : (s.send A x).Sound where
  coherent := h.coherent
  known := h.known
  pending := h.pending
  apart := h.apart
  unsaid u e hu n hn := by
    rcases List.mem_append.1 hn with hn | hn
    · exact h.unsaid u e hu n hn
    · rw [List.mem_singleton.1 hn]
      exact hfree u e hu
  once := by
    simp only [LiveWorld.send, List.map_append, List.map_cons, List.map_nil]
    rw [List.nodup_append_comm]
    refine List.nodup_cons.2 ⟨fun hmem => ?_, h.once⟩
    obtain ⟨n, hn, hid⟩ := List.mem_map.1 hmem
    exact hnew n hn hid
  said n hn := by
    rcases List.mem_append.1 hn with hn | hn
    · exact h.said n hn
    · rwa [List.mem_singleton.1 hn]

theorem LiveWorld.Sound.notify (h : s.Sound) (token : ℕ) (outcome : Outcome) :
    (s.notify token outcome).Sound := by
  unfold LiveWorld.notify
  cases he : s.notifying token with
  | none => exact h
  | some e =>
    obtain ⟨A, hknown, hann⟩ := h.pending token e he
    simp only [hknown]
    split_ifs
    · exact h.clear token
    · refine (h.clear token).send hann (h.unsaid token e he) fun u e' hu hid => ?_
      obtain ⟨hne, hu⟩ := of_update_none hu
      exact hne (h.apart u token e' e hu he hid.symm)

theorem LiveWorld.Sound.setStream (h : s.Sound) (id : ℕ) (st : Option Stream) :
    (s.setStream id st).Sound :=
  ⟨h.coherent, h.known, h.pending, h.apart, h.unsaid, h.once, h.said⟩

theorem LiveWorld.Sound.next (h : s.Sound) {a : LiveStep} (ha : (live svc).allowed s a) :
    ((live svc).next s a).Sound := by
  cases a with
  | durable a => exact h.durable ha.1 ha.2
  | notify token outcome => exact h.notify token outcome
  | subscribe id principal =>
    simp only [live, LiveWorld.subscribe]
    split
    · exact h.setStream id _
    · exact h
  | connect id | forward id | lose id | disconnect id => exact h.setStream id _

end Sound

/-! ## What a stream gets -/

/-- The notifications of the tenant after the first `since`. -/
def LiveWorld.channel (s : LiveWorld) (since tenantId : ℕ) : List LiveEvent :=
  ((s.notified.drop since).filter fun n => n.1 = tenantId).map Prod.snd

/-- What the stream has got stands in `R` to what was sent while it was subscribed. -/
def LiveWorld.Hears (R : List LiveEvent → List LiveEvent → Prop) (id : ℕ) (s : LiveWorld) : Prop :=
  ∀ st, s.streams id = some st →
    st.since ≤ s.notified.length ∧ R st.events (s.channel st.since st.tenantId)

section Hears

variable {svc : Service} {R : List LiveEvent → List LiveEvent → Prop} {s : LiveWorld} {id : ℕ}

theorem LiveWorld.channel_send {since : ℕ} (hsince : since ≤ s.notified.length) (A B : ℕ)
    (e : LiveEvent) :
    (s.send A e).channel since B = s.channel since B ++ if A = B then [e] else [] := by
  simp only [channel, send, List.drop_append_of_le_length hsince, List.filter_append,
    List.map_append]
  by_cases hAB : A = B <;> simp [hAB]

theorem Stream.events_receive (A : ℕ) (e : LiveEvent) (st : Stream) :
    (st.receive A e).events = st.events ++ if A = st.tenantId then [e] else [] := by
  unfold receive
  by_cases hA : st.tenantId = A
  · simp [hA, events]
  · simp [hA, Ne.symm hA]

/-- A stream hears what is sent. -/
theorem LiveWorld.Hears.send (h : s.Hears R id)
    (hsnoc : ∀ l l' e, R l l' → R (l ++ [e]) (l' ++ [e])) (A : ℕ) (e : LiveEvent) :
    (s.send A e).Hears R id := by
  intro st' hst'
  obtain ⟨st, hst, rfl⟩ := Option.map_eq_some_iff.1 hst'
  obtain ⟨hsince, hR⟩ := h st hst
  have hkeep : (st.receive A e).since = st.since ∧ (st.receive A e).tenantId = st.tenantId := by
    unfold Stream.receive
    split_ifs <;> exact ⟨rfl, rfl⟩
  rw [hkeep.1, hkeep.2, Stream.events_receive, channel_send hsince]
  refine ⟨hsince.trans (by simp [LiveWorld.send]), ?_⟩
  split_ifs
  · exact hsnoc _ _ _ hR
  · simpa using hR

@[simp] theorem setStream_self (s : LiveWorld) (id : ℕ) (st : Option Stream) :
    (s.setStream id st).streams id = st :=
  Function.update_self ..

theorem setStream_of_ne {id' : ℕ} (h : id ≠ id') (st : Option Stream) :
    (s.setStream id' st).streams id = s.streams id :=
  Function.update_of_ne h ..

/-- A stream moves on. -/
theorem LiveWorld.Hears.map (h : s.Hears R id) {f : Stream → Stream} (id' : ℕ)
    (hf : ∀ st, (f st).since = st.since ∧ (f st).tenantId = st.tenantId)
    (hR : ∀ st l, id' = id → R st.events l → R (f st).events l) :
    (s.setStream id' ((s.streams id').map f)).Hears R id := by
  intro st' hst'
  by_cases hid : id = id'
  · subst hid
    rw [setStream_self] at hst'
    obtain ⟨st, hst, rfl⟩ := Option.map_eq_some_iff.1 hst'
    obtain ⟨hsince, hst⟩ := h st hst
    rw [(hf st).1, (hf st).2]
    exact ⟨hsince, hR st _ rfl hst⟩
  · rw [setStream_of_ne hid] at hst'
    exact h st' hst'

/-- A step keeps what a stream hears, unless it loses a message of the stream. -/
theorem LiveWorld.Hears.next (h : s.Hears R id) (hnil : R [] [])
    (hsnoc : ∀ l l' e, R l l' → R (l ++ [e]) (l' ++ [e])) {a : LiveStep}
    (hlose : ∀ i, a = .lose id i → ∀ l l' l'', l''.Sublist l → R l l' → R l'' l') :
    ((live svc).next s a).Hears R id := by
  cases a with
  | durable a =>
    intro st hst
    simp only [live, durable_streams] at hst
    simpa [live, LiveWorld.channel] using h st hst
  | notify token outcome =>
    simp only [live, LiveWorld.notify]
    split
    · exact h
    · have hclear : LiveWorld.Hears R id
          { s with notifying := Function.update s.notifying token none } := h
      split
      · exact hclear
      · split_ifs
        · exact hclear
        · exact hclear.send hsnoc _ _
  | subscribe id' principal =>
    simp only [live, LiveWorld.subscribe]
    split
    · next hnone =>
      intro st hst
      by_cases hid : id = id'
      · subst hid
        rw [setStream_self, Option.some.injEq] at hst
        subst hst
        refine ⟨le_refl _, ?_⟩
        simpa [LiveWorld.channel, Stream.events, LiveWorld.setStream] using hnil
      · rw [setStream_of_ne hid] at hst
        exact h st hst
    · exact h
  | connect id' => exact h.map id' (fun _ => ⟨rfl, rfl⟩) fun st l _ hR => by simpa using hR
  | forward id' =>
    exact h.map id' (fun st => st.forward_since.symm) fun st l _ hR => by simpa using hR
  | lose id' i =>
    refine h.map id' (fun _ => ⟨rfl, rfl⟩) fun st l hid hR => ?_
    exact hlose i (hid ▸ rfl) _ _ _ (st.events_lose i) hR
  | disconnect id' =>
    intro st hst
    by_cases hid : id = id'
    · simp [live, hid] at hst
    · simp only [live, setStream_of_ne hid] at hst
      exact h st hst

theorem LiveWorld.Init.hears (h : s.Init) : s.Hears R id := by
  intro st hst
  rw [h.streams] at hst
  cases hst

/-- A stream has what was sent but for what it has lost. -/
theorem LiveWorld.Hears.run_sublist (h : s.Hears List.Sublist id) {as : List LiveStep}
    (hv : (live svc).Valid s as) : ((live svc).run s as).Hears List.Sublist id := by
  refine (live svc).invariant (fun s a hs _ => hs.next (.refl _) ?_ ?_) h hv
  · exact fun l l' e hl => hl.append (.refl _)
  · exact fun i _ l l' l'' hsub hl => hsub.trans hl

/-- Without a loss it has what was sent. -/
theorem LiveWorld.Hears.run_eq (h : s.Hears Eq id) {as : List LiveStep}
    (hlose : ∀ i, LiveStep.lose id i ∉ as) : ((live svc).run s as).Hears Eq id := by
  have hnone : (live svc).Along (fun _ a => ∀ i, a ≠ .lose id i) s as := by
    refine (live svc).along_of_forall (fun a ha _ i hi => ?_) s
    exact hlose i (hi ▸ ha)
  refine (live svc).invariant_along (fun s a hs ha => hs.next rfl ?_ ?_) h hnone
  · exact fun l l' e hl => by rw [hl]
  · exact fun i hi => absurd hi (ha i)

end Hears

/-- Live streams. After every history, the system is in the state it would be in without
notifications. Each event was handed to `Broker.Publish` at most once, and only once it was
published, for the channel of the tenant of its run. A stream has got notifications of its own
tenant, in the order they were sent in since it subscribed, and all of them if none was lost on the
way to it. -/
theorem live_streams_sound (svc : Service) {s₀ s : LiveWorld} (h0 : s₀.Init) {as : List LiveStep}
    (hv : (live svc).Valid s₀ as) (hs : (live svc).run s₀ as = s) :
    ((world svc).Valid s₀.world (as.filterMap LiveStep.durable?) ∧
      s.world = (world svc).run s₀.world (as.filterMap LiveStep.durable?)) ∧
    (s.notified.map fun n => n.2.id).Nodup ∧
    (∀ A e, (A, e) ∈ s.notified → ∃ row ∈ s.world.outbox.events, row.notification = e ∧
      row.publishedAt ≠ none ∧ row.message ∈ s.world.outbox.log ∧
      ∃ r ∈ s.world.plane.db.workflowRuns, r.tenantId = A ∧ s.world.plane.db.EventOf row r.id) ∧
    ∀ id st, s.streams id = some st →
      st.events.Sublist (s.channel st.since st.tenantId) ∧
      ((∀ i, LiveStep.lose id i ∉ as) → st.events = s.channel st.since st.tenantId) := by
  subst hs
  have hsound : ((live svc).run s₀ as).Sound :=
    (live svc).invariant (fun _ _ h ha => h.next ha) h0.sound hv
  refine ⟨live_run_world as hv, hsound.once, fun A e he => ?_, fun id st hst => ⟨?_, ?_⟩⟩
  · obtain ⟨row, hrow, hnote, hpub, htenant⟩ := hsound.said (A, e) he
    exact ⟨row, hrow, hnote, hpub, hsound.coherent.sound.message_mem_log hrow hpub,
      (Db.eventTenant_eq_some hsound.coherent.reachable.wellFormed.toKeyed).1 htenant⟩
  · exact (h0.hears.run_sublist hv st hst).2
  · exact fun hlose => (h0.hears.run_eq hlose st hst).2

/-- The two definitions, and no stream. -/
def quietLive : LiveWorld :=
  ⟨quietWorld, fun _ _ => none, fun _ => none, [], fun _ => none⟩

/-- A viewer has a stream while the event of a new run is published. The answer to the
notification is lost, but the stream gets it. -/
def watchedDispatch : List LiveStep :=
  [.durable (.call ⟨Env.at 1 3, .createRun 1 none 1 "k" "" none⟩),
    .subscribe 0 ⟨1, none, .viewer, .oidc, []⟩, .connect 0,
    .durable (.publisher (.claim 8 [])), .durable (.publisher (.publish 8 6)),
    .durable (.publisher (.deliver 8)), .durable (.publisher (.publishOk 8)),
    .durable (.publisher (.acknowledge 8 .answered)), .notify 8 .unanswered, .forward 0]

theorem live_streams_sound_watchedDispatch :
    ∃ st, ((live defaultService).run quietLive watchedDispatch).streams 0 = some st ∧
      st.shown.map (fun es => es.map LiveEvent.id) = some [6] ∧
      st.events = ((live defaultService).run quietLive watchedDispatch).channel st.since
        st.tenantId := by
  have h0 : quietLive.Init := ⟨init_quietWorld, fun _ => rfl, rfl, fun _ => rfl⟩
  have hv : (live defaultService).Valid quietLive watchedDispatch :=
    ⟨⟨⟨by decide, Db.fresh_at (by decide) 1⟩, trivial⟩, trivial, trivial,
      ⟨⟨by decide, nofun⟩, by decide⟩, ⟨⟨by decide, nofun⟩, by decide⟩,
      ⟨⟨by decide, nofun⟩, nofun⟩, ⟨⟨by decide, nofun⟩, by decide⟩,
      ⟨⟨by decide, nofun⟩, by decide⟩, trivial, trivial, trivial⟩
  obtain ⟨-, -, -, hstreams⟩ := live_streams_sound defaultService h0 hv rfl
  have hst : ((live defaultService).run quietLive watchedDispatch).streams 0 ≠ none := by decide
  obtain ⟨st, hst⟩ := Option.ne_none_iff_exists'.1 hst
  refine ⟨st, hst, ?_, (hstreams 0 st hst).2 (by simp [watchedDispatch])⟩
  have hshown : (((live defaultService).run quietLive watchedDispatch).streams 0).bind
      (fun st => st.shown.map fun es => es.map LiveEvent.id) = some [6] := by decide
  rwa [hst] at hshown

end RunMesh
