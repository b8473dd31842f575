import RunMesh.Events
import RunMesh.OutboxSafety

/-!
# Delivery

The control plane, its outbox, and the workers that consume the topic. The topic is the
broker's log, and the consumer group has one committed offset. A consumer is a Go worker
(`cmd/worker-go`) or a slot of a Python worker (`sdk/python`). It fetches the next message,
leases the task of a dispatch, runs it, and commits the offset. Any number of consumers are
in the group, each at its own position, and a rebalance puts one back to the committed
offset at any time. A request may fail before or after the server has acted (`Outcome`), and
a consumer may crash between any two steps.

The calls a worker makes on a lease it holds are calls of the control plane like any other,
so from the lease to the commit a consumer is just `executing`. The control plane only
appends to `outbox_events` and the publishers only write its claim columns, so the state
keeps the table twice : `plane.db.outboxEvents` has the rows as they were inserted, and
`outbox.events` as the publishers see them. `World.Coherent` says that they agree.
-/

namespace RunMesh

/-! ## Consumers -/

/-- `supported` of the Go worker. -/
def goHandlers : List String :=
  ["examples.greet", "examples.upper", "examples.notify", "examples.slow", "validation.dead"]

/-- The two kinds of worker, a Python worker with the handlers registered in it. -/
inductive Sdk
  | go
  | python (handlers : List String)
  deriving DecidableEq

/-- The worker has the handler. -/
def Sdk.supports : Sdk → String → Bool
  | .go, handler => handler ∈ goHandlers
  | .python handlers, handler => handler ∈ handlers

/-- Where a consumer stands with the message it has fetched. -/
inductive Stage
  /-- The task is to be leased. -/
  | fetched
  /-- The task is leased, and is run. -/
  | executing
  /-- The offset is to be committed. -/
  | handled
  deriving DecidableEq, Repr

/-- A consumer of the group. -/
structure Consumer where
  sdk : Sdk
  workerId : String
  /-- The offset it fetches next. -/
  position : ℕ
  /-- The offset of the message it has fetched, and where it stands with it. -/
  current : Option (ℕ × Stage)
  deriving DecidableEq

/-- What a consumer does with a message, `none` if it dies of a missing field. -/
def Sdk.receive (sdk : Sdk) (m : Message) : Option Stage :=
  if m.eventType ≠ .dispatch then some .handled
  else
    match sdk with
    | .go => some (if sdk.supports (m.value.handler.getD "") then .fetched else .handled)
    | .python _ =>
      match m.value.taskRunId, m.value.handler with
      | some _, some handler => some (if sdk.supports handler then .fetched else .handled)
      | _, _ => none

/-- What a consumer does when a lease fails for no conflict : a Go worker logs the error
and commits, a Python slot dies of it. -/
def Sdk.afterError : Sdk → Option Stage
  | .go => some .handled
  | .python _ => none

/-- What a consumer does with the answer to a lease. A conflict is a lost lease or
`ErrConflict`. -/
def Sdk.afterLease (sdk : Sdk) : Except StoreError (Reply × Db) → Option Stage
  | .ok _ => some .executing
  | .error .leaseLost => some .handled
  | .error .conflict => some .handled
  | .error _ => sdk.afterError

/-! ## The world -/

/-- The control plane, the outbox and broker, and the consumer group. -/
structure World where
  plane : State
  outbox : Outbox
  /-- The committed offset of the group. -/
  committed : ℕ
  consumers : ℕ → Option Consumer

/-- What can happen. -/
inductive WorldStep
  | call (c : Call)
  | publisher (a : OutboxStep)
  | join (id : ℕ) (sdk : Sdk) (workerId : String)
  | assign (id : ℕ)
  | fetch (id : ℕ)
  | lease (id : ℕ) (env : Env) (duration : ℤ) (outcome : Outcome)
  | finish (id : ℕ)
  | commit (id : ℕ) (outcome : Outcome)
  | crash (id : ℕ)

/-- The events a call emits. -/
def emitted (s : State) (c : Call) : List OutboxEvent :=
  (c.after s.db).outboxEvents.drop s.db.outboxEvents.length

namespace World

/-- A call of the control plane, whose events go to the outbox. -/
def transact (w : World) (c : Call) : World :=
  { w with
    plane := controlPlane.next w.plane c
    outbox := { w.outbox with events := w.outbox.events ++ emitted w.plane c } }

/-- A consumer moves on, or is gone. -/
def setConsumer (w : World) (id : ℕ) (c : Option Consumer) : World :=
  { w with consumers := Function.update w.consumers id c }

/-- The task a fetched message dispatches. -/
def taskAt (w : World) (offset : ℕ) : Option ℕ :=
  w.outbox.log[offset]?.bind fun m => m.value.taskRunId

/-- A consumer joins the group. -/
def join (w : World) (id : ℕ) (sdk : Sdk) (workerId : String) : World :=
  match w.consumers id with
  | none => w.setConsumer id (some ⟨sdk, workerId, w.committed, none⟩)
  | some _ => w

/-- A rebalance puts the consumer to the committed offset. -/
def assign (w : World) (id : ℕ) : World :=
  match w.consumers id with
  | some c => w.setConsumer id (some { c with position := w.committed })
  | none => w

/-- The consumer fetches the next message, when it is done with the one before. -/
def fetch (w : World) (id : ℕ) : World :=
  match w.consumers id with
  | some ⟨sdk, workerId, position, none⟩ =>
    match w.outbox.log[position]? with
    | some m => w.setConsumer id
        ((sdk.receive m).map fun st => ⟨sdk, workerId, position + 1, some (position, st)⟩)
    | none => w
  | _ => w

/-- The consumer leases the task of its message. -/
def lease (w : World) (id : ℕ) (env : Env) (duration : ℤ) (outcome : Outcome) : World :=
  match w.consumers id with
  | some ⟨sdk, workerId, position, some (offset, .fetched)⟩ =>
    let goOn := fun st : Option Stage =>
      st.map fun st => (⟨sdk, workerId, position, some (offset, st)⟩ : Consumer)
    match w.taskAt offset, outcome with
    | some taskId, .answered =>
      let c : Call := ⟨env, .leaseTask taskId workerId duration⟩
      (w.transact c).setConsumer id (goOn (sdk.afterLease (c.exec w.plane.db)))
    | some taskId, .unanswered =>
      (w.transact ⟨env, .leaseTask taskId workerId duration⟩).setConsumer id
        (goOn sdk.afterError)
    | _, _ => w.setConsumer id (goOn sdk.afterError)
  | _ => w

/-- The consumer has run its task, or given up. -/
def finish (w : World) (id : ℕ) : World :=
  match w.consumers id with
  | some ⟨sdk, workerId, position, some (offset, .executing)⟩ =>
    w.setConsumer id (some ⟨sdk, workerId, position, some (offset, .handled)⟩)
  | _ => w

/-- The offset a commit writes : past the message for a Go worker, the position for a
Python slot. -/
def commitOffset (sdk : Sdk) (position offset : ℕ) : ℕ :=
  match sdk with
  | .go => offset + 1
  | .python _ => position

/-- The consumer commits. A Go worker logs an error, a Python slot dies of it. -/
def commit (w : World) (id : ℕ) (outcome : Outcome) : World :=
  match w.consumers id with
  | some ⟨sdk, workerId, position, some (offset, .handled)⟩ =>
    let committed := if outcome = .lost then w.committed else commitOffset sdk position offset
    let lives := outcome = .answered ∨ sdk = .go
    setConsumer { w with committed := committed } id
      (if lives then some ⟨sdk, workerId, position, none⟩ else none)
  | _ => w

end World

/-- The whole system as a machine. The events of the outbox come from the calls. -/
def world (svc : Service) : Machine World WorldStep where
  next w
    | .call c => w.transact c
    | .publisher a => { w with outbox := (outbox svc).next w.outbox a }
    | .join id sdk workerId => w.join id sdk workerId
    | .assign id => w.assign id
    | .fetch id => w.fetch id
    | .lease id env duration outcome => w.lease id env duration outcome
    | .finish id => w.finish id
    | .commit id outcome => w.commit id outcome
    | .crash id => w.setConsumer id none
  allowed w
    | .call c => controlPlane.allowed w.plane c
    | .publisher a => (outbox svc).allowed w.outbox a ∧ ∀ new, a ≠ .insert new
    | .lease _ env _ _ => w.plane.clock ≤ env.now ∧ w.plane.db.Fresh env
    | _ => True

/-- No run, no event, no publisher and no consumer. -/
structure World.Init (w : World) : Prop where
  plane : RunMesh.Init w.plane
  outbox : w.outbox.Init
  committed : w.committed = 0
  consumers : ∀ id, w.consumers id = none

/-! ## The two tables agree -/

/-- What a step does to the control plane and the outbox. -/
inductive SystemMove (svc : Service) (w w' : World) : Prop
  | quiet (hplane : w'.plane = w.plane) (houtbox : w'.outbox = w.outbox)
  | call (c : Call) (hc : controlPlane.allowed w.plane c)
      (hplane : w'.plane = controlPlane.next w.plane c)
      (houtbox : w'.outbox = (outbox svc).next w.outbox (.insert (emitted w.plane c)))
  | publisher (a : OutboxStep) (ha : (outbox svc).allowed w.outbox a)
      (hinsert : ∀ new, a ≠ .insert new) (hplane : w'.plane = w.plane)
      (houtbox : w'.outbox = (outbox svc).next w.outbox a)

variable {svc : Service} {w : World} {a : WorldStep}

theorem world_system (ha : (world svc).allowed w a) :
    SystemMove svc w ((world svc).next w a) := by
  cases a with
  | call c => exact .call c ha rfl rfl
  | publisher a => exact .publisher a ha.1 ha.2 rfl rfl
  | crash id => exact .quiet rfl rfl
  | lease id env duration outcome =>
    simp only [world, World.lease]
    split
    · split
      · exact .call ⟨env, _⟩ ⟨ha.1, ha.2⟩ rfl rfl
      · exact .call ⟨env, _⟩ ⟨ha.1, ha.2⟩ rfl rfl
      · exact .quiet rfl rfl
    · exact .quiet rfl rfl
  | fetch id =>
    simp only [world, World.fetch]
    split
    · split <;> exact .quiet rfl rfl
    · exact .quiet rfl rfl
  | _ =>
    simp only [world, World.join, World.assign, World.finish, World.commit]
    split <;> exact .quiet rfl rfl

/-- The control plane is in a reachable state, the outbox is sound, and its rows are those
the control plane inserted. -/
structure World.Coherent (w : World) : Prop where
  reachable : Reachable w.plane
  sound : w.outbox.Sound
  events : w.outbox.events.map OutboxEvent.asInserted = w.plane.db.outboxEvents

theorem emitted_of_ok {s : State} {c : Call} {reply : Reply} {db' : Db} {new : List OutboxEvent}
    (h : c.exec s.db = .ok (reply, db')) (hev : db'.outboxEvents = s.db.outboxEvents ++ new) :
    emitted s c = new := by
  rw [emitted, Call.after_of_ok h, hev, List.drop_left]

theorem emitted_of_error {s : State} {c : Call} {e : StoreError} (h : c.exec s.db = .error e) :
    emitted s c = [] := by
  rw [emitted, Call.after_of_error h, List.drop_length]

/-- The events of a call are appended to the table, and they are new. -/
theorem emitted_spec {s : State} (hk : s.db.Keyed) (c : Call) :
    (c.after s.db).outboxEvents = s.db.outboxEvents ++ emitted s c ∧
      (∃ n, (emitted s c).map OutboxEvent.id =
        (List.range' n (emitted s c).length).map c.env.uuid) ∧
      ∀ e ∈ emitted s c, NewEvent c.env s.db c.op e := by
  cases h : c.exec s.db with
  | error e => simp [emitted_of_error h, Call.after_of_error h]
  | ok r =>
    obtain ⟨reply, db'⟩ := r
    obtain ⟨new, hev, hids, hnew⟩ := exec_events hk h
    rw [emitted_of_ok h hev, Call.after_of_ok h]
    exact ⟨hev, hids, hnew⟩

/-- The outbox is sound, and its rows are those the control plane inserted. -/
structure Mirrors (o : Outbox) (db : Db) : Prop where
  sound : o.Sound
  events : o.events.map OutboxEvent.asInserted = db.outboxEvents

namespace Mirrors

variable {o : Outbox} {s : State}

/-- The ids of the rows are those of the rows as they were inserted. -/
theorem map_id (h : Mirrors o s.db) :
    o.events.map OutboxEvent.id = s.db.outboxEvents.map OutboxEvent.id := by
  rw [← h.events, List.map_map]
  rfl

/-- A call inserts new rows. -/
theorem insert_allowed (h : Mirrors o s.db) (svc : Service) (hk : s.db.Keyed) {c : Call}
    (hf : s.db.Fresh c.env) : (RunMesh.outbox svc).allowed o (.insert (emitted s c)) := by
  obtain ⟨-, ⟨n, hids⟩, hnew⟩ := emitted_spec hk c
  refine ⟨?_, fun e he => (hnew e he).unclaimed⟩
  rw [List.map_append, hids]
  refine h.sound.nodup.append ((List.nodup_range' ..).map hf.injective) ?_
  intro i hi hi'
  obtain ⟨k, -, rfl⟩ := List.mem_map.1 hi'
  rw [h.map_id] at hi
  exact hf.notMem k (by simp [Db.ids, hi])

theorem insert (h : Mirrors o s.db) (svc : Service) (hk : s.db.Keyed) {c : Call}
    (hf : s.db.Fresh c.env) :
    Mirrors ((RunMesh.outbox svc).next o (.insert (emitted s c))) (c.after s.db) := by
  obtain ⟨hev, -, hnew⟩ := emitted_spec hk c
  refine ⟨h.sound.next (h.insert_allowed svc hk hf), ?_⟩
  have hsame : (emitted s c).map OutboxEvent.asInserted = emitted s c :=
    (List.map_congr_left fun e he => (hnew e he).unclaimed).trans (List.map_id _)
  rw [hev, ← h.events]
  simp [RunMesh.outbox, hsame]

/-- A publisher writes to none of the inserted columns. -/
theorem publisher (h : Mirrors o s.db) {a : OutboxStep} (ha : (RunMesh.outbox svc).allowed o a)
    (hinsert : ∀ new, a ≠ .insert new) : Mirrors ((RunMesh.outbox svc).next o a) s.db := by
  refine ⟨h.sound.next ha, ?_⟩
  obtain ⟨f, new, hev, hf, hnew⟩ := (outbox_move svc o a).rows h.sound.nodup
  have hnil : new = [] := hnew.resolve_right (hinsert new)
  rw [hev, hnil, List.append_nil, List.map_map, ← h.events]
  exact List.map_congr_left fun r hr => (hf r hr).asInserted

end Mirrors

theorem World.Coherent.mirrors (h : w.Coherent) : Mirrors w.outbox w.plane.db :=
  ⟨h.sound, h.events⟩

theorem World.Coherent.move (h : w.Coherent) {w' : World} (m : SystemMove svc w w') :
    w'.Coherent := by
  have hk := h.reachable.wellFormed.toKeyed
  cases m with
  | quiet hplane houtbox => exact ⟨hplane ▸ h.reachable, houtbox ▸ h.sound, by
      rw [hplane, houtbox, h.events]⟩
  | call c hc hplane houtbox =>
    have hm := h.mirrors.insert svc hk hc.2
    rw [← houtbox] at hm
    exact ⟨hplane ▸ h.reachable.next hc, hm.sound, by rw [hm.events, hplane, controlPlane_next_db]⟩
  | publisher a ha hinsert hplane houtbox =>
    have hm := h.mirrors.publisher ha hinsert
    rw [← houtbox] at hm
    exact ⟨hplane ▸ h.reachable, hm.sound, by rw [hm.events, hplane]⟩

theorem World.Init.coherent (h : w.Init) : w.Coherent :=
  ⟨⟨w.plane, [], h.plane, trivial, rfl⟩, h.outbox.sound, by
    rw [h.outbox.events, h.plane.outboxEvents, List.map_nil]⟩

/-- The two tables agree after every history. -/
theorem World.Init.coherent_run (h : w.Init) {as : List WorldStep}
    (hv : (world svc).Valid w as) : ((world svc).run w as).Coherent :=
  (world svc).invariant (fun _ _ hw ha => hw.move (world_system ha)) h.coherent hv

end RunMesh
