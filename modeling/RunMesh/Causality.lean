import RunMesh.OutboxOrder
import RunMesh.Readiness

/-!
# Causal order of publication

A transaction takes its time when it begins and may wait for locks before it commits, so the
transactions of a run commit in another order than that of their times. `overlap` is the
control plane with its publishers under that : a transaction begins, and its effect comes at
its commit, with the time of its beginning.

A `task.ready` is inserted by the completion of the last upstream of its task, so the
`task.succeeded` of every upstream is in the table by then. But the claim goes by
`(created_at,id)`, and nothing puts those in the order of the commits : the events of one
completion share its time and have random ids, and an upstream may have completed in a
transaction that began later. `CompletesInOrder` is what a completion needs of its time and
UUIDs, and with it the published order is causal.
-/

namespace RunMesh

open Fallible

/-! ## Overlapping transactions -/

/-- The database, the outbox, and the times of the transactions that have begun. -/
structure Overlap where
  db : Db
  outbox : Outbox
  begun : ℕ → Option ℤ

/-- What can happen. A call that fails rolls back. -/
inductive OverlapStep
  | begin (tx : ℕ)
  | commit (tx : ℕ) (c : Call)
  | publisher (a : OutboxStep)

namespace Overlap

/-- The state of the control plane. -/
def plane (o : Overlap) : State :=
  ⟨o.db, o.outbox.clock⟩

/-- `BEGIN` fixes `now()`. -/
def begin (o : Overlap) (tx : ℕ) : Overlap :=
  { o with begun := Function.update o.begun tx (some o.outbox.clock) }

/-- The transaction commits. -/
def commit (o : Overlap) (tx : ℕ) (c : Call) : Overlap where
  db := c.after o.db
  outbox := { o.outbox with events := o.outbox.events ++ emitted o.plane c }
  begun := Function.update o.begun tx none

end Overlap

/-- The control plane and its publishers, with transactions that overlap. -/
def overlap (svc : Service) : Machine Overlap OverlapStep where
  next o
    | .begin tx => o.begin tx
    | .commit tx c => o.commit tx c
    | .publisher a => { o with outbox := (outbox svc).next o.outbox a }
  allowed o
    | .begin tx => o.begun tx = none
    | .commit tx c => o.begun tx = some c.env.now ∧ o.db.Fresh c.env
    | .publisher a => (outbox svc).allowed o.outbox a ∧ ∀ new, a ≠ .insert new

/-- No run, no event, no publisher and no transaction. -/
structure Overlap.Init (o : Overlap) : Prop where
  plane : RunMesh.Init o.plane
  outbox : o.outbox.Init
  begun : ∀ tx, o.begun tx = none

/-- The event is of this type and about this task. -/
def OutboxEvent.Announces (eventType : EventType) (taskId : ℕ) (e : OutboxEvent) : Prop :=
  e.eventType = eventType ∧ e.payload.taskRunId = some taskId

instance (eventType : EventType) (taskId : ℕ) :
    DecidablePred (OutboxEvent.Announces eventType taskId) := fun _ =>
  inferInstanceAs (Decidable (_ ∧ _))

/-- The message is of this type and about this task. -/
def Message.Announces (eventType : EventType) (taskId : ℕ) (m : Message) : Prop :=
  m.eventType = eventType ∧ m.value.taskRunId = some taskId

instance (eventType : EventType) (taskId : ℕ) :
    DecidablePred (Message.Announces eventType taskId) := fun _ =>
  inferInstanceAs (Decidable (_ ∧ _))

/-- Each `task.ready` was sent, and taken by the broker, after the `task.succeeded` of every
upstream of its task. -/
def Overlap.Causal (o : Overlap) : Prop :=
  ∀ t ∈ o.db.taskRuns, ∀ u ∈ o.db.upstream o.db.taskRuns t,
    FirstBefore (Message.Announces .succeeded u.id) (Message.Announces .ready t.id)
        o.outbox.log ∧
      FirstBefore (OutboxEvent.Announces .succeeded u.id) (OutboxEvent.Announces .ready t.id)
        o.outbox.sent

/-- What a completion needs of its time and UUIDs. The UUID drawn for its `task.succeeded` is
less than those drawn for the `task.ready` it emits; and of the other upstreams of a task it
wakes, the `task.succeeded` was taken by the broker, or has an earlier time, or the same time
and a lesser UUID. -/
def CompletesInOrder (o : Overlap) (c : Call) : Prop :=
  ∀ id w output uri logs, c.op = .completeTask id w output uri logs →
    ∀ t r, Holds c.env o.db w t r → t.id = id → t.status = .running → r.status = .running →
      let children := o.db.taskRuns.filter fun s => Wakes o.db t s
      ∀ child k, (child, k) ∈ children.zipIdx →
        c.env.uuid children.length < c.env.uuid k ∧
        ∀ u ∈ o.db.upstream o.db.taskRuns child, u.id ≠ t.id →
          ∀ e ∈ o.db.outboxEvents, e.Announces .succeeded u.id →
            e.message ∈ o.outbox.log ∨ e.createdAt < c.env.now ∨
              e.createdAt = c.env.now ∧ e.id < c.env.uuid k

/-- The completions of a history draw in order. -/
def OverlapStep.InOrder (o : Overlap) : OverlapStep → Prop
  | .commit _ c => CompletesInOrder o c
  | _ => True

/-! ## The events of a completion -/

variable {env : Env} {op : Op} {db db' : Db} {svc : Service} {o : Overlap}

/-- Only a completion emits `task.ready`. -/
theorem eventType_ne_ready (hk : db.Keyed) {reply : Reply} (h : op.exec env db = .ok (reply, db'))
    (hop : ∀ id w output uri logs, op ≠ .completeTask id w output uri logs)
    {new : List OutboxEvent} (hev : db'.outboxEvents = db.outboxEvents ++ new) :
    ∀ e ∈ new, e.eventType ≠ .ready := by
  obtain ⟨new', hev', hemits⟩ := (exec_grows hk h).events
  obtain rfl : new = new' := List.append_cancel_left (hev.symm.trans hev')
  intro e he hready
  have hmem := hemits e he
  rw [hready] at hmem
  cases op with
  | completeTask => exact hop _ _ _ _ _ rfl
  | _ => simp [Op.emits] at hmem

/-- A task keeps its id and its dependencies. -/
theorem exec_dependsOn (hk : db.Keyed) (hf : db.Fresh env) {reply : Reply}
    (h : op.exec env db = .ok (reply, db')) {t : TaskRun} (ht : t ∈ db.taskRuns) :
    (∃ t' ∈ db'.taskRuns, t'.id = t.id) ∧ ∀ u, db'.DependsOn u t.id ↔ db.DependsOn u t.id := by
  rcases exec_moves hk h with hm | ⟨run, dag, hc⟩
  · obtain ⟨t', ht', hmove⟩ := hm.mem_task ht
    exact ⟨⟨t', ht', hmove.id⟩, fun u => by rw [Db.DependsOn, Db.DependsOn, hm.dependencies]⟩
  · exact ⟨⟨t, hc.task_mem ht, rfl⟩, fun u => hc.dependsOn_old hf ht u⟩

/-! ## One event ahead of another -/

/-- The broker has `e`, or it comes first in the claim order of its ordering key; and `e'` is
claimed, sent and taken only after it. -/
structure Ahead (s : Outbox) (e e' : OutboxEvent) : Prop where
  first : e.message ∈ s.log ∨ e.orderingKey = e'.orderingKey ∧ e.before e'
  behind : Behind s e e'

theorem Ahead.move {s s' : Outbox} {a : OutboxStep} {e e' e₁ : OutboxEvent} (h : Ahead s e e')
    (hs : s.Sound) (m : OutboxMove svc s a s') (hmem : ∃ r ∈ s.events, r.asInserted = e.asInserted)
    (he' : e' ∈ s.events) (hmove : RowMove svc s a e' e₁) : Ahead s' e e₁ := by
  have hsame := hmove.asInserted
  rcases h.first with hlog | ⟨hkey, hbefore⟩
  · have hlog' := m.mono.2.2.subset hlog
    exact ⟨Or.inl hlog', h.behind.move_of_claimed hs m he' hmove fun _ => hlog'⟩
  · refine ⟨Or.inr ⟨?_, ?_⟩, h.behind.move hs m hmem he' hkey hbefore hmove⟩
    · rw [hkey, OutboxEvent.orderingKey_of_asInserted hsame]
    · exact (OutboxEvent.before_of_asInserted rfl hsame).2 hbefore

/-- A succeeded task has its event, and every `task.ready` has those of the upstreams of its
task ahead of it. -/
structure Overlap.Ordered (o : Overlap) : Prop where
  wellFormed : o.db.WellFormed
  mirrors : Mirrors o.outbox o.db
  succeeded : ∀ u ∈ o.db.taskRuns, u.status = .succeeded → ∃ e ∈ o.db.outboxEvents,
    e.Announces .succeeded u.id ∧ e.orderingKey = u.workflowRunId
  ready : ∀ e' ∈ o.outbox.events, e'.eventType = .ready → ∃ t ∈ o.db.taskRuns,
    e'.payload.taskRunId = some t.id ∧ ∀ u, o.db.DependsOn u t.id →
      ∃ e ∈ o.db.outboxEvents, e.Announces .succeeded u ∧ Ahead o.outbox e e'

namespace Overlap.Ordered

/-- The row of an inserted event. -/
theorem exists_row (h : o.Ordered) {e : OutboxEvent} (he : e ∈ o.db.outboxEvents) :
    ∃ r ∈ o.outbox.events, r.asInserted = e.asInserted := by
  rw [← h.mirrors.events] at he
  obtain ⟨r, hr, rfl⟩ := List.mem_map.1 he
  exact ⟨r, hr, rfl⟩

/-- A `task.ready` that was in the table, after a step of the outbox. -/
theorem ready_move (h : o.Ordered) {a : OutboxStep} {e' e₁ : OutboxEvent}
    (he' : e' ∈ o.outbox.events) (hmove : RowMove svc o.outbox a e' e₁)
    (hready : e₁.eventType = .ready) : ∃ t ∈ o.db.taskRuns,
      e₁.payload.taskRunId = some t.id ∧ ∀ u, o.db.DependsOn u t.id →
        ∃ e ∈ o.db.outboxEvents, e.Announces .succeeded u ∧
          Ahead ((RunMesh.outbox svc).next o.outbox a) e e₁ := by
  have hmsg := OutboxEvent.message_of_asInserted hmove.asInserted
  have htype : e₁.eventType = e'.eventType := congrArg Message.eventType hmsg
  have hpayload : e₁.payload = e'.payload := congrArg Message.value hmsg
  obtain ⟨t, ht, hid, hdeps⟩ := h.ready e' he' (htype ▸ hready)
  refine ⟨t, ht, hpayload ▸ hid, fun u hu => ?_⟩
  obtain ⟨e, he, hann, hahead⟩ := hdeps u hu
  exact ⟨e, he, hann, hahead.move h.mirrors.sound (outbox_move svc o.outbox a) (h.exists_row he)
    he' hmove⟩

theorem publisher (h : o.Ordered) {a : OutboxStep} (ha : (RunMesh.outbox svc).allowed o.outbox a)
    (hinsert : ∀ new, a ≠ .insert new) :
    Ordered { o with outbox := (RunMesh.outbox svc).next o.outbox a } where
  wellFormed := h.wellFormed
  mirrors := h.mirrors.publisher (s := o.plane) ha hinsert
  succeeded := h.succeeded
  ready e₁ he₁ hready := by
    rcases ((outbox_move svc o.outbox a).rows h.mirrors.sound.nodup).of_mem_row he₁ with
      ⟨e', he', hmove⟩ | ⟨new, rfl, -⟩
    · exact h.ready_move he' hmove hready
    · exact absurd rfl (hinsert new)

/-- A task that succeeds has its event. -/
theorem exec_succeeded (h : o.Ordered) {c : Call} {reply : Reply}
    (hok : c.exec o.db = .ok (reply, db')) : ∀ u ∈ db'.taskRuns, u.status = .succeeded →
      ∃ e ∈ db'.outboxEvents, e.Announces .succeeded u.id ∧ e.orderingKey = u.workflowRunId := by
  have hk := h.wellFormed.toKeyed
  obtain ⟨new, hev, -, -⟩ := exec_events hk hok
  have hold : ∀ u ∈ o.db.taskRuns, u.status = .succeeded → ∃ e ∈ db'.outboxEvents,
      e.Announces .succeeded u.id ∧ e.orderingKey = u.workflowRunId := by
    intro u hu hst
    obtain ⟨e, he, hann⟩ := h.succeeded u hu hst
    exact ⟨e, hev ▸ List.mem_append_left _ he, hann⟩
  intro u' hu' hst'
  rcases exec_moves hk hok with hm | ⟨run, dag, hc⟩
  · obtain ⟨u, hu, hmove⟩ := hm.of_mem_task hu'
    rcases hmove.of_succeeded hst' with hst | ⟨w, out, uri, logs, r, out', hop, -, -, -, -⟩
    · rw [hmove.eq_of_succeeded hst]
      exact hold u hu hst
    · rw [Call.exec, hop] at hok
      simp only [Op.exec, map_eq_ok, Prod.mk.injEq] at hok
      obtain ⟨⟨t₁, db₁⟩, hdone, -, rfl⟩ := hok
      obtain ⟨t, q, hheld, hid, -, -, out₁, rfl, hdb⟩ := completeTask_ok hk hdone
      obtain rfl := Table.eq_of_key hk.tasks hheld.mem hu hid
      rw [hmove.id, hmove.workflowRunId, hdb]
      exact ⟨_, List.mem_append_right _ (List.mem_append_right _ (List.mem_singleton_self _)),
        ⟨rfl, rfl⟩, rfl⟩
  · rw [hc.tasks, List.mem_append, List.mem_map] at hu'
    rcases hu' with hu | ⟨entry, -, rfl⟩
    · exact hold u' hu hst'
    · rcases newTaskRun_status c.env run dag entry with hst | hst <;> simp [hst] at hst'

/-- The `task.succeeded` of an upstream, when a completion in order emits a `task.ready`. -/
theorem exists_first (h : o.Ordered) {c : Call} (hin : CompletesInOrder o c) {id : ℕ}
    {w out uri : String} {logs : List String} (hop : c.op = .completeTask id w out uri logs)
    {t₁ : TaskRun} (hok : completeTask c.env id w out uri logs o.db = .ok (t₁, db'))
    {e₁ : OutboxEvent} (he₁ : e₁ ∈ emitted o.plane c) (hready : e₁.eventType = .ready) :
    ∃ child ∈ o.db.taskRuns, e₁.payload.taskRunId = some child.id ∧
      ∀ u, o.db.DependsOn u child.id → ∃ e ∈ db'.outboxEvents, e.Announces .succeeded u ∧
        (e.message ∈ o.outbox.log ∨ e.orderingKey = e₁.orderingKey ∧ e.before e₁) := by
  have hw := h.wellFormed
  have hexec : c.exec o.plane.db = .ok (.task t₁, db') := by
    rw [Call.exec, hop, Op.exec]
    exact map_eq_ok.2 ⟨_, hok, rfl⟩
  obtain ⟨t, r, hheld, rfl, hst, hrun, out', rfl, hdb⟩ := completeTask_ok hw.toKeyed hok
  have hev := congrArg Db.outboxEvents hdb
  rw [emitted_of_ok hexec hev, List.mem_append] at he₁
  rcases he₁ with he₁ | he₁
  · obtain ⟨⟨child, k⟩, hchild, rfl⟩ := List.mem_map.1 he₁
    obtain ⟨hmem, hwake⟩ := List.mem_filter.1 (List.fst_mem_of_mem_zipIdx hchild)
    have hwake : Wakes o.db t child := of_decide_eq_true hwake
    obtain ⟨hself, hothers⟩ := hin _ _ _ _ _ hop t r hheld rfl hst hrun child k hchild
    refine ⟨child, hmem, rfl, fun u hdep => ?_⟩
    by_cases hut : u = t.id
    · -- the completed task itself : same time, lesser UUID
      subst hut
      rw [hev]
      exact ⟨_, List.mem_append_right _ (List.mem_append_right _ (List.mem_singleton_self _)),
        ⟨rfl, rfl⟩, Or.inr ⟨rfl, Or.inr ⟨rfl, hself⟩⟩⟩
    · obtain ⟨d, hd, hdt, rfl⟩ := hdep
      obtain ⟨-, u₁, hu₁, hid₁, -⟩ := hw.edge d hd
      have hup : u₁ ∈ o.db.upstream o.db.taskRuns child :=
        Db.mem_upstream.2 ⟨hu₁, d, hd, hdt, hid₁.symm⟩
      rw [← hid₁] at hut ⊢
      obtain ⟨e, he, hann, hkey⟩ := h.succeeded u₁ hu₁ ((hwake.2.2.2 u₁ hup).resolve_left hut)
      refine ⟨e, hev ▸ List.mem_append_left _ he, hann, ?_⟩
      refine (hothers u₁ hup hut e he hann).imp_right fun hbefore => ⟨?_, hbefore⟩
      rw [hkey, hw.upstream_run hmem hup, hwake.1]
      rfl
  · rw [List.mem_singleton.1 he₁] at hready
    cases hready

/-- A `task.ready` after the commit of a call that succeeded. -/
theorem ready_commit (h : o.Ordered) {c : Call} (hf : o.db.Fresh c.env)
    (hin : CompletesInOrder o c) {reply : Reply} (hexec : c.exec o.db = .ok (reply, db')) (tx : ℕ)
    {e₁ : OutboxEvent} (he₁ : e₁ ∈ (o.commit tx c).outbox.events)
    (hready : e₁.eventType = .ready) : ∃ t ∈ db'.taskRuns,
      e₁.payload.taskRunId = some t.id ∧ ∀ u, db'.DependsOn u t.id →
        ∃ e ∈ db'.outboxEvents, e.Announces .succeeded u ∧
          Ahead (o.commit tx c).outbox e e₁ := by
  have hk := h.wellFormed.toKeyed
  have hm := h.mirrors.insert (s := o.plane) defaultService hk hf
  obtain ⟨hev, -, hnew⟩ := emitted_spec (s := o.plane) hk c
  rw [show c.after o.plane.db = db' from Call.after_of_ok hexec] at hev
  -- what is known of a task and its events before the commit is known after it
  have hlift : ∀ t ∈ o.db.taskRuns, e₁.payload.taskRunId = some t.id →
      (∀ u, o.db.DependsOn u t.id → ∃ e ∈ db'.outboxEvents, e.Announces .succeeded u ∧
        Ahead (o.commit tx c).outbox e e₁) →
      ∃ t ∈ db'.taskRuns, e₁.payload.taskRunId = some t.id ∧ ∀ u, db'.DependsOn u t.id →
        ∃ e ∈ db'.outboxEvents, e.Announces .succeeded u ∧
          Ahead (o.commit tx c).outbox e e₁ := by
    intro t ht hid hdeps
    obtain ⟨⟨t', ht', htid⟩, hiff⟩ := exec_dependsOn hk hf hexec ht
    exact ⟨t', ht', htid ▸ hid, fun u hu => hdeps u ((hiff u).1 (htid ▸ hu))⟩
  rcases ((outbox_move defaultService o.outbox (.insert (emitted o.plane c))).rows
    h.mirrors.sound.nodup).of_mem_row he₁ with ⟨e', he', hmove⟩ | ⟨new, heq, he₁new⟩
  · obtain ⟨t, ht, hid, hdeps⟩ := h.ready_move he' hmove hready
    refine hlift t ht hid fun u hu => ?_
    obtain ⟨e, he, hahead⟩ := hdeps u hu
    exact ⟨e, hev ▸ List.mem_append_left _ he, hahead⟩
  · cases heq
    obtain ⟨id, w, out, uri, logs, hop⟩ :
        ∃ id w out uri logs, c.op = .completeTask id w out uri logs := by
      by_contra hop
      refine eventType_ne_ready hk hexec ?_ hev e₁ he₁new hready
      exact fun id w out uri logs heq => hop ⟨id, w, out, uri, logs, heq⟩
    have hok := hexec
    rw [Call.exec, hop] at hok
    simp only [Op.exec, map_eq_ok, Prod.mk.injEq] at hok
    obtain ⟨⟨t₁, db₁⟩, hdone, -, rfl⟩ := hok
    obtain ⟨t, ht, hid, hdeps⟩ := h.exists_first hin hop hdone he₁new hready
    have hzero : e₁.publishAttempts = 0 :=
      (congrArg OutboxEvent.publishAttempts (hnew e₁ he₁new).unclaimed).symm
    refine hlift t ht hid fun u hu => ?_
    obtain ⟨e, he, hann, hfirst⟩ := hdeps u hu
    refine ⟨e, he, hann, hfirst, hm.sound.behind (fun r hr hrid => ?_) hzero⟩
    rw [Table.eq_of_key hm.sound.nodup hr he₁ hrid, hzero]

/-- A commit, of completions in order. -/
theorem commit (h : o.Ordered) {c : Call} (hf : o.db.Fresh c.env) (hin : CompletesInOrder o c)
    (tx : ℕ) : (o.commit tx c).Ordered := by
  have hk := h.wellFormed.toKeyed
  cases hexec : c.exec o.db with
  | error err =>
    have hsame : o.commit tx c = { o with begun := Function.update o.begun tx none } := by
      simp [Overlap.commit, Call.after_of_error hexec,
        emitted_of_error (s := o.plane) (c := c) hexec]
    rw [hsame]
    exact ⟨h.wellFormed, h.mirrors, h.succeeded, h.ready⟩
  | ok r =>
    obtain ⟨reply, db'⟩ := r
    have hdb : (o.commit tx c).db = db' := Call.after_of_ok hexec
    constructor
    · rw [hdb]
      exact exec_wellFormed h.wellFormed hf hexec
    · exact h.mirrors.insert (s := o.plane) defaultService hk hf
    · rw [hdb]
      exact h.exec_succeeded hexec
    · rw [hdb]
      exact fun e₁ he₁ hready => h.ready_commit hf hin hexec tx he₁ hready

/-- A message with the id of an inserted event is its message. -/
theorem message_eq (h : o.Ordered) {e x : OutboxEvent} (he : e ∈ o.db.outboxEvents)
    (hx : o.outbox.Claimed x) (hid : x.id = e.id) : x.message = e.message := by
  obtain ⟨r, hr, hre⟩ := h.exists_row he
  obtain ⟨r', hr', hrx, -⟩ := hx
  have hsame : r' = r := Table.eq_of_key h.mirrors.sound.nodup hr' hr
    (by rw [OutboxEvent.id_of_asInserted hrx, hid, OutboxEvent.id_of_asInserted hre])
  rw [← OutboxEvent.message_of_asInserted hrx, hsame, OutboxEvent.message_of_asInserted hre]

/-- What is sent of a `task.ready` is of a row that has the upstreams ahead. -/
theorem exists_ahead (h : o.Ordered) {t u : TaskRun}
    (hu : u ∈ o.db.upstream o.db.taskRuns t) {x : OutboxEvent} (hx : o.outbox.Claimed x)
    (hann : x.Announces .ready t.id) : ∃ e ∈ o.db.outboxEvents, e.Announces .succeeded u.id ∧
      ∃ r, r.id = x.id ∧ Behind o.outbox e r := by
  obtain ⟨r, hr, hrx, -⟩ := hx
  have hmsg := OutboxEvent.message_of_asInserted hrx
  have hpayload : r.payload = x.payload := congrArg Message.value hmsg
  obtain ⟨t₁, -, hid, hdeps⟩ := h.ready r hr ((congrArg Message.eventType hmsg).trans hann.1)
  rw [hpayload, hann.2, Option.some.injEq] at hid
  obtain ⟨-, d, hd, hdt, hdu⟩ := Db.mem_upstream.1 hu
  obtain ⟨e, he, hann', hahead⟩ := hdeps u.id ⟨d, hd, hdt.trans hid, hdu⟩
  exact ⟨e, he, hann', r, congrArg Message.eventId hmsg, hahead.behind⟩

theorem causal (h : o.Ordered) : o.Causal := by
  intro t ht u hu
  have hs := h.mirrors.sound
  constructor
  · rintro l₁ m l₂ hl hm
    obtain ⟨x, hx, rfl⟩ := hs.log m (by rw [hl]; simp)
    obtain ⟨e, he, hann, r, hrid, hb⟩ := h.exists_ahead hu (hs.sent x hx) hm
    obtain ⟨y, hy, hyid⟩ := hb.log l₁ _ l₂ hl hrid.symm
    obtain ⟨z, hz, rfl⟩ := hs.log y (by rw [hl]; exact List.mem_append_left _ hy)
    refine ⟨_, hy, ?_⟩
    rw [h.message_eq he (hs.sent z hz) hyid]
    exact hann
  · rintro l₁ x l₂ hl hx
    have hsent : ∀ y ∈ l₁ ++ x :: l₂, o.outbox.Claimed y := fun y hy => hs.sent y (hl ▸ hy)
    obtain ⟨e, he, hann, r, hrid, hb⟩ := h.exists_ahead hu (hsent x (by simp)) hx
    obtain ⟨y, hy, hyid⟩ := hb.sent l₁ _ l₂ hl hrid.symm
    have hmsg := h.message_eq he (hsent y (List.mem_append_left _ hy)) hyid
    exact ⟨y, hy, (congrArg Message.eventType hmsg).trans hann.1,
      (congrArg (fun m => m.value.taskRunId) hmsg).trans hann.2⟩

end Overlap.Ordered

theorem Overlap.Init.ordered (h : o.Init) : o.Ordered where
  wellFormed := h.plane.wellFormed
  mirrors := ⟨h.outbox.sound, by rw [h.outbox.events]; exact h.plane.outboxEvents.symm⟩
  succeeded := by simp [show o.db.taskRuns = [] from h.plane.taskRuns]
  ready := by simp [h.outbox.events]

/-- Causal publication order : in every history of overlapping transactions whose completions
draw in order, and whatever the publishers do, a `task.ready` is first published only after
the `task.succeeded` of every upstream of its task. -/
theorem causal_publication_order (svc : Service) {o₀ : Overlap} (h0 : o₀.Init)
    {as : List OverlapStep} (hv : (overlap svc).Valid o₀ as)
    (hin : (overlap svc).Along OverlapStep.InOrder o₀ as) :
    ∀ bs, bs <+: as → ((overlap svc).run o₀ bs).Causal := by
  intro bs hbs
  have hstep : ∀ (o : Overlap) (a : OverlapStep), o.Ordered →
      ((overlap svc).allowed o a ∧ a.InOrder o) → ((overlap svc).next o a).Ordered := by
    rintro o a ho ⟨ha, hin⟩
    cases a with
    | begin tx => exact ⟨ho.wellFormed, ho.mirrors, ho.succeeded, ho.ready⟩
    | commit tx c => exact ho.commit ha.2 hin tx
    | publisher a => exact ho.publisher ha.1 ha.2
  have halong := ((overlap svc).along_and _ (fun o a => a.InOrder o) as o₀).2 ⟨hv, hin⟩
  exact ((overlap svc).invariant_along hstep h0.ordered
    (Machine.along_of_prefix (overlap svc) hbs halong)).causal

/-! ## One completion, with its UUIDs in either order -/

/-- Two definitions, and an empty outbox. -/
def twoOverlap : Overlap :=
  ⟨twoDefinitions.db, emptyOutbox, fun _ => none⟩

theorem init_twoOverlap : twoOverlap.Init :=
  ⟨⟨rfl, rfl, rfl, rfl, rfl, init_twoDefinitions.accepted⟩, init_emptyOutbox, fun _ => rfl⟩

/-- The first task of a chain is running. -/
def chainRunning : List OverlapStep :=
  [.begin 1, .commit 1 ⟨Env.at 0 10, .createRun 1 none 1 "k" "" none⟩,
    .begin 1, .commit 1 ⟨Env.at 0 20, .dispatchReady (.ofList [11])⟩,
    .begin 1, .commit 1 ⟨Env.at 0 30, .leaseTask 11 "w" 100⟩,
    .begin 1, .commit 1 ⟨Env.at 0 40, .startTask 11 "w"⟩]

/-- The state it is running in. -/
def chainOverlap : Overlap :=
  (overlap defaultService).run twoOverlap chainRunning

/-- The completion of the first task, which draws the UUIDs `ready` and `succeeded`. -/
def completeFirst (ready succeeded : ℕ) : Call where
  env := ⟨0, 0, fun n => if n = 0 then ready else if n = 1 then succeeded else 50 + n, ""⟩
  op := .completeTask 11 "w" "" "" []

/-- The first task completes, and two events are published, the lesser UUID first. -/
def chainPublished (ready succeeded first second : ℕ) : List OverlapStep :=
  chainRunning ++ [.begin 1, .commit 1 (completeFirst ready succeeded),
    .publisher (.claim 8 []), .publisher (.publish 8 first), .publisher (.deliver 8),
    .publisher (.publishOk 8), .publisher (.acknowledge 8 .answered), .publisher (.claim 9 []),
    .publisher (.publish 9 second), .publisher (.deliver 9)]

/-- The completion may draw any two small UUIDs. -/
theorem fresh_completeFirst {ready succeeded : ℕ} (hr : 2 < ready ∧ ready < 10)
    (hs : 2 < succeeded ∧ succeeded < 10) (hne : ready ≠ succeeded) :
    chainOverlap.db.Fresh (completeFirst ready succeeded).env := by
  have hids : ∀ i ∈ chainOverlap.db.ids, i ≤ 2 ∨ 10 ≤ i ∧ i < 50 := by decide +kernel
  refine ⟨fun n hn => ?_, fun m n hmn => ?_⟩
  · have := hids _ hn
    simp only [completeFirst] at this
    split_ifs at this <;> omega
  · simp only [completeFirst] at hmn
    split_ifs at hmn <;> omega

theorem valid_chainRunning : (overlap defaultService).Valid twoOverlap chainRunning :=
  ⟨rfl, ⟨rfl, Db.fresh_at (by decide) 0⟩, rfl, ⟨rfl, Db.fresh_at (by decide) 0⟩,
    rfl, ⟨rfl, Db.fresh_at (by decide +kernel) 0⟩, rfl, ⟨rfl, Db.fresh_at (by decide +kernel) 0⟩,
    trivial⟩

theorem completesInOrder_completeFirst :
    CompletesInOrder (chainOverlap.begin 1) (completeFirst 4 3) := by
  rintro id w out uri logs ⟨⟩ t r hheld hid - - children child k hchild
  -- it wakes the second task, which has no other upstream
  have hwakes : ∀ t ∈ chainOverlap.db.taskRuns, t.id = 11 →
      ((chainOverlap.db.taskRuns.filter fun s => Wakes chainOverlap.db t s).zipIdx.map
        Prod.snd) = [0] ∧
      ∀ s ∈ chainOverlap.db.taskRuns, Wakes chainOverlap.db t s →
        ∀ u ∈ chainOverlap.db.upstream chainOverlap.db.taskRuns s, u.id = t.id := by
    decide +kernel
  have hone : children.zipIdx.map Prod.snd = [0] := (hwakes t hheld.mem hid).1
  have hk : k = 0 := by
    have := List.mem_map_of_mem (f := Prod.snd) hchild
    rwa [hone, List.mem_singleton] at this
  have hlen : children.length = 1 := by
    have := congrArg List.length hone
    rwa [List.length_map, List.length_zipIdx] at this
  obtain ⟨hmem, hwake⟩ := List.mem_filter.1 (List.fst_mem_of_mem_zipIdx hchild)
  refine ⟨by rw [hlen, hk]; decide, fun u hu hne => absurd ?_ hne⟩
  exact (hwakes t hheld.mem hid).2 child hmem (of_decide_eq_true hwake) u hu

/-- With the lesser UUID for `task.succeeded`. -/
theorem causal_publication_order_chain :
    ((overlap defaultService).run twoOverlap (chainPublished 4 3 3 4)).outbox.log.map
        (·.eventType) = [.succeeded, .ready] ∧
      ((overlap defaultService).run twoOverlap (chainPublished 4 3 3 4)).Causal := by
  refine ⟨by decide +kernel, causal_publication_order defaultService init_twoOverlap ?_ ?_ _
    (List.prefix_refl _)⟩
  · refine ((overlap defaultService).along_append _ _ _ _).2 ⟨valid_chainRunning, rfl,
      ⟨rfl, fresh_completeFirst (by decide) (by decide) (by decide)⟩, ?_⟩
    exact ⟨⟨by decide +kernel, nofun⟩, ⟨trivial, nofun⟩, ⟨trivial, nofun⟩, ⟨trivial, nofun⟩,
      ⟨trivial, nofun⟩, ⟨by decide +kernel, nofun⟩, ⟨trivial, nofun⟩, ⟨trivial, nofun⟩, trivial⟩
  · refine ((overlap defaultService).along_append _ _ _ _).2 ⟨⟨trivial, nofun, trivial, nofun,
      trivial, nofun, trivial, nofun, trivial⟩, trivial, ?_, ?_⟩
    · exact completesInOrder_completeFirst
    · exact ⟨trivial, trivial, trivial, trivial, trivial, trivial, trivial, trivial, trivial⟩

/-- With the lesser UUID for `task.ready`, the broker has it before the `task.succeeded`. -/
theorem ready_published_before_succeeded :
    twoOverlap.Init ∧
      (overlap defaultService).Valid twoOverlap (chainPublished 3 4 3 4) ∧
      ((overlap defaultService).run twoOverlap (chainPublished 3 4 3 4)).outbox.log.map
        (·.eventType) = [.ready, .succeeded] ∧
      ¬((overlap defaultService).run twoOverlap (chainPublished 3 4 3 4)).Causal := by
  refine ⟨init_twoOverlap, ?_, by decide +kernel, fun hcausal => ?_⟩
  · refine ((overlap defaultService).along_append _ _ _ _).2 ⟨valid_chainRunning, rfl,
      ⟨rfl, fresh_completeFirst (by decide) (by decide) (by decide)⟩, ?_⟩
    exact ⟨⟨by decide +kernel, nofun⟩, ⟨trivial, nofun⟩, ⟨trivial, nofun⟩, ⟨trivial, nofun⟩,
      ⟨trivial, nofun⟩, ⟨by decide +kernel, nofun⟩, ⟨trivial, nofun⟩, ⟨trivial, nofun⟩, trivial⟩
  · have hfirst : ∃ t ∈ ((overlap defaultService).run twoOverlap
        (chainPublished 3 4 3 4)).db.taskRuns, ∃ u ∈ ((overlap defaultService).run twoOverlap
        (chainPublished 3 4 3 4)).db.upstream ((overlap defaultService).run twoOverlap
        (chainPublished 3 4 3 4)).db.taskRuns t, ∃ m ∈ ((overlap defaultService).run twoOverlap
        (chainPublished 3 4 3 4)).outbox.log.head?, m.Announces .ready t.id := by
      decide +kernel
    obtain ⟨t, ht, u, hu, m, hm, hann⟩ := hfirst
    obtain ⟨y, hy, -⟩ := (hcausal t ht u hu).1 [] m _ (List.eq_cons_of_mem_head? hm) hann
    cases hy

end RunMesh
