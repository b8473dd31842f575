import RunMesh.Attempts
import RunMesh.OutboxOrder
import RunMesh.Readiness

/-!
# Dispatches are delivered at least once

A task that is `DISPATCHING` leaves that status only when a worker leases it, so its last
dispatch must not get lost : it is unpublished, or its message is one the group has yet to
commit. A message is `Outstanding` while it is the last dispatch of such a task, and no
message becomes outstanding again. So it is enough that a consumer commits past a message
only when it is not outstanding. A lease that the server has run sees to that, whatever
the answer. What does not is a lease request that failed before : a Python slot
dies of it, but a Go worker logs the error and commits the offset. `Served` excludes just
that, and `unserved_dispatch_is_lost` shows what it does.
-/

namespace RunMesh

open Fallible

variable {env : Env} {op : Op} {db db' : Db}

/-! ## The last dispatch of a task -/

/-- The event dispatches the task. -/
def OutboxEvent.dispatches (taskId : ℕ) (e : OutboxEvent) : Bool :=
  e.eventType = .dispatch ∧ e.aggregateId = taskId

/-- The last event that dispatches the task. -/
def Db.lastDispatch (db : Db) (taskId : ℕ) : Option OutboxEvent :=
  (db.outboxEvents.filter (·.dispatches taskId)).getLast?

/-- The event dispatches the task to its handler. -/
structure DispatchOf (t : TaskRun) (e : OutboxEvent) : Prop where
  eventType : e.eventType = .dispatch
  taskRunId : e.payload.taskRunId = some t.id
  handler : e.payload.handler = some t.handler

/-- A task is dispatched by the dispatch phase only. -/
theorem TaskMove.of_dispatching {t t' : TaskRun} (h : TaskMove env db op t t')
    (hst : t'.status = .dispatching) :
    t = t' ∨ ∃ scan r, op = .dispatchReady scan ∧ (t, r) ∈ readyTasks env scan db := by
  cases h with
  | keep => exact Or.inl rfl
  | @dispatch scan _ r h => exact Or.inr ⟨scan, r, rfl, h⟩
  | renew _ hact => simp [(show t.status = .dispatching from hst), TaskStatus.active] at hact
  | @expire _ _ r =>
    rcases expiryStatus_cases (t, r) with h | h | h <;> simp [endLease, h.1] at hst
  | @fail _ f _ r =>
    rcases reportStatus_cases f t r with h | h | h <;> simp [endLease, h.1] at hst
  | rebuild =>
    simp only [RunMesh.rebuild] at hst
    split_ifs at hst
  | _ => simp [RunMesh.lease, RunMesh.succeed, RunMesh.wake, revive] at hst

/-- The dispatch phase appends an event for each task it dispatches. -/
theorem exists_dispatchEvent (hk : db.Keyed) {scan : Scan} {new : List OutboxEvent}
    (hev : (dispatchReady env scan db).outboxEvents = db.outboxEvents ++ new) {t : TaskRun}
    {r : Run} (h : (t, r) ∈ readyTasks env scan db) : ∃ e ∈ new, e.dispatches t.id = true := by
  rw [dispatchReady_eq hk] at hev
  obtain rfl := List.append_cancel_left hev
  rw [← List.zipIdx_map_fst 0 (readyTasks env scan db)] at h
  obtain ⟨⟨⟨t, r⟩, n⟩, hn, hfst⟩ := List.mem_map.1 h
  cases hfst
  exact ⟨_, List.mem_map_of_mem hn, by simp [OutboxEvent.dispatches, dispatchEvent, newEvent]⟩

/-- A dispatched task was dispatched before and has the same last dispatch, or is
dispatched by the call. -/
theorem exec_lastDispatch (hk : db.Keyed) {reply : Reply}
    (h : op.exec env db = .ok (reply, db')) {new : List OutboxEvent}
    (hev : db'.outboxEvents = db.outboxEvents ++ new) {t' : TaskRun} (ht' : t' ∈ db'.taskRuns)
    (hst : t'.status = .dispatching) :
    (t' ∈ db.taskRuns ∧ db'.lastDispatch t'.id = db.lastDispatch t'.id) ∨
      ∃ e ∈ new, db'.lastDispatch t'.id = some e ∧ DispatchOf t' e := by
  have hlast : db'.lastDispatch t'.id = ((db.outboxEvents.filter (·.dispatches t'.id)) ++
      new.filter (·.dispatches t'.id)).getLast? := by
    rw [Db.lastDispatch, hev, List.filter_append]
  rcases List.eq_nil_or_concat (new.filter (·.dispatches t'.id)) with hnil | ⟨es, e, hes⟩
  · -- no dispatch of the task is appended, so it was dispatched before
    refine Or.inl ⟨?_, by rw [hlast, hnil, List.append_nil, Db.lastDispatch]⟩
    rcases exec_moves hk h with hm | ⟨run, dag, hc⟩
    · obtain ⟨t, ht, hmove⟩ := hm.of_mem_task ht'
      rcases hmove.of_dispatching hst with rfl | ⟨scan, r, rfl, hready⟩
      · exact ht
      · simp only [Op.exec, Except.ok.injEq, Prod.mk.injEq] at h
        obtain ⟨-, rfl⟩ := h
        obtain ⟨e, he, hdisp⟩ := exists_dispatchEvent hk hev hready
        rw [← hmove.id] at hdisp
        exact absurd (hnil ▸ List.mem_filter.2 ⟨he, hdisp⟩) List.not_mem_nil
    · rw [hc.tasks, List.mem_append, List.mem_map] at ht'
      rcases ht' with ht' | ⟨entry, -, rfl⟩
      · exact ht'
      · rcases newTaskRun_status env run dag entry with h | h <;> simp [h] at hst
  · have hmem : e ∈ new.filter (·.dispatches t'.id) := by simp [hes]
    obtain ⟨hnew, hdisp⟩ := List.mem_filter.1 hmem
    refine Or.inr ⟨e, hnew, by simp [hlast, hes], ?_⟩
    obtain ⟨new', hev', -, hnewev⟩ := exec_events hk h
    obtain rfl := List.append_cancel_left (hev.symm.trans hev')
    obtain ⟨htype, hid⟩ := of_decide_eq_true hdisp
    obtain ⟨scan, t, r, n, rfl, hready, rfl⟩ := (hnewev e hnew).dispatch htype
    rcases exec_moves hk h with hm | ⟨run, dag, hc⟩
    · obtain ⟨t₀, ht₀, hmove⟩ := hm.of_mem_task ht'
      obtain rfl := Table.eq_of_key hk.tasks ht₀ (mem_readyTasks hready).1
        (hmove.id.symm.trans hid.symm)
      exact ⟨rfl, congrArg some hid, congrArg some hmove.handler.symm⟩
    · obtain ⟨_, _, _, _, _, _, hop⟩ := hc.isCreate
      cases hop

/-- Every dispatched task has a last dispatch, to its handler. -/
theorem Reachable.lastDispatch {s : State} (h : Reachable s) {t : TaskRun}
    (ht : t ∈ s.db.taskRuns) (hst : t.status = .dispatching) :
    ∃ e, s.db.lastDispatch t.id = some e ∧ DispatchOf t e := by
  refine (h.induction (P := fun db => db.WellFormed ∧ ∀ t ∈ db.taskRuns,
    t.status = .dispatching → ∃ e, db.lastDispatch t.id = some e ∧ DispatchOf t e)
    (fun _ h0 => ⟨h0.wellFormed, by simp [h0.taskRuns]⟩) ?_).2 t ht hst
  rintro c db reply db' ⟨hw, hlast⟩ hf hok
  refine ⟨exec_wellFormed hw hf hok, fun t' ht' hst' => ?_⟩
  obtain ⟨new, hev, -, -⟩ := exec_events hw.toKeyed hok
  rcases exec_lastDispatch hw.toKeyed hok hev ht' hst' with ⟨ht, heq⟩ | ⟨e, -, he⟩
  · rw [heq]
    exact hlast t' ht hst'
  · exact ⟨e, he⟩

/-! ## Outstanding messages -/

/-- The message is the last dispatch of a dispatched task with the handler. -/
def Outstanding (handler : String) (db : Db) (m : Message) : Prop :=
  ∃ t ∈ db.taskRuns, t.status = .dispatching ∧ t.handler = handler ∧
    ∃ e, db.lastDispatch t.id = some e ∧ e.message = m

/-- What an outstanding message says. -/
theorem Outstanding.content {handler : String} {s : State} {m : Message} (hs : Reachable s)
    (h : Outstanding handler s.db m) :
    ∃ t ∈ s.db.taskRuns, t.status = .dispatching ∧ m.eventType = .dispatch ∧
      m.value.taskRunId = some t.id ∧ m.value.handler = some handler := by
  obtain ⟨t, ht, hst, rfl, e, he, rfl⟩ := h
  obtain ⟨e', he', hof⟩ := hs.lastDispatch ht hst
  obtain rfl := Option.some.inj (he.symm.trans he')
  exact ⟨t, ht, hst, hof.eventType, hof.taskRunId, hof.handler⟩

variable {svc : Service} {handler : String} {w w' : World}

/-- A message that the broker has is not outstanding anew. -/
theorem Outstanding.of_move (hw : w.Coherent) (m : SystemMove svc w w') {x : Message}
    (hx : x ∈ w.outbox.log) (h : Outstanding handler w'.plane.db x) :
    Outstanding handler w.plane.db x := by
  cases m with
  | quiet hplane _ => rwa [hplane] at h
  | publisher _ _ _ hplane _ => rwa [hplane] at h
  | call c hc hplane _ =>
    rw [hplane, controlPlane_next_db] at h
    obtain ⟨t, ht, hst, hh, e, he, rfl⟩ := h
    have hev := (emitted_spec hw.reachable.wellFormed.toKeyed c).1
    cases hexec : c.exec w.plane.db with
    | error err =>
      rw [Call.after_of_error hexec] at ht he
      exact ⟨t, ht, hst, hh, e, he, rfl⟩
    | ok r =>
      obtain ⟨reply, db'⟩ := r
      rw [Call.after_of_ok hexec] at ht he hev
      rcases exec_lastDispatch hw.reachable.wellFormed.toKeyed hexec hev ht hst with
        ⟨ht, heq⟩ | ⟨e', hnew, he', -⟩
      · exact ⟨t, ht, hst, hh, e, heq ▸ he, rfl⟩
      · -- a new event has a new id, but the broker's messages are of old events
        obtain rfl := Option.some.inj (he.symm.trans he')
        obtain ⟨o, ho, hoe⟩ := hw.sound.log _ hx
        obtain ⟨r, hr, hro, -⟩ := hw.sound.sent o ho
        have hid : r.id = e.id := (OutboxEvent.id_of_asInserted hro).trans
          (congrArg Message.eventId hoe)
        have hnd : ((w.outbox.events ++ emitted w.plane c).map OutboxEvent.id).Nodup :=
          (hw.mirrors.insert_allowed svc hw.reachable.wellFormed.toKeyed hc.2).1
        rw [List.map_append, List.nodup_append] at hnd
        exact absurd hid (hnd.2.2 _ (List.mem_map_of_mem hr) _ (List.mem_map_of_mem hnew))

/-- The broker has the first `k` messages, and none of them is outstanding. -/
def Cleared (handler : String) (w : World) (k : ℕ) : Prop :=
  k ≤ w.outbox.log.length ∧ ∀ m ∈ w.outbox.log.take k, ¬Outstanding handler w.plane.db m

theorem Cleared.zero (handler : String) (w : World) : Cleared handler w 0 :=
  ⟨Nat.zero_le _, by simp⟩

theorem Cleared.succ {k : ℕ} (h : Cleared handler w k) {m : Message}
    (hm : w.outbox.log[k]? = some m) (hout : ¬Outstanding handler w.plane.db m) :
    Cleared handler w (k + 1) := by
  obtain ⟨hlt, rfl⟩ := List.getElem?_eq_some_iff.1 hm
  refine ⟨hlt, fun x hx => ?_⟩
  rw [← List.take_concat_get' _ _ hlt, List.mem_append, List.mem_singleton] at hx
  rcases hx with hx | rfl
  · exact h.2 x hx
  · exact hout

/-- The broker's log only grows. -/
theorem SystemMove.log_prefix (m : SystemMove svc w w') : w.outbox.log <+: w'.outbox.log := by
  cases m with
  | quiet _ houtbox => rw [houtbox]
  | call c _ _ houtbox => rw [houtbox]; exact List.prefix_refl _
  | publisher a _ _ _ houtbox =>
    rw [houtbox]
    exact (outbox_move svc w.outbox a).mono.2.2

/-- Cleared messages stay cleared. -/
theorem Cleared.move {k : ℕ} (h : Cleared handler w k) (hw : w.Coherent)
    (m : SystemMove svc w w') : Cleared handler w' k := by
  obtain ⟨l, hl⟩ := m.log_prefix
  have htake : w'.outbox.log.take k = w.outbox.log.take k := by
    rw [← hl, List.take_append_of_le_length h.1]
  refine ⟨h.1.trans m.log_prefix.length_le, fun x hx hout => ?_⟩
  rw [htake] at hx
  exact h.2 x hx (hout.of_move hw m (List.mem_of_mem_take hx))

/-! ## Consumers commit cleared messages -/

/-- A consumer that has the handler and has cleared what it is past : the messages before
the one it has fetched, and that one too once it has dealt with it. -/
structure Consumer.Careful (handler : String) (w : World) (c : Consumer) : Prop where
  supports : c.sdk.supports handler = true
  idle : c.current = none → Cleared handler w c.position
  working : ∀ offset stage, c.current = some (offset, stage) → Cleared handler w offset ∧
    offset < w.outbox.log.length ∧ (stage ≠ .fetched → Cleared handler w (offset + 1)) ∧
    (c.position = offset + 1 ∨ Cleared handler w c.position)

/-- The group commits cleared messages only. -/
structure World.Careful (handler : String) (w : World) : Prop where
  coherent : w.Coherent
  committed : Cleared handler w w.committed
  consumers : ∀ id c, w.consumers id = some c → c.Careful handler w

theorem World.Init.careful (h : w.Init) (handler : String) : w.Careful handler where
  coherent := h.coherent
  committed := h.committed ▸ Cleared.zero handler w
  consumers := by simp [h.consumers]

theorem Consumer.Careful.move {c : Consumer} (h : c.Careful handler w) (hw : w.Coherent)
    (m : SystemMove svc w w') : c.Careful handler w' where
  supports := h.supports
  idle hcur := (h.idle hcur).move hw m
  working offset stage hcur := by
    obtain ⟨hset, hlt, hdone, hpos⟩ := h.working offset stage hcur
    exact ⟨hset.move hw m, hlt.trans_le m.log_prefix.length_le,
      fun hst => (hdone hst).move hw m, hpos.imp_right fun hp => hp.move hw m⟩

/-- A consumer that has dealt with its message. -/
theorem Consumer.Careful.handled {sdk : Sdk} {workerId : String} {position offset : ℕ}
    {stage stage' : Stage} (h : Careful handler w ⟨sdk, workerId, position, some (offset, stage)⟩)
    (hset : Cleared handler w (offset + 1)) :
    Careful handler w ⟨sdk, workerId, position, some (offset, stage')⟩ where
  supports := h.supports
  idle := by simp
  working o st hcur := by
    obtain ⟨rfl, rfl⟩ := Prod.mk.inj (Option.some.inj hcur)
    obtain ⟨hbefore, hlt, -, hpos⟩ := h.working _ _ rfl
    exact ⟨hbefore, hlt, fun _ => hset, hpos⟩

/-- A move of the control plane and the outbox keeps the group careful. -/
theorem World.Careful.move (h : w.Careful handler) (m : SystemMove svc w w')
    (hcons : w'.consumers = w.consumers) (hcomm : w'.committed = w.committed) :
    w'.Careful handler where
  coherent := h.coherent.move m
  committed := hcomm ▸ h.committed.move h.coherent m
  consumers id c hc := (h.consumers id c (hcons ▸ hc)).move h.coherent m

/-- A careful consumer and a commit of cleared messages keep the group careful. -/
theorem World.Careful.setConsumer (h : w.Careful handler) {k : ℕ} (hk : Cleared handler w k)
    (id : ℕ) {c : Option Consumer} (hc : ∀ c', c = some c' → c'.Careful handler w) :
    (World.setConsumer { w with committed := k } id c).Careful handler where
  coherent := ⟨h.coherent.reachable, h.coherent.sound, h.coherent.events⟩
  committed := hk
  consumers i c' hi := by
    have hcareful : c'.Careful handler w := by
      simp only [World.setConsumer, Function.update_apply] at hi
      split_ifs at hi
      · exact hc c' hi
      · exact h.consumers i c' hi
    exact ⟨hcareful.supports, hcareful.idle, hcareful.working⟩

/-- No lease request of a Go worker fails without having taken effect while its task is
dispatched. -/
def Served (w : World) : WorldStep → Prop
  | .lease id _ _ .lost => ∀ c offset taskId, w.consumers id = some c → c.sdk = .go →
      c.current = some (offset, .fetched) → w.taskAt offset = some taskId →
        ∀ t ∈ w.plane.db.taskRuns, t.id = taskId → t.status ≠ .dispatching
  | _ => True

/-- A worker that joins the group has the handler. -/
def WorldStep.supports (handler : String) : WorldStep → Prop
  | .join _ sdk _ => sdk.supports handler = true
  | _ => True

/-- A lease that the server has run leaves the task undispatched. -/
theorem lease_undispatches {s : State} (hs : Reachable s) {c : Call} {taskId : ℕ}
    {workerId : String} {d : ℤ} (hop : c.op = .leaseTask taskId workerId d) :
    ∀ t ∈ (c.after s.db).taskRuns, t.id = taskId → t.status ≠ .dispatching := by
  intro t ht hid hst
  cases hexec : c.exec s.db with
  | error e =>
    rw [Call.after_of_error hexec] at ht
    obtain ⟨r, hr⟩ := leaseTask_succeeds c.env hs.wellFormed hs.attemptsBounded ht hst workerId d
    simp [Call.exec, hop, Op.exec, ← hid, hr, Except.map] at hexec
  | ok r =>
    obtain ⟨reply, db'⟩ := r
    rw [Call.after_of_ok hexec] at ht
    rw [Call.exec, hop] at hexec
    simp only [Op.exec, map_eq_ok, Prod.mk.injEq] at hexec
    obtain ⟨⟨⟨t₁, uri⟩, _⟩, hok, -, rfl⟩ := hexec
    obtain ⟨t₀, -, rfl, -, -, -, rfl⟩ := leaseTask_ok hs.wellFormed.toKeyed hok
    obtain ⟨u, -, rfl⟩ := Table.mem_update.1 ht
    by_cases hu : u.id = t₀.id
    · simp [hu, lease] at hst
    · simp [hu] at hid

/-- A message is not outstanding when its task is not dispatched. -/
theorem not_outstanding {s : State} (hs : Reachable s) {m : Message}
    (h : ∀ taskId, m.value.taskRunId = some taskId → ∀ t ∈ s.db.taskRuns, t.id = taskId →
      t.status ≠ .dispatching) : ¬Outstanding handler s.db m := by
  intro hout
  obtain ⟨t, ht, hst, -, htask, -⟩ := hout.content hs
  exact h t.id htask t ht rfl hst

/-- A consumer that has the handler and passes over a message finds it not outstanding. -/
theorem not_outstanding_of_receive {s : State} (hs : Reachable s) {sdk : Sdk} {m : Message}
    (hsdk : sdk.supports handler = true) {stage : Stage} (h : sdk.receive m = some stage)
    (hst : stage ≠ .fetched) : ¬Outstanding handler s.db m := by
  intro hout
  obtain ⟨t, -, -, htype, htask, hh⟩ := hout.content hs
  cases sdk <;> simp [Sdk.receive, htype, htask, hh, hsdk, hst.symm] at h

variable {a : WorldStep}

/-- A consumer fetches a message it has to lease, or passes over one that is not
outstanding. -/
theorem World.Careful.fetch (h : w.Careful handler) (id : ℕ) : (w.fetch id).Careful handler := by
  unfold World.fetch
  split
  · next sdk workerId position hcons =>
    split
    · next m hm =>
      have hc := h.consumers id _ hcons
      refine h.setConsumer h.committed id fun c' hc' => ?_
      obtain ⟨stage, hstage, rfl⟩ := Option.map_eq_some_iff.1 hc'
      refine ⟨hc.supports, by simp, fun offset st hcur => ?_⟩
      obtain ⟨rfl, rfl⟩ := Prod.mk.inj (Option.some.inj hcur)
      have hbefore := hc.idle rfl
      exact ⟨hbefore, (List.getElem?_eq_some_iff.1 hm).1, fun hst => hbefore.succ hm
        (not_outstanding_of_receive h.coherent.reachable hc.supports hstage hst), Or.inl rfl⟩
    · exact h
  · exact h

/-- A consumer whose message is not outstanding may go on to any stage. -/
theorem World.Careful.goOn (h : w.Careful handler) {id : ℕ} {sdk : Sdk} {workerId : String}
    {position offset : ℕ} {stage : Stage}
    (hcons : w.consumers id = some ⟨sdk, workerId, position, some (offset, stage)⟩)
    (hout : ∀ m, w.outbox.log[offset]? = some m → ¬Outstanding handler w.plane.db m)
    (st : Option Stage) :
    (w.setConsumer id (st.map fun st => ⟨sdk, workerId, position, some (offset, st)⟩)).Careful
      handler := by
  refine h.setConsumer h.committed id fun c' hc' => ?_
  obtain ⟨stage', -, rfl⟩ := Option.map_eq_some_iff.1 hc'
  have hc := h.consumers id _ hcons
  obtain ⟨hbefore, hlt, -, -⟩ := hc.working _ _ rfl
  exact hc.handled (hbefore.succ (List.getElem?_eq_getElem hlt)
    (hout _ (List.getElem?_eq_getElem hlt)))

/-- A lease request that the server has run, or that was lost when its task was not
dispatched, leaves the message of the consumer not outstanding. -/
theorem World.Careful.lease (svc : Service) (h : w.Careful handler) {id : ℕ} {env : Env} {d : ℤ}
    {outcome : Outcome} (ha : (world svc).allowed w (.lease id env d outcome))
    (hserved : Served w (.lease id env d outcome)) :
    (w.lease id env d outcome).Careful handler := by
  have hran : ∀ {offset taskId : ℕ} {workerId : String}, w.taskAt offset = some taskId →
      (w.transact ⟨env, .leaseTask taskId workerId d⟩).Careful handler ∧
        ∀ m, w.outbox.log[offset]? = some m → ¬Outstanding handler
          (w.transact ⟨env, .leaseTask taskId workerId d⟩).plane.db m := by
    intro offset taskId workerId htask
    have m : SystemMove svc w (w.transact ⟨env, .leaseTask taskId workerId d⟩) :=
      .call _ ⟨ha.1, ha.2⟩ rfl rfl
    refine ⟨h.move m rfl rfl, fun x hx => not_outstanding (h.coherent.move m).reachable ?_⟩
    intro taskId' htask' t ht hid
    rw [World.taskAt, hx, Option.bind_some, htask'] at htask
    obtain rfl := Option.some.inj htask
    exact lease_undispatches h.coherent.reachable rfl t ht hid
  -- the request was lost, or names no task
  have hlost : ∀ {sdk : Sdk} {workerId : String} {position offset : ℕ},
      w.consumers id = some ⟨sdk, workerId, position, some (offset, .fetched)⟩ →
      (∀ taskId, w.taskAt offset = some taskId → outcome = .lost) →
      (w.setConsumer id (sdk.afterError.map fun st =>
        ⟨sdk, workerId, position, some (offset, st)⟩)).Careful handler := by
    intro sdk workerId position offset hcons hwhy
    cases sdk with
    | python handlers => exact h.setConsumer h.committed id (by simp [Sdk.afterError])
    | go =>
      refine h.goOn hcons (fun m hm => not_outstanding h.coherent.reachable ?_) _
      intro taskId htask
      have htask' : w.taskAt offset = some taskId := by
        rw [World.taskAt, hm, Option.bind_some, htask]
      obtain rfl := hwhy taskId htask'
      exact hserved _ _ _ hcons rfl rfl htask'
  unfold World.lease
  split
  · next sdk workerId position offset hcons =>
    cases htask : w.taskAt offset with
    | none => exact hlost hcons (by simp [htask])
    | some taskId =>
      cases outcome with
      | lost => exact hlost hcons fun _ _ => rfl
      | unanswered => exact (hran htask).1.goOn hcons (hran htask).2 _
      | answered => exact (hran htask).1.goOn hcons (hran htask).2 _
  · exact h

/-- A consumer commits past what it has dealt with. -/
theorem World.Careful.commit (h : w.Careful handler) (id : ℕ) (outcome : Outcome) :
    (w.commit id outcome).Careful handler := by
  unfold World.commit
  split
  · next sdk workerId position offset hcons =>
    have hc := h.consumers id _ hcons
    obtain ⟨-, -, hdone, hpos⟩ := hc.working _ _ rfl
    have hnext : Cleared handler w (offset + 1) := hdone (by simp)
    have hposition : Cleared handler w position := by
      rcases hpos with hpos | hpos
      · exact (show position = offset + 1 from hpos) ▸ hnext
      · exact hpos
    refine h.setConsumer ?_ id fun c' hc' => ?_
    · split_ifs
      · exact h.committed
      · cases sdk with
        | go => exact hnext
        | python handlers => exact hposition
    · split_ifs at hc'
      obtain rfl := Option.some.inj hc'
      exact ⟨hc.supports, fun _ => hposition, by simp⟩
  · exact h

theorem World.Careful.next (h : w.Careful handler) (ha : (world svc).allowed w a)
    (hserved : Served w a) (hsupports : a.supports handler) :
    ((world svc).next w a).Careful handler := by
  cases a with
  | call c => exact h.move (world_system ha) rfl rfl
  | publisher a => exact h.move (world_system ha) rfl rfl
  | fetch id => exact h.fetch id
  | lease id env d outcome => exact h.lease svc ha hserved
  | commit id outcome => exact h.commit id outcome
  | crash id => exact h.setConsumer h.committed id (by simp)
  | join id sdk workerId =>
    simp only [world, World.join]
    split
    · refine h.setConsumer h.committed id fun c' hc' => ?_
      obtain rfl := Option.some.inj hc'
      exact ⟨hsupports, fun _ => h.committed, by simp⟩
    · exact h
  | assign id =>
    simp only [world, World.assign]
    split
    · next c hcons =>
      have hc := h.consumers id c hcons
      refine h.setConsumer h.committed id fun c' hc' => ?_
      obtain rfl := Option.some.inj hc'
      refine ⟨hc.supports, fun _ => h.committed, fun offset stage hcur => ?_⟩
      obtain ⟨hbefore, hlt, hdone, -⟩ := hc.working offset stage hcur
      exact ⟨hbefore, hlt, hdone, Or.inr h.committed⟩
    · exact h
  | finish id =>
    simp only [world, World.finish]
    split
    · next sdk workerId position offset hcons =>
      have hc := h.consumers id _ hcons
      refine h.setConsumer h.committed id fun c' hc' => ?_
      obtain rfl := Option.some.inj hc'
      exact hc.handled ((hc.working _ _ rfl).2.2.1 (by simp))
    · exact h

/-- Dispatch is never lost, if no lease request of a Go worker fails before the server has
acted while its task is dispatched : a dispatched task whose handler every worker of the
group has is dispatched by an unpublished event, or by a message that the group has not
committed. -/
theorem dispatch_never_lost (svc : Service) {w₀ : World} (h0 : w₀.Init) {as : List WorldStep}
    (hv : (world svc).Valid w₀ as) (hserved : (world svc).Along Served w₀ as) :
    ∀ t ∈ ((world svc).run w₀ as).plane.db.taskRuns, t.status = .dispatching →
      (∀ a ∈ as, a.supports t.handler) →
        (∃ e ∈ ((world svc).run w₀ as).outbox.events, e.eventType = .dispatch ∧
          e.payload.taskRunId = some t.id ∧ e.publishedAt = none) ∨
        ∃ offset m, ((world svc).run w₀ as).committed ≤ offset ∧
          ((world svc).run w₀ as).outbox.log[offset]? = some m ∧ m.eventType = .dispatch ∧
          m.value.taskRunId = some t.id := by
  intro t ht hst hsupports
  have hcareful : ((world svc).run w₀ as).Careful t.handler := by
    refine (world svc).invariant_along
      (p := fun w a => (world svc).allowed w a ∧ Served w a ∧ a.supports t.handler)
      (fun w a hw ha => hw.next ha.1 ha.2.1 ha.2.2) (h0.careful t.handler) ?_
    exact ((world svc).along_and _ _ as w₀).2 ⟨hv, ((world svc).along_and _ _ as w₀).2
      ⟨hserved, (world svc).along_of_forall (fun a ha _ => hsupports a ha) w₀⟩⟩
  set w := (world svc).run w₀ as
  obtain ⟨e, he, hof⟩ := hcareful.coherent.reachable.lastDispatch ht hst
  have hmem : e ∈ w.outbox.events.map OutboxEvent.asInserted :=
    hcareful.coherent.events ▸ List.mem_of_mem_filter (List.mem_of_getLast? he)
  obtain ⟨r, hr, rfl⟩ := List.mem_map.1 hmem
  by_cases hpub : r.publishedAt = none
  · exact Or.inl ⟨r, hr, hof.eventType, hof.taskRunId, hpub⟩
  · obtain ⟨offset, hoff⟩ :=
      List.mem_iff_getElem?.1 (hcareful.coherent.sound.message_mem_log hr hpub)
    refine Or.inr ⟨offset, r.message, ?_, hoff, hof.eventType, hof.taskRunId⟩
    by_contra hlt
    have htake : r.message ∈ w.outbox.log.take w.committed :=
      List.mem_iff_getElem?.2 ⟨offset, by rw [List.getElem?_take_of_lt (not_le.1 hlt), hoff]⟩
    exact hcareful.committed.2 _ htake ⟨t, ht, hst, rfl, _, he, rfl⟩

/-! ## A lost dispatch -/

/-- The two definitions, and nothing else. -/
def quietWorld : World := ⟨twoDefinitions, emptyOutbox, 0, fun _ => none⟩

theorem init_quietWorld : quietWorld.Init :=
  ⟨init_twoDefinitions, init_emptyOutbox, rfl, fun _ => rfl⟩

/-- A run of the chain is created, its first task is dispatched, and both events are
published. -/
def publishedDispatch : List WorldStep :=
  [.call ⟨Env.at 1 3, .createRun 1 none 1 "k" "" none⟩,
    .call ⟨Env.at 2 7, .dispatchReady (.ofList [4])⟩] ++
  ([.claim 8 [], .publish 8 6, .deliver 8, .publishOk 8, .acknowledge 8 .answered,
    .claim 9 [], .publish 9 7, .deliver 9, .publishOk 9,
    .acknowledge 9 .answered] : List OutboxStep).map .publisher

theorem valid_publishedDispatch :
    (world defaultService).Valid quietWorld publishedDispatch :=
  ⟨⟨by decide, Db.fresh_at (by decide) 1⟩, ⟨by decide, Db.fresh_at (by decide) 2⟩,
    ⟨by decide, nofun⟩, ⟨by decide, nofun⟩, ⟨by decide, nofun⟩, ⟨by decide, nofun⟩,
    ⟨by decide, nofun⟩, ⟨by decide, nofun⟩, ⟨by decide, nofun⟩, ⟨by decide, nofun⟩,
    ⟨by decide, nofun⟩, ⟨by decide, nofun⟩, trivial⟩

/-- A Go worker commits the event of the run, fetches the dispatch, fails to reach the
server, and commits the dispatch. -/
def lostDispatch : List WorldStep :=
  publishedDispatch ++ [.join 0 .go "w", .fetch 0, .commit 0 .answered, .fetch 0,
    .lease 0 (Env.at 3 10) 100 .lost, .commit 0 .answered]

/-- The task stays dispatched, with nothing left to deliver it. -/
theorem unserved_dispatch_is_lost :
    quietWorld.Init ∧ (world defaultService).Valid quietWorld lostDispatch ∧
      (∀ a ∈ lostDispatch, a.supports "examples.greet") ∧
      ((world defaultService).run quietWorld lostDispatch).plane.db.taskRuns.map
        (fun t => (t.id, t.handler, t.status)) =
          [(4, "examples.greet", .dispatching), (5, "examples.upper", .blocked)] ∧
      (∀ e ∈ ((world defaultService).run quietWorld lostDispatch).outbox.events,
        e.publishedAt ≠ none) ∧
      ((world defaultService).run quietWorld lostDispatch).outbox.log.length = 2 ∧
      ((world defaultService).run quietWorld lostDispatch).committed = 2 := by
  refine ⟨init_quietWorld, ?_, ?_, by decide, by decide, by decide, by decide⟩
  · refine ((world defaultService).along_append _ _ _ _).2 ⟨valid_publishedDispatch, ?_⟩
    exact ⟨trivial, trivial, trivial, trivial, ⟨by decide, Db.fresh_at (by decide) 3⟩, trivial,
      trivial⟩
  · simp [lostDispatch, publishedDispatch, WorldStep.supports, Sdk.supports, goHandlers]

/-- A Python slot does not reach the server, and dies of it. -/
def unreachedServer : List WorldStep :=
  publishedDispatch ++ [.join 0 (.python ["examples.greet"]) "w", .fetch 0, .commit 0 .answered,
    .fetch 0, .lease 0 (Env.at 3 10) 100 .lost]

theorem valid_unreachedServer : (world defaultService).Valid quietWorld unreachedServer :=
  ((world defaultService).along_append _ _ _ _).2 ⟨valid_publishedDispatch, trivial, trivial,
    trivial, trivial, ⟨by decide, Db.fresh_at (by decide) 3⟩, trivial⟩

theorem served_unreachedServer :
    (world defaultService).Along Served quietWorld unreachedServer := by
  refine ((world defaultService).along_append _ _ _ _).2 ⟨?_, trivial, trivial, trivial, trivial,
    ?_, trivial⟩
  · exact (world defaultService).along_of_forall (by simp [publishedDispatch, Served]) _
  · rintro c - - hc hgo
    obtain rfl := Option.some.inj hc
    cases hgo

theorem dispatch_never_lost_unreachedServer :
    ((world defaultService).run quietWorld unreachedServer).plane.db.taskRuns.map
        (fun t => (t.id, t.handler, t.status)) =
          [(4, "examples.greet", .dispatching), (5, "examples.upper", .blocked)] ∧
      (∀ a ∈ unreachedServer, a.supports "examples.greet") ∧
      ∀ t ∈ ((world defaultService).run quietWorld unreachedServer).plane.db.taskRuns,
        t.status = .dispatching → (∀ a ∈ unreachedServer, a.supports t.handler) →
          (∃ e ∈ ((world defaultService).run quietWorld unreachedServer).outbox.events,
            e.eventType = .dispatch ∧ e.payload.taskRunId = some t.id ∧ e.publishedAt = none) ∨
          ∃ offset m,
            ((world defaultService).run quietWorld unreachedServer).committed ≤ offset ∧
            ((world defaultService).run quietWorld unreachedServer).outbox.log[offset]? =
              some m ∧ m.eventType = .dispatch ∧ m.value.taskRunId = some t.id :=
  ⟨by decide, by simp [unreachedServer, publishedDispatch, WorldStep.supports, Sdk.supports],
    dispatch_never_lost defaultService init_quietWorld valid_unreachedServer
      served_unreachedServer⟩

end RunMesh
