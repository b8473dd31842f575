import RunMesh.Integrity

/-!
# The events a call emits

A call only appends to the outbox (`exec_events`). The events it appends carry the ids it
drew, its time, no claim, and the run they are about : the run itself, or the run of the
task they name. An event `task.dispatch` comes from the dispatch phase, for a task that
was ready. Each operation emits events of its own types only (`exec_grows`).
-/

namespace RunMesh

open Fallible

/-- The event is about the run : the run itself, or one of its tasks. -/
def Db.EventOf (db : Db) (e : OutboxEvent) (runId : ℕ) : Prop :=
  e.aggregateType = .workflowRun ∧ e.aggregateId = runId ∨
    e.aggregateType = .taskRun ∧
      ∃ t ∈ db.taskRuns, t.id = e.aggregateId ∧ t.workflowRunId = runId

/-- What is true of an event when it is appended. -/
structure NewEvent (env : Env) (db : Db) (op : Op) (e : OutboxEvent) : Prop where
  createdAt : e.createdAt = env.now
  unclaimed : e.asInserted = e
  about : ∃ runId, e.payload.workflowRunId = some runId ∧ db.EventOf e runId
  dispatch : e.eventType = .dispatch → ∃ scan t r n, op = .dispatchReady scan ∧
    (t, r) ∈ readyTasks env scan db ∧ e = dispatchEvent env n (t, r)

/-- The events appended by a call. -/
def Appends (env : Env) (db : Db) (op : Op) (db' : Db) : Prop :=
  ∃ new, db'.outboxEvents = db.outboxEvents ++ new ∧
    (∃ n, new.map OutboxEvent.id = (List.range' n new.length).map env.uuid) ∧
    ∀ e ∈ new, NewEvent env db op e

variable {env : Env} {op : Op} {db db' : Db}

theorem Appends.of_eq (h : db'.outboxEvents = db.outboxEvents) : Appends env db op db' :=
  ⟨[], by simp [h], ⟨0, rfl⟩, by simp⟩

/-- A call that appends one event about a task. -/
theorem Appends.singleton {n : ℕ} {t : TaskRun} {eventType : EventType} {payload : Payload}
    {traceParent : String} (ht : t ∈ db.taskRuns)
    (hrun : payload.workflowRunId = some t.workflowRunId) (htype : eventType ≠ .dispatch)
    (h : db'.outboxEvents =
      db.outboxEvents ++ [newEvent env n .taskRun t.id eventType payload traceParent]) :
    Appends env db op db' := by
  refine ⟨_, h, ⟨n, rfl⟩, fun e he => ?_⟩
  rw [List.mem_singleton.1 he]
  exact ⟨rfl, rfl, ⟨_, hrun, Or.inr ⟨rfl, t, ht, rfl, rfl⟩⟩, fun hd => absurd hd htype⟩

/-- The ids of events numbered by their place in a list. -/
theorem map_id_zipIdx {α : Type*} (f : α × ℕ → OutboxEvent) (hf : ∀ x, (f x).id = env.uuid x.2)
    (as : List α) (n : ℕ) :
    ((as.zipIdx n).map f).map OutboxEvent.id =
      (List.range' n ((as.zipIdx n).map f).length).map env.uuid := by
  rw [List.map_map, List.length_map, List.length_zipIdx, ← List.zipIdx_map_snd n as, List.map_map]
  exact List.map_congr_left fun x _ => hf x

theorem completeTask_appends (hk : db.Keyed) {id : ℕ} {w o a : String} {logs : List String}
    {t' : TaskRun} (h : completeTask env id w o a logs db = .ok (t', db')) :
    Appends env db (.completeTask id w o a logs) db' := by
  obtain ⟨t, r, hheld, -, -, -, o', rfl, hdb⟩ := completeTask_ok hk h
  have hev := congrArg Db.outboxEvents hdb
  refine ⟨_, hev, ⟨0, ?_⟩, fun e he => ?_⟩
  · rw [List.map_append, readyEvents, map_id_zipIdx _ (fun _ => rfl), List.length_append,
      List.length_singleton, List.range'_concat, List.map_append]
    simp [succeededEvent, newEvent]
  · rcases List.mem_append.1 he with he | he
    · obtain ⟨⟨c, n⟩, hc, rfl⟩ := List.mem_map.1 he
      obtain ⟨hmem, hwake⟩ := List.mem_filter.1 (List.fst_mem_of_mem_zipIdx hc)
      have hwake : Wakes db t c := of_decide_eq_true hwake
      exact ⟨rfl, rfl, ⟨_, rfl, Or.inr ⟨rfl, c, hmem, rfl, hwake.1⟩⟩, by simp [newEvent]⟩
    · rw [List.mem_singleton.1 he]
      exact ⟨rfl, rfl, ⟨_, rfl, Or.inr ⟨rfl, t, hheld.mem, rfl, rfl⟩⟩,
        by simp [succeededEvent, newEvent]⟩

theorem failureEventType_ne_dispatch (st : TaskStatus) : failureEventType st ≠ .dispatch := by
  unfold failureEventType
  split_ifs <;> simp

theorem recoverExpired_appends (scan : Scan) :
    Appends env db (.recoverExpired scan) (recoverExpired env scan db) := by
  rw [recoverExpired_eq]
  refine ⟨_, rfl, ⟨0, map_id_zipIdx _ (fun _ => rfl) _ 0⟩, fun e he => ?_⟩
  obtain ⟨⟨⟨t, r⟩, n⟩, hc, rfl⟩ := List.mem_map.1 he
  have ht := (mem_expiredLeases (List.fst_mem_of_mem_zipIdx hc)).1
  exact ⟨rfl, rfl, ⟨_, rfl, Or.inr ⟨rfl, t, ht, rfl, rfl⟩⟩,
    fun hd => absurd hd (failureEventType_ne_dispatch _)⟩

theorem dispatchReady_appends (hk : db.Keyed) (scan : Scan) :
    Appends env db (.dispatchReady scan) (dispatchReady env scan db) := by
  rw [dispatchReady_eq hk]
  refine ⟨_, rfl, ⟨0, map_id_zipIdx _ (fun _ => rfl) _ 0⟩, fun e he => ?_⟩
  obtain ⟨⟨⟨t, r⟩, n⟩, hc, rfl⟩ := List.mem_map.1 he
  have hready := List.fst_mem_of_mem_zipIdx hc
  exact ⟨rfl, rfl, ⟨_, rfl, Or.inr ⟨rfl, t, (mem_readyTasks hready).1, rfl, rfl⟩⟩,
    fun _ => ⟨scan, t, r, n, rfl, hready, rfl⟩⟩

/-- A successful call only appends events. -/
theorem exec_events (hk : db.Keyed) {reply : Reply} (h : op.exec env db = .ok (reply, db')) :
    Appends env db op db' := by
  cases op <;> simp only [Op.exec, map_eq_ok, Prod.mk.injEq, Except.ok.injEq] at h
  case createWorkflow =>
    obtain ⟨⟨d, _⟩, hop, rfl, rfl⟩ := h
    obtain ⟨-, -, audit, rfl⟩ := createWorkflow_ok hop
    exact .of_eq rfl
  case createVersion =>
    obtain ⟨_, hop, -⟩ := h
    exact absurd hop createVersion_ne_ok
  case createRun =>
    obtain ⟨⟨r, _⟩, hop, rfl, rfl⟩ := h
    rcases createRun_ok hop with ⟨rfl, -, -⟩ | ⟨d, hd, uri, -, hins⟩
    · exact .of_eq rfl
    · obtain ⟨-, -, artifacts, rfl⟩ := insertRun_ok hins
      refine ⟨_, rfl, ⟨d.dag.tasks.length + 1, rfl⟩, fun e he => ?_⟩
      rw [List.mem_singleton.1 he]
      exact ⟨rfl, rfl, ⟨_, rfl, Or.inl ⟨rfl, rfl⟩⟩, by simp [runCreatedEvent, newEvent]⟩
  case promoteRetries =>
    obtain ⟨-, rfl⟩ := h
    exact .of_eq rfl
  case recoverExpired scan =>
    obtain ⟨-, rfl⟩ := h
    exact recoverExpired_appends scan
  case dispatchReady scan =>
    obtain ⟨-, rfl⟩ := h
    exact dispatchReady_appends hk scan
  case leaseTask =>
    obtain ⟨⟨⟨t', uri⟩, _⟩, hop, -, rfl⟩ := h
    obtain ⟨t, ht, rfl, -, rfl, -, rfl⟩ := leaseTask_ok hk hop
    exact .singleton ht rfl (by simp) rfl
  case startTask =>
    obtain ⟨⟨t', _⟩, hop, -, rfl⟩ := h
    obtain ⟨t, r, -, rfl, -, -, rfl, rfl⟩ := startTask_ok hk hop
    exact .of_eq rfl
  case heartbeatTask =>
    obtain ⟨⟨b, _⟩, hop, -, rfl⟩ := h
    obtain ⟨t, r, -, rfl, -, rfl, rfl⟩ := heartbeatTask_ok hk hop
    exact .of_eq rfl
  case completeTask =>
    obtain ⟨⟨t', _⟩, hop, -, rfl⟩ := h
    exact completeTask_appends hk hop
  case failTask =>
    obtain ⟨⟨t', _⟩, hop, -, rfl⟩ := h
    obtain ⟨t, r, hheld, rfl, -, rfl, rfl⟩ := failTask_ok hk hop
    exact .singleton hheld.mem rfl (failureEventType_ne_dispatch _) rfl
  case cancelRun =>
    obtain ⟨_, hop, -, rfl⟩ := h
    rw [(cancelRun_ok hop).2]
    exact .of_eq rfl
  case retryRun =>
    obtain ⟨_, hop, -, rfl⟩ := h
    rw [(retryRun_ok hop).2.2]
    exact .of_eq rfl
  case replayDead =>
    obtain ⟨_, hop, -, rfl⟩ := h
    obtain ⟨t, ht, r, -, rfl, -, rfl, -, rfl⟩ := replayDead_ok hop
    exact .singleton ht rfl (by simp) rfl

/-! ## What a call adds -/

/-- The types of the events a call can emit. -/
def Op.emits : Op → List EventType
  | .createRun .. => [.runCreated]
  | .recoverExpired _ | .failTask .. => [.retryWait, .dead, .cancelled]
  | .dispatchReady _ => [.dispatch]
  | .leaseTask .. => [.leased]
  | .completeTask .. => [.ready, .succeeded]
  | .replayDead .. => [.replayed]
  | _ => []

theorem failureEventType_mem (st : TaskStatus) :
    failureEventType st ∈ [EventType.retryWait, .dead, .cancelled] := by
  unfold failureEventType
  split_ifs <;> simp

/-- Definitions are kept, and the new events are of the types the call can emit. -/
structure Grows (op : Op) (db db' : Db) : Prop where
  definitions : ∀ d ∈ db.workflowDefinitions, d ∈ db'.workflowDefinitions
  events : ∃ new, db'.outboxEvents = db.outboxEvents ++ new ∧ ∀ e ∈ new, e.eventType ∈ op.emits

/-- A call that changes neither table. -/
theorem Grows.of_eq (hdefs : db'.workflowDefinitions = db.workflowDefinitions)
    (hevents : db'.outboxEvents = db.outboxEvents) : Grows op db db' where
  definitions _ hd := hdefs ▸ hd
  events := ⟨[], by simp [hevents], by simp⟩

theorem exec_grows (hk : db.Keyed) {reply : Reply} (h : op.exec env db = .ok (reply, db')) :
    Grows op db db' := by
  cases op <;> simp only [Op.exec, map_eq_ok, Prod.mk.injEq, Except.ok.injEq] at h
  case createWorkflow =>
    obtain ⟨⟨d, _⟩, hok, rfl, rfl⟩ := h
    obtain ⟨-, -, audit, rfl⟩ := createWorkflow_ok hok
    exact ⟨fun d hd => List.mem_append_left _ hd, [], by simp, by simp⟩
  case createVersion =>
    obtain ⟨_, hop, -⟩ := h
    exact absurd hop createVersion_ne_ok
  case createRun =>
    obtain ⟨⟨r, _⟩, hok, rfl, rfl⟩ := h
    rcases createRun_ok hok with ⟨rfl, -, -⟩ | ⟨d, -, uri, -, hins⟩
    · exact .of_eq rfl rfl
    · obtain ⟨-, -, artifacts, rfl⟩ := insertRun_ok hins
      exact ⟨fun _ hd => hd, _, rfl, by simp [runCreatedEvent, newEvent, Op.emits]⟩
  case promoteRetries =>
    obtain ⟨-, rfl⟩ := h
    exact .of_eq rfl rfl
  case recoverExpired scan =>
    obtain ⟨-, rfl⟩ := h
    rw [recoverExpired_eq]
    refine ⟨fun _ hd => hd, _, rfl, fun e he => ?_⟩
    obtain ⟨y, -, rfl⟩ := List.mem_map.1 he
    exact failureEventType_mem _
  case dispatchReady scan =>
    obtain ⟨-, rfl⟩ := h
    rw [dispatchReady_eq hk]
    refine ⟨fun _ hd => hd, _, rfl, fun e he => ?_⟩
    obtain ⟨y, -, rfl⟩ := List.mem_map.1 he
    simp [dispatchEvent, newEvent, Op.emits]
  case leaseTask =>
    obtain ⟨⟨⟨t', uri⟩, _⟩, hok, -, rfl⟩ := h
    obtain ⟨t, -, rfl, -, rfl, -, rfl⟩ := leaseTask_ok hk hok
    exact ⟨fun _ hd => hd, _, rfl, by simp [leasedEvent, newEvent, Op.emits]⟩
  case startTask =>
    obtain ⟨⟨t', _⟩, hok, -, rfl⟩ := h
    obtain ⟨t, r, -, rfl, -, -, rfl, rfl⟩ := startTask_ok hk hok
    exact .of_eq rfl rfl
  case heartbeatTask =>
    obtain ⟨⟨b, _⟩, hok, -, rfl⟩ := h
    obtain ⟨t, r, -, rfl, -, rfl, rfl⟩ := heartbeatTask_ok hk hok
    exact .of_eq rfl rfl
  case completeTask =>
    obtain ⟨⟨t', _⟩, hok, -, rfl⟩ := h
    obtain ⟨t, r, -, -, -, -, o', rfl, hdb⟩ := completeTask_ok hk hok
    refine ⟨fun _ hd => hdb ▸ hd, _, congrArg Db.outboxEvents hdb, fun e he => ?_⟩
    rcases List.mem_append.1 he with he | he
    · obtain ⟨y, -, rfl⟩ := List.mem_map.1 he
      simp [newEvent, Op.emits]
    · rw [List.mem_singleton.1 he]
      simp [succeededEvent, newEvent, Op.emits]
  case failTask =>
    obtain ⟨⟨t', _⟩, hok, -, rfl⟩ := h
    obtain ⟨t, r, -, rfl, -, rfl, rfl⟩ := failTask_ok hk hok
    refine ⟨fun _ hd => hd, _, rfl, fun e he => ?_⟩
    rw [List.mem_singleton.1 he]
    exact failureEventType_mem _
  case cancelRun =>
    obtain ⟨_, hok, -, rfl⟩ := h
    rw [(cancelRun_ok hok).2]
    exact .of_eq rfl rfl
  case retryRun =>
    obtain ⟨_, hok, -, rfl⟩ := h
    rw [(retryRun_ok hok).2.2]
    exact .of_eq rfl rfl
  case replayDead =>
    obtain ⟨_, hok, -, rfl⟩ := h
    obtain ⟨t, -, r, -, rfl, -, rfl, -, rfl⟩ := replayDead_ok hok
    exact ⟨fun _ hd => hd, _, rfl, by simp [replayedEvent, newEvent, Op.emits]⟩

/-! ## Ordering keys -/

/-- An event is about one run. -/
theorem Db.EventOf.unique (hk : db.Keyed) {e : OutboxEvent} {r r' : ℕ} (h : db.EventOf e r)
    (h' : db.EventOf e r') : r = r' := by
  rcases h with ⟨hty, rfl⟩ | ⟨hty, t, ht, hid, rfl⟩ <;>
    rcases h' with ⟨hty', rfl⟩ | ⟨hty', t', ht', hid', rfl⟩
  · rfl
  · simp [hty] at hty'
  · simp [hty] at hty'
  · rw [Table.eq_of_key hk.tasks ht ht' (hid.trans hid'.symm)]

/-- An event stays about its run. -/
theorem exec_eventOf (hk : db.Keyed) {reply : Reply} (h : op.exec env db = .ok (reply, db'))
    {e : OutboxEvent} {runId : ℕ} (he : db.EventOf e runId) : db'.EventOf e runId := by
  refine he.imp_right fun ⟨hty, t, ht, hid, hrun⟩ => ⟨hty, ?_⟩
  rcases exec_moves hk h with hm | ⟨run, dag, hc⟩
  · obtain ⟨t', ht', hmove⟩ := hm.mem_task ht
    exact ⟨t', ht', hmove.id.trans hid, hmove.workflowRunId.trans hrun⟩
  · exact ⟨t, hc.task_mem ht, hid, hrun⟩

/-- The ordering key of an event is the run it is about. -/
theorem Reachable.eventOf_orderingKey {s : State} (h : Reachable s) :
    ∀ e ∈ s.db.outboxEvents, s.db.EventOf e e.orderingKey := by
  refine (h.induction (P := fun db => db.WellFormed ∧ ∀ e ∈ db.outboxEvents,
    db.EventOf e e.orderingKey) (fun _ h0 => ⟨h0.wellFormed, by simp [h0.outboxEvents]⟩) ?_).2
  rintro c db reply db' ⟨hw, hkeys⟩ hf hok
  refine ⟨exec_wellFormed hw hf hok, fun e he => ?_⟩
  obtain ⟨new, hev, -, hnew⟩ := exec_events hw.toKeyed hok
  refine exec_eventOf hw.toKeyed hok ?_
  rcases List.mem_append.1 (hev ▸ he) with he | he
  · exact hkeys e he
  · obtain ⟨runId, hrun, habout⟩ := (hnew e he).about
    rwa [OutboxEvent.orderingKey, hrun, Option.getD_some]

end RunMesh
