import RunMesh.Attempts
import RunMesh.Events

/-!
# The ledger of a task

What the database records of one task is in three tables : its row, its attempts, and its
events in the outbox (`Ledger`). A call does one of six things to a ledger (`LedgerMove`) :
nothing, a change between the statuses in which no worker holds the task, a dispatch, a
lease, a step of the worker that holds it, or the end of the lease. `exec_ledger` says that
every operation moves every ledger in one of these ways, and `Reachable.forall_ledger` that
what each move keeps holds of every task.
-/

namespace RunMesh

open Fallible

variable {env : Env} {op : Op} {db db' : Db}

/-- No worker holds the task, and it has not succeeded. -/
def TaskStatus.idle : TaskStatus → Bool
  | .leased | .running | .succeeded => false
  | _ => true

/-- The event is about the task. -/
def OutboxEvent.aboutTask (taskId : ℕ) (e : OutboxEvent) : Bool :=
  e.aggregateType = .taskRun ∧ e.aggregateId = taskId

@[simp] theorem OutboxEvent.aboutTask_iff {id : ℕ} {e : OutboxEvent} :
    OutboxEvent.aboutTask id e = true ↔ e.aggregateType = .taskRun ∧ e.aggregateId = id :=
  decide_eq_true_iff

/-- The events of a task. -/
def Db.eventsOf (db : Db) (taskId : ℕ) : List OutboxEvent :=
  db.outboxEvents.filter (OutboxEvent.aboutTask taskId)

/-- The row of a task, its attempts and its events. -/
structure Ledger where
  task : TaskRun
  attempts : List TaskAttempt
  events : List OutboxEvent

/-- The ledger of a task in the database. -/
def Db.ledger (db : Db) (t : TaskRun) : Ledger :=
  ⟨t, db.attemptsOf t.id, db.eventsOf t.id⟩

/-- A change between two statuses in which no worker holds the task, other than its
dispatch. The lease columns stay, or are cleared. -/
structure Rests (t t' : TaskRun) : Prop where
  before : t.status.idle = true
  after : t'.status.idle = true
  ne_dispatching : t'.status ≠ .dispatching
  attemptCount : t'.attemptCount = t.attemptCount
  lease : t'.leaseOwner = t.leaseOwner ∧ t'.leaseExpiresAt = t.leaseExpiresAt ∨
    t'.leaseOwner = none ∧ t'.leaseExpiresAt = none

/-- A write to the attempt with the number `n`, to none of its key columns. -/
structure WritesAttempt (n : ℕ) (f : TaskAttempt → TaskAttempt) : Prop where
  key : ∀ a, (f a).taskRunId = a.taskRunId ∧ (f a).attemptNumber = a.attemptNumber ∧
    (f a).workerId = a.workerId
  other : ∀ a, a.attemptNumber ≠ n → f a = a

/-- The event of a lease that ended in the status. -/
def endEventType (st : TaskStatus) : EventType :=
  if st = .succeeded then .succeeded else failureEventType st

/-- What a call does to the ledger of a task. -/
inductive LedgerMove : Ledger → Ledger → Prop
  | keep (l : Ledger) : LedgerMove l l
  | rest {t t' : TaskRun} {as : List TaskAttempt} {es new : List OutboxEvent}
      (hrest : Rests t t')
      (hnew : ∀ e ∈ new, e.eventType = .ready ∨ e.eventType = .replayed) :
      LedgerMove ⟨t, as, es⟩ ⟨t', as, es ++ new⟩
  | dispatch {env : Env} {t : TaskRun} {as : List TaskAttempt} {es : List OutboxEvent}
      {e : OutboxEvent} (hst : t.status = .ready) (he : e.eventType = .dispatch) :
      LedgerMove ⟨t, as, es⟩
        ⟨{ t with status := .dispatching, updatedAt := env.now }, as, es ++ [e]⟩
  | lease {env : Env} {w : String} {d : ℤ} {t : TaskRun} {as : List TaskAttempt}
      {es : List OutboxEvent} (hst : t.status = .dispatching) :
      LedgerMove ⟨t, as, es⟩ ⟨lease env w d t, as ++ [newAttempt env w (lease env w d t)],
        es ++ [leasedEvent env w (lease env w d t)]⟩
  | hold {t t' : TaskRun} {as : List TaskAttempt} {es : List OutboxEvent}
      {f : TaskAttempt → TaskAttempt} (hst : t.status.active = true)
      (hst' : t'.status.active = true) (hcount : t'.attemptCount = t.attemptCount)
      (howner : t'.leaseOwner = t.leaseOwner)
      (hexp : t'.leaseExpiresAt = none → t.leaseExpiresAt = none)
      (hf : WritesAttempt t.attemptCount f)
      (hopen : ∀ a, (f a).endedAt = a.endedAt ∧ (f a).exitStatus = a.exitStatus) :
      LedgerMove ⟨t, as, es⟩ ⟨t', as.map f, es⟩
  | finish {t t' : TaskRun} {as : List TaskAttempt} {es : List OutboxEvent}
      {f : TaskAttempt → TaskAttempt} {e : OutboxEvent} (hst : t.status.active = true)
      (hst' : t'.status = .succeeded ∧ t'.leaseOwner = t.leaseOwner ∨
        (t'.status = .retryWait ∨ t'.status = .dead ∨ t'.status = .cancelled) ∧
          t'.leaseOwner = none)
      (hexp : t'.leaseExpiresAt = none) (hcount : t'.attemptCount = t.attemptCount)
      (hf : WritesAttempt t.attemptCount f)
      (hend : ∀ a ∈ as, a.attemptNumber = t.attemptCount →
        (f a).endedAt ≠ none ∧ (f a).exitStatus = some t'.status)
      (he : e.eventType = endEventType t'.status)
      (hattempt : e.payload.attempt = some t.attemptCount) :
      LedgerMove ⟨t, as, es⟩ ⟨t', as.map f, es ++ [e]⟩

/-- The task keeps its id, and its ledger moves. -/
def MovesLedger (db db' : Db) (t : TaskRun) : Prop :=
  ∃ t' ∈ db'.taskRuns, t'.id = t.id ∧ LedgerMove (db.ledger t) (db'.ledger t')

/-! ## The tables of one task -/

theorem Db.taskRunId_of_mem {id : ℕ} {a : TaskAttempt} (h : a ∈ db.attemptsOf id) :
    a.taskRunId = id :=
  of_decide_eq_true (List.mem_filter.1 h).2

/-- The attempts of a task after a write that keeps the task of each row. -/
theorem Db.attemptsOf_map {f : TaskAttempt → TaskAttempt}
    (h : db'.taskAttempts = db.taskAttempts.map f) (hf : ∀ a, (f a).taskRunId = a.taskRunId)
    (id : ℕ) : db'.attemptsOf id = (db.attemptsOf id).map f := by
  rw [attemptsOf, attemptsOf, h, List.filter_map]
  congr 1
  refine List.filter_congr fun a _ => ?_
  rw [Function.comp_apply, hf a]

/-- A write that leaves the rows of the task alone leaves its attempts alone. -/
theorem Db.attemptsOf_map_eq {f : TaskAttempt → TaskAttempt}
    (h : db'.taskAttempts = db.taskAttempts.map f) (hf : ∀ a, (f a).taskRunId = a.taskRunId)
    {id : ℕ} (hid : ∀ a, a.taskRunId = id → f a = a) : db'.attemptsOf id = db.attemptsOf id := by
  rw [attemptsOf_map h hf]
  refine (List.map_congr_left fun a ha => ?_).trans (List.map_id' _)
  exact hid a (taskRunId_of_mem ha)

theorem Db.eventsOf_append {new : List OutboxEvent}
    (h : db'.outboxEvents = db.outboxEvents ++ new) (id : ℕ) :
    db'.eventsOf id = db.eventsOf id ++ new.filter (OutboxEvent.aboutTask id) := by
  rw [eventsOf, eventsOf, h, List.filter_append]

/-- The events of the other tasks are not about this one. -/
theorem filter_aboutTask_eq_nil {new : List OutboxEvent} {id : ℕ}
    (h : ∀ e ∈ new, e.aggregateId ≠ id) : new.filter (OutboxEvent.aboutTask id) = [] := by
  rw [List.filter_eq_nil_iff]
  exact fun e he habout => h e he (OutboxEvent.aboutTask_iff.1 habout).2

/-- The event of the task is about it. -/
theorem filter_aboutTask_self {e : OutboxEvent} (id : ℕ) (htype : e.aggregateType = .taskRun)
    (hid : e.aggregateId = id) : [e].filter (OutboxEvent.aboutTask id) = [e] := by
  rw [List.filter_singleton, OutboxEvent.aboutTask_iff.2 ⟨htype, hid⟩]
  rfl

/-- Among events of different tasks, one is about this one. -/
theorem filter_aboutTask_eq_singleton {new : List OutboxEvent} {e : OutboxEvent}
    (hnd : (new.map OutboxEvent.aggregateId).Nodup) (he : e ∈ new)
    (htype : e.aggregateType = .taskRun) :
    new.filter (OutboxEvent.aboutTask e.aggregateId) = [e] := by
  induction new with
  | nil => cases he
  | cons c new ih =>
    rw [List.map_cons, List.nodup_cons] at hnd
    rw [List.filter_cons]
    rcases List.mem_cons.1 he with rfl | he
    · rw [if_pos (OutboxEvent.aboutTask_iff.2 ⟨htype, rfl⟩), filter_aboutTask_eq_nil]
      rintro c hc hid
      exact hnd.1 (hid ▸ List.mem_map_of_mem hc)
    · rw [if_neg, ih hnd.2 he]
      intro habout
      have hid : c.aggregateId = e.aggregateId := (OutboxEvent.aboutTask_iff.1 habout).2
      exact hnd.1 (hid ▸ List.mem_map_of_mem he)

section Loop

variable {α : Type*} {f : α × ℕ → OutboxEvent} {g : α → ℕ}

/-- The event a loop over different tasks appends for one of them. -/
theorem filter_aboutTask_zipIdx (hf : ∀ x, (f x).aggregateType = .taskRun)
    (hg : ∀ x, (f x).aggregateId = g x.1) {as : List α} (hnd : (as.map g).Nodup) {a : α}
    (ha : a ∈ as) : ∃ n, (as.zipIdx.map f).filter (OutboxEvent.aboutTask (g a)) = [f (a, n)] := by
  have hids : (as.zipIdx.map f).map OutboxEvent.aggregateId = as.map g := by
    conv_rhs => rw [← List.zipIdx_map_fst 0 as]
    rw [List.map_map, List.map_map]
    exact List.map_congr_left fun x _ => hg x
  rw [← List.zipIdx_map_fst 0 as] at ha
  obtain ⟨⟨b, n⟩, hb, rfl⟩ := List.mem_map.1 ha
  refine ⟨n, ?_⟩
  rw [← hg (b, n)]
  exact filter_aboutTask_eq_singleton (hids ▸ hnd) (List.mem_map_of_mem hb) (hf _)

/-- It appends nothing for the tasks it does not visit. -/
theorem filter_aboutTask_zipIdx_eq_nil (hg : ∀ x, (f x).aggregateId = g x.1) {as : List α}
    {id : ℕ} (hid : ∀ a ∈ as, g a ≠ id) :
    (as.zipIdx.map f).filter (OutboxEvent.aboutTask id) = [] := by
  refine filter_aboutTask_eq_nil fun e he => ?_
  obtain ⟨x, hx, rfl⟩ := List.mem_map.1 he
  rw [hg x]
  exact hid x.1 (List.fst_mem_of_mem_zipIdx hx)

end Loop

/-- A task with its new row, attempts and events. -/
theorem ledger_move {t t' : TaskRun} {as : List TaskAttempt} {es : List OutboxEvent}
    (ht' : t' ∈ db'.taskRuns) (hid : t'.id = t.id) (has : db'.attemptsOf t.id = as)
    (hes : db'.eventsOf t.id = es) (h : LedgerMove (db.ledger t) ⟨t', as, es⟩) :
    MovesLedger db db' t := by
  have hl : db'.ledger t' = ⟨t', as, es⟩ := by rw [Db.ledger, hid, has, hes]
  exact ⟨t', ht', hid, hl ▸ h⟩

/-- A task whose row, attempts and events stay. -/
theorem ledger_keep {t : TaskRun} (ht : t ∈ db'.taskRuns)
    (has : db'.attemptsOf t.id = db.attemptsOf t.id) (hes : db'.eventsOf t.id = db.eventsOf t.id) :
    MovesLedger db db' t :=
  ledger_move ht rfl has hes (.keep _)

/-- A write to the rows a predicate finds, all of the attempt `n`. -/
theorem WritesAttempt.of_update {n : ℕ} {p : TaskAttempt → Bool} {g : TaskAttempt → TaskAttempt}
    (hp : ∀ a, p a = true → a.attemptNumber = n)
    (hg : ∀ a, (g a).taskRunId = a.taskRunId ∧ (g a).attemptNumber = a.attemptNumber ∧
      (g a).workerId = a.workerId) : WritesAttempt n fun a => if p a then g a else a where
  key a := by
    split_ifs
    · exact hg a
    · exact ⟨rfl, rfl, rfl⟩
  other a ha := if_neg fun h => ha (hp a h)

/-! ## The operations -/

section Operations

variable {s : TaskRun}

/-- An operation that leaves attempts and events alone, on a task that rests. -/
theorem ledger_rest {s' : TaskRun} (hs' : s' ∈ db'.taskRuns) (hid : s'.id = s.id)
    (has : db'.taskAttempts = db.taskAttempts) (hes : db'.outboxEvents = db.outboxEvents)
    (hrest : s' = s ∨ Rests s s') :
    MovesLedger db db' s := by
  have has' : db'.attemptsOf s.id = db.attemptsOf s.id := by rw [Db.attemptsOf, has, Db.attemptsOf]
  have hes' : db'.eventsOf s.id = db.eventsOf s.id := by rw [Db.eventsOf, hes, Db.eventsOf]
  rcases hrest with rfl | hrest
  · exact ledger_keep hs' has' hes'
  · exact ledger_move hs' hid has' (hes'.trans (List.append_nil _).symm) (.rest hrest (by simp))

/-- A waiting task that is cancelled rests. -/
theorem rests_cancelled (env : Env) (h : s.status.waiting = true) :
    Rests s { s with status := .cancelled, updatedAt := env.now } := by
  refine ⟨?_, rfl, by simp, rfl, Or.inl ⟨rfl, rfl⟩⟩
  cases hst : s.status <;> simp [hst, TaskStatus.waiting, TaskStatus.idle] at h ⊢

/-- A lease adds an attempt of its task. -/
theorem Db.attemptsOf_lease {w : String} {d : ℤ} {t : TaskRun}
    (h : db'.taskAttempts = db.taskAttempts ++ [newAttempt env w (lease env w d t)]) (id : ℕ) :
    db'.attemptsOf id = db.attemptsOf id ++
      if id = t.id then [newAttempt env w (lease env w d t)] else [] := by
  rw [Db.attemptsOf, h, List.filter_append, Db.attemptsOf]
  split_ifs with hid
  · simp [newAttempt, lease, hid]
  · simp [newAttempt, lease, Ne.symm hid]

theorem leaseTask_ledger (hk : db.Keyed) {id : ℕ} {w : String} {d : ℤ} {t' : TaskRun}
    {uri : Option String} (h : leaseTask env id w d db = .ok ((t', uri), db'))
    (hs : s ∈ db.taskRuns) : MovesLedger db db' s := by
  obtain ⟨t, ht, -, hst, rfl, -, hdb⟩ := leaseTask_ok hk h
  have has := Db.attemptsOf_lease (congrArg Db.taskAttempts hdb) s.id
  have hes := Db.eventsOf_append (congrArg Db.outboxEvents hdb) s.id
  have hmem : (if s.id = t.id then lease env w d s else s) ∈ db'.taskRuns := by
    rw [hdb]
    exact Table.mem_update.2 ⟨s, hs, by simp⟩
  by_cases hid : s.id = t.id
  · obtain rfl := Table.eq_of_key hk.tasks hs ht hid
    rw [if_pos rfl] at has hmem
    rw [filter_aboutTask_self (e := leasedEvent env w (lease env w d s)) s.id rfl rfl] at hes
    exact ledger_move hmem rfl has hes (.lease hst)
  · rw [if_neg hid] at has hmem
    refine ledger_keep hmem (has.trans (List.append_nil _)) ?_
    · simp [hes, leasedEvent, newEvent, lease, Ne.symm hid]

/-- An operation of the worker that holds `t`, on the row of `t` and its current attempt
only. -/
theorem ledger_of_row (hk : db.Keyed) {t : TaskRun} (ht : t ∈ db.taskRuns)
    {row : TaskRun → TaskRun} {p : TaskAttempt → Bool} {g : TaskAttempt → TaskAttempt}
    (htasks : db'.taskRuns = Table.update (fun s => s.id = t.id) row db.taskRuns)
    (hatt : db'.taskAttempts = Table.update p g db.taskAttempts)
    (hp : ∀ a, p a = true → a.taskRunId = t.id) (hg : ∀ a, (g a).taskRunId = a.taskRunId)
    (hev : db'.outboxEvents = db.outboxEvents) (hrow : (row t).id = t.id)
    (hmove : ∀ as es, LedgerMove ⟨t, as, es⟩ ⟨row t, as.map fun a => if p a then g a else a, es⟩)
    (hs : s ∈ db.taskRuns) : MovesLedger db db' s := by
  have hkey : ∀ a, (if p a then g a else a).taskRunId = a.taskRunId := by
    intro a
    split_ifs
    · exact hg a
    · rfl
  have hes : db'.eventsOf s.id = db.eventsOf s.id := by rw [Db.eventsOf, hev, Db.eventsOf]
  have hmem : (if s.id = t.id then row s else s) ∈ db'.taskRuns := by
    rw [htasks]
    exact Table.mem_update.2 ⟨s, hs, by simp⟩
  by_cases hid : s.id = t.id
  · obtain rfl := Table.eq_of_key hk.tasks hs ht hid
    rw [if_pos rfl] at hmem
    exact ledger_move hmem hrow (Db.attemptsOf_map hatt hkey _) hes (hmove _ _)
  · rw [if_neg hid] at hmem
    refine ledger_keep hmem (Db.attemptsOf_map_eq hatt hkey fun a ha => if_neg fun hpa => ?_) hes
    exact hid (ha.symm.trans (hp a hpa))

theorem startTask_ledger (hk : db.Keyed) {id : ℕ} {w : String} {t' : TaskRun}
    (h : startTask env id w db = .ok (t', db')) (hs : s ∈ db.taskRuns) :
    MovesLedger db db' s := by
  obtain ⟨t, r, hheld, -, hst, -, -, hdb⟩ := startTask_ok hk h
  refine ledger_of_row hk hheld.mem (congrArg Db.taskRuns hdb) (congrArg Db.taskAttempts hdb)
    (fun a ha => (of_decide_eq_true ha).1) (fun _ => rfl) (by rw [hdb]) rfl (fun as es => ?_) hs
  refine .hold (by rw [hst]; rfl) rfl rfl rfl (fun hexp => hexp)
    (.of_update (fun a ha => (of_decide_eq_true ha).2.1) fun a => ⟨rfl, rfl, rfl⟩) fun a => ?_
  split_ifs <;> exact ⟨rfl, rfl⟩

theorem heartbeatTask_ledger (hk : db.Keyed) {id : ℕ} {w : String} {d : ℤ} {b : ℤ × Bool}
    (h : heartbeatTask env id w d db = .ok (b, db')) (hs : s ∈ db.taskRuns) :
    MovesLedger db db' s := by
  obtain ⟨t, r, hheld, -, hact, -, hdb⟩ := heartbeatTask_ok hk h
  have hatt : db'.taskAttempts = Table.update (fun _ => false) (fun a => a) db.taskAttempts := by
    rw [hdb]
    simp [Table.update]
  refine ledger_of_row hk hheld.mem (congrArg Db.taskRuns hdb) hatt (by simp) (fun _ => rfl)
    (by rw [hdb]) rfl (fun as es => ?_) hs
  exact .hold hact hact rfl rfl (by simp) (.of_update (by simp) fun a => ⟨rfl, rfl, rfl⟩)
    fun a => ⟨rfl, rfl⟩

/-- The end of a lease that did not complete its attempt. -/
theorem LedgerMove.endLease {t : TaskRun} {as : List TaskAttempt} {es : List OutboxEvent}
    {f : TaskAttempt → TaskAttempt} {e : OutboxEvent} {st : TaskStatus} (available : ℤ)
    (hact : t.status.active = true) (hst : st = .retryWait ∨ st = .dead ∨ st = .cancelled)
    (hf : WritesAttempt t.attemptCount f)
    (hend : ∀ a ∈ as, a.attemptNumber = t.attemptCount →
      (f a).endedAt ≠ none ∧ (f a).exitStatus = some st)
    (he : e.eventType = failureEventType st) (hattempt : e.payload.attempt = some t.attemptCount) :
    LedgerMove ⟨t, as, es⟩ ⟨endLease env st available t, as.map f, es ++ [e]⟩ := by
  have hne : st ≠ .succeeded := by rcases hst with rfl | rfl | rfl <;> simp
  have hevent : endEventType (RunMesh.endLease env st available t).status = failureEventType st :=
    if_neg hne
  exact .finish hact (Or.inr ⟨hst, rfl⟩) rfl rfl hf hend (he.trans hevent.symm) hattempt

theorem completeTask_ledger (hk : db.Keyed) {id : ℕ} {w o a : String} {logs : List String}
    {t' : TaskRun} (h : completeTask env id w o a logs db = .ok (t', db')) (hs : s ∈ db.taskRuns) :
    MovesLedger db db' s := by
  obtain ⟨t, r, hheld, -, hst, -, o', rfl, hdb⟩ := completeTask_ok hk h
  have hatt := congrArg Db.taskAttempts hdb
  have hes := Db.eventsOf_append (congrArg Db.outboxEvents hdb) s.id
  have hmem : completeRow env db t o' a s ∈ db'.taskRuns := by
    rw [hdb]
    exact List.mem_map_of_mem hs
  have hchild : ∀ e ∈ readyEvents env t.workflowRunId (db.taskRuns.filter fun u => Wakes db t u),
      e.eventType = .ready ∧ ∃ u ∈ db.taskRuns, Wakes db t u ∧ e.aggregateId = u.id := by
    intro e he
    obtain ⟨⟨u, n⟩, hu, rfl⟩ := List.mem_map.1 he
    obtain ⟨hu, hwake⟩ := List.mem_filter.1 (List.fst_mem_of_mem_zipIdx hu)
    exact ⟨rfl, u, hu, of_decide_eq_true hwake, rfl⟩
  rw [List.filter_append] at hes
  by_cases hid : s.id = t.id
  · obtain rfl := Table.eq_of_key hk.tasks hs hheld.mem hid
    rw [completeRow, if_pos rfl] at hmem
    -- a task that is woken is blocked, so it is not this one
    rw [filter_aboutTask_eq_nil fun e he hes => ?_, List.nil_append,
      filter_aboutTask_self (e := succeededEvent env _ (succeed env o' a s)) s.id rfl rfl] at hes
    · refine ledger_move hmem rfl (Db.attemptsOf_map hatt (fun b => by split_ifs <;> rfl) _) hes ?_
      refine .finish (by rw [hst]; rfl) (Or.inl ⟨rfl, rfl⟩) rfl rfl
        (.of_update (fun b hb => (of_decide_eq_true hb).2) fun b => ⟨rfl, rfl, rfl⟩)
        (fun b hb hn => ?_) rfl rfl
      simp [Db.taskRunId_of_mem hb, hn, succeed]
    · obtain ⟨-, u, hu, hwake, hid'⟩ := hchild e he
      rw [Table.eq_of_key hk.tasks hu hs (hid'.symm.trans hes)] at hwake
      simp [Wakes, hst] at hwake
  · have has : db'.attemptsOf s.id = db.attemptsOf s.id := by
      refine Db.attemptsOf_map_eq hatt (fun b => by split_ifs <;> rfl) fun b hb => if_neg ?_
      simp [hb, hid]
    have hself : [succeededEvent env (db.taskRuns.filter fun u => Wakes db t u).length
        (succeed env o' a t)].filter (OutboxEvent.aboutTask s.id) = [] :=
      filter_aboutTask_eq_nil fun e he hes => by
        rw [List.mem_singleton.1 he] at hes
        exact hid hes.symm
    rw [hself, List.append_nil] at hes
    by_cases hwake : Wakes db t s
    · rw [completeRow, if_neg hid, if_pos hwake] at hmem
      refine ledger_move hmem rfl has hes ?_
      refine .rest ⟨by rw [hwake.2.1]; rfl, rfl, by simp [wake], rfl, Or.inl ⟨rfl, rfl⟩⟩
        fun e he => ?_
      exact Or.inl (hchild e (List.mem_filter.1 he).1).1
    · rw [completeRow, if_neg hid, if_neg hwake] at hmem
      rw [filter_aboutTask_eq_nil fun e he hes => ?_, List.append_nil] at hes
      · exact ledger_keep hmem has hes
      · obtain ⟨-, u, hu, hwake', hid'⟩ := hchild e he
        rw [Table.eq_of_key hk.tasks hu hs (hid'.symm.trans hes)] at hwake'
        exact hwake hwake'

theorem failTask_ledger (hk : db.Keyed) {id : ℕ} {w : String} {f : Failure} {t' : TaskRun}
    (h : failTask env id w f db = .ok (t', db')) (hs : s ∈ db.taskRuns) :
    MovesLedger db db' s := by
  obtain ⟨t, r, hheld, -, hact, rfl, hdb⟩ := failTask_ok hk h
  have hatt := congrArg Db.taskAttempts hdb
  have hes := Db.eventsOf_append (congrArg Db.outboxEvents hdb) s.id
  have hmem : failRow env f t r s ∈ db'.taskRuns := by
    rw [hdb]
    exact List.mem_map_of_mem hs
  by_cases hid : s.id = t.id
  · obtain rfl := Table.eq_of_key hk.tasks hs hheld.mem hid
    rw [failRow, if_pos rfl] at hmem
    rw [filter_aboutTask_self (e := failedEvent env f _ _ s) s.id rfl rfl] at hes
    refine ledger_move hmem rfl (Db.attemptsOf_map hatt (fun b => by split_ifs <;> rfl) _) hes ?_
    refine .endLease _ hact ?_
      (.of_update (fun b hb => (of_decide_eq_true hb).2) fun b => ⟨rfl, rfl, rfl⟩)
      (fun b hb hn => by simp [Db.taskRunId_of_mem hb, hn]) rfl rfl
    rcases reportStatus_cases f s r with hc | hc | hc <;> simp [hc.1]
  · have has : db'.attemptsOf s.id = db.attemptsOf s.id := by
      refine Db.attemptsOf_map_eq hatt (fun b => by split_ifs <;> rfl) fun b hb => if_neg ?_
      simp [hb, hid]
    rw [filter_aboutTask_eq_nil fun e he hes => ?_] at hes
    · rw [failRow, if_neg hid] at hmem
      unfold cancelWaiting at hmem
      split_ifs at hmem with hdead hwait
      · exact ledger_move hmem rfl has hes (.rest (rests_cancelled env hwait.2) (by simp))
      · exact ledger_keep hmem has (hes.trans (List.append_nil _))
      · exact ledger_keep hmem has (hes.trans (List.append_nil _))
    · rw [List.mem_singleton.1 he] at hes
      exact hid hes.symm

/-- The loop over expired leases ends the attempt of each of them once. -/
theorem foldl_endAttempt_of_mem {es : List (TaskRun × Run)}
    (hnd : (es.map fun e => e.1.id).Nodup) {e : TaskRun × Run} (he : e ∈ es) {a : TaskAttempt}
    (ha : a.taskRunId = e.1.id) :
    es.foldl (fun a e => endAttempt env e a) a = endAttempt env e a := by
  have hother : ∀ e' ∈ es, e' ≠ e → a.taskRunId ≠ e'.1.id :=
    fun e' hmem hne hid => hne (Table.eq_of_key hnd hmem he (hid.symm.trans ha))
  refine Table.foldl_eq_once (g := endAttempt env) hnd.of_map he
    (fun e' hmem hne => if_neg fun h => hother e' hmem hne h.1)
    fun e' hmem hne => if_neg fun h => hother e' hmem hne ?_
  rw [← (endAttempt_key env e a).1]
  exact h.1

/-- It writes no attempt of another task. -/
theorem foldl_endAttempt_of_forall_ne {es : List (TaskRun × Run)} {a : TaskAttempt}
    (h : ∀ e ∈ es, e.1.id ≠ a.taskRunId) : es.foldl (fun a e => endAttempt env e a) a = a :=
  Table.foldl_eq_self fun e he => if_neg fun hp => h e he hp.1.symm

theorem recoverExpired_ledger (hk : db.Keyed) (scan : Scan) (hs : s ∈ db.taskRuns) :
    MovesLedger db (recoverExpired env scan db) s := by
  have hdb : recoverExpired env scan db = _ := recoverExpired_eq scan
  have hatt := congrArg Db.taskAttempts hdb
  have hes := Db.eventsOf_append (congrArg Db.outboxEvents hdb) s.id
  have hmoves : AttemptMoves env db (.recoverExpired scan) (recoverExpired env scan db) _ [] :=
    recoverExpired_attempts scan
  have hkey := fun a => (hmoves.key a).1
  have hmem : expireRow env (expiredLeases env scan db) s ∈
      (recoverExpired env scan db).taskRuns := by
    rw [hdb]
    exact List.mem_map_of_mem hs
  have hnd : ((expiredLeases env scan db).map fun e => e.1.id).Nodup := nodup_expiredLeases hk scan
  by_cases hfound : ∃ e ∈ expiredLeases env scan db, e.1.id = s.id
  · obtain ⟨⟨t, r⟩, he, hid⟩ := hfound
    obtain ⟨ht, -, -, hact, -⟩ := mem_expiredLeases he
    obtain rfl := Table.eq_of_key hk.tasks ht hs hid
    rw [expireRow_of_mem hnd he] at hmem
    obtain ⟨n, hn⟩ := filter_aboutTask_zipIdx (f := fun e => expiredEvent env e.2 e.1)
      (g := fun e => e.1.id) (fun _ => rfl) (fun _ => rfl) hnd he
    rw [hn] at hes
    have has : (recoverExpired env scan db).attemptsOf t.id =
        (db.attemptsOf t.id).map (endAttempt env (t, r)) := by
      rw [Db.attemptsOf_map hatt hkey]
      exact List.map_congr_left fun a ha =>
        foldl_endAttempt_of_mem hnd he (Db.taskRunId_of_mem ha)
    refine ledger_move hmem rfl has hes ?_
    refine .endLease _ hact ?_ ⟨endAttempt_key env (t, r), fun a ha => if_neg fun h => ha h.2⟩
      (fun a ha hn => ?_) rfl rfl
    · rcases expiryStatus_cases (t, r) with hc | hc | hc <;> simp [hc.1]
    · simp [endAttempt, Db.taskRunId_of_mem ha, hn]
  · have hnone : ∀ e ∈ expiredLeases env scan db, e.1.id ≠ s.id :=
      fun e he hid => hfound ⟨e, he, hid⟩
    rw [expireRow_of_notMem hnone] at hmem
    rw [filter_aboutTask_zipIdx_eq_nil (g := fun e => e.1.id) (fun _ => rfl) hnone,
      List.append_nil] at hes
    exact ledger_keep hmem (Db.attemptsOf_map_eq hatt hkey fun a ha =>
      foldl_endAttempt_of_forall_ne (ha ▸ hnone)) hes

theorem dispatchReady_ledger (hk : db.Keyed) (scan : Scan) (hs : s ∈ db.taskRuns) :
    MovesLedger db (dispatchReady env scan db) s := by
  have hdb : dispatchReady env scan db = _ := dispatchReady_eq hk scan
  have hes := Db.eventsOf_append (congrArg Db.outboxEvents hdb) s.id
  have has : (dispatchReady env scan db).attemptsOf s.id = db.attemptsOf s.id := by
    rw [hdb]
    rfl
  have hmem : dispatchRow env ((readyTasks env scan db).map fun e => e.1.id) s ∈
      (dispatchReady env scan db).taskRuns := by
    rw [hdb]
    exact List.mem_map_of_mem hs
  by_cases hfound : ∃ e ∈ readyTasks env scan db, e.1.id = s.id
  · obtain ⟨⟨t, r⟩, he, hid⟩ := hfound
    obtain ⟨ht, -, -, hst, -⟩ := mem_readyTasks he
    obtain rfl := Table.eq_of_key hk.tasks ht hs hid
    obtain ⟨n, hn⟩ := filter_aboutTask_zipIdx (f := fun e => dispatchEvent env e.2 e.1)
      (g := fun e => e.1.id) (fun _ => rfl) (fun _ => rfl) (nodup_readyTasks hk scan) he
    rw [hn] at hes
    rw [dispatchRow, if_pos (List.mem_map.2 ⟨(t, r), he, rfl⟩)] at hmem
    exact ledger_move hmem rfl has hes (.dispatch hst rfl)
  · have hnone : ∀ e ∈ readyTasks env scan db, e.1.id ≠ s.id :=
      fun e he hid => hfound ⟨e, he, hid⟩
    rw [filter_aboutTask_zipIdx_eq_nil (g := fun e => e.1.id) (fun _ => rfl) hnone,
      List.append_nil] at hes
    rw [dispatchRow, if_neg fun h => ?_] at hmem
    · exact ledger_keep hmem has hes
    · obtain ⟨e, he, hid⟩ := List.mem_map.1 h
      exact hnone e he hid

theorem replayDead_ledger (hk : db.Keyed) {tenant id : ℕ} {user : Option ℕ}
    (h : replayDead env tenant user id db = .ok db') (hs : s ∈ db.taskRuns) :
    MovesLedger db db' s := by
  obtain ⟨t, ht, r, -, -, -, -, hdead, hdb⟩ := replayDead_ok h
  have has : db'.attemptsOf s.id = db.attemptsOf s.id := by
    rw [hdb]
    rfl
  have hes := Db.eventsOf_append (congrArg Db.outboxEvents hdb) s.id
  have hmem : replayRow env db t s ∈ db'.taskRuns := by
    rw [hdb]
    exact List.mem_map_of_mem hs
  have hnew : ∀ e ∈ [replayedEvent env t r].filter (OutboxEvent.aboutTask s.id),
      e.eventType = .ready ∨ e.eventType = .replayed := by
    intro e he
    rw [List.mem_singleton.1 (List.mem_filter.1 he).1]
    exact Or.inr rfl
  unfold replayRow at hmem
  split_ifs at hmem with hid hcancelled
  · obtain rfl := Table.eq_of_key hk.tasks hs ht hid
    exact ledger_move hmem rfl has hes
      (.rest ⟨by rw [hdead]; rfl, rfl, by simp [revive], rfl, Or.inl ⟨rfl, rfl⟩⟩ hnew)
  · refine ledger_move hmem rfl has hes
      (.rest ⟨by rw [hcancelled.2]; rfl, ?_, ?_, rfl, Or.inl ⟨rfl, rfl⟩⟩ hnew)
    · unfold rebuild
      dsimp only
      split_ifs <;> rfl
    · unfold rebuild
      dsimp only
      split_ifs <;> simp
  · rw [filter_aboutTask_eq_nil fun e he hes => ?_, List.append_nil] at hes
    · exact ledger_keep hmem has hes
    · rw [List.mem_singleton.1 he] at hes
      exact hid hes.symm

/-- Every successful call moves the ledger of every task. -/
theorem exec_ledger (hk : db.Keyed) {reply : Reply} (h : op.exec env db = .ok (reply, db'))
    (hs : s ∈ db.taskRuns) : MovesLedger db db' s := by
  cases op <;> simp only [Op.exec, map_eq_ok, Prod.mk.injEq, Except.ok.injEq] at h
  case createWorkflow =>
    obtain ⟨⟨d, _⟩, hop, -, rfl⟩ := h
    obtain ⟨-, -, audit, rfl⟩ := createWorkflow_ok hop
    exact ledger_keep hs rfl rfl
  case createVersion =>
    obtain ⟨_, hop, -⟩ := h
    exact absurd hop createVersion_ne_ok
  case createRun =>
    obtain ⟨⟨r, _⟩, hop, -, rfl⟩ := h
    rcases createRun_ok hop with ⟨rfl, -, -⟩ | ⟨d, hd, uri, -, hins⟩
    · exact ledger_keep hs rfl rfl
    · obtain ⟨-, -, artifacts, rfl⟩ := insertRun_ok hins
      refine ledger_keep (List.mem_append_left _ hs) rfl ?_
      simp [Db.eventsOf, runCreatedEvent, newEvent]
  case promoteRetries =>
    obtain ⟨-, rfl⟩ := h
    have hmem : promote env s ∈ (promoteRetries env db).taskRuns := List.mem_map_of_mem hs
    unfold promote at hmem
    split_ifs at hmem with hwait
    · exact ledger_rest hmem rfl rfl rfl
        (Or.inr ⟨by rw [hwait.1]; rfl, rfl, by simp, rfl, Or.inl ⟨rfl, rfl⟩⟩)
    · exact ledger_rest hmem rfl rfl rfl (Or.inl rfl)
  case recoverExpired scan =>
    obtain ⟨-, rfl⟩ := h
    exact recoverExpired_ledger hk scan hs
  case dispatchReady scan =>
    obtain ⟨-, rfl⟩ := h
    exact dispatchReady_ledger hk scan hs
  case leaseTask =>
    obtain ⟨⟨⟨t', uri⟩, _⟩, hop, -, rfl⟩ := h
    exact leaseTask_ledger hk hop hs
  case startTask =>
    obtain ⟨⟨t', _⟩, hop, -, rfl⟩ := h
    exact startTask_ledger hk hop hs
  case heartbeatTask =>
    obtain ⟨⟨b, _⟩, hop, -, rfl⟩ := h
    exact heartbeatTask_ledger hk hop hs
  case completeTask =>
    obtain ⟨⟨t', _⟩, hop, -, rfl⟩ := h
    exact completeTask_ledger hk hop hs
  case failTask =>
    obtain ⟨⟨t', _⟩, hop, -, rfl⟩ := h
    exact failTask_ledger hk hop hs
  case cancelRun tenant user id =>
    obtain ⟨db₁, hop, -, rfl⟩ := h
    obtain ⟨-, hdb⟩ := cancelRun_ok hop
    have hmem : cancelWaiting env id s ∈ db₁.taskRuns := by
      rw [hdb]
      exact List.mem_map_of_mem hs
    unfold cancelWaiting at hmem
    split_ifs at hmem with hwait
    · exact ledger_rest hmem rfl (by rw [hdb]) (by rw [hdb])
        (Or.inr (rests_cancelled env hwait.2))
    · exact ledger_rest hmem rfl (by rw [hdb]) (by rw [hdb]) (Or.inl rfl)
  case retryRun tenant user id =>
    obtain ⟨db₁, hop, -, rfl⟩ := h
    obtain ⟨-, -, hdb⟩ := retryRun_ok hop
    have hmem : (if decide (s.workflowRunId = id ∧ s.status = .dead)
        then { revive env s with leaseOwner := none, leaseExpiresAt := none }
        else s) ∈ db₁.taskRuns := by
      rw [hdb]
      exact List.mem_map_of_mem hs
    split_ifs at hmem with hdead
    · have hdead := of_decide_eq_true hdead
      exact ledger_rest hmem rfl (by rw [hdb]) (by rw [hdb])
        (Or.inr ⟨by rw [hdead.2]; rfl, rfl, by simp [revive], rfl, Or.inr ⟨rfl, rfl⟩⟩)
    · exact ledger_rest hmem rfl (by rw [hdb]) (by rw [hdb]) (Or.inl rfl)
  case replayDead =>
    obtain ⟨_, hop, -, rfl⟩ := h
    exact replayDead_ledger hk hop hs

end Operations

/-! ## Whole histories -/

/-- A task that was just created. -/
structure NewTask (t : TaskRun) : Prop where
  status : t.status = .ready ∨ t.status = .blocked
  attemptCount : t.attemptCount = 0
  leaseOwner : t.leaseOwner = none
  leaseExpiresAt : t.leaseExpiresAt = none

/-- A fresh task has no attempt and no event. -/
theorem Creates.ledger_newTask {run : Run} {dag : DAG} (h : Creates env op db db' run dag)
    (hf : db.Fresh env) (hb : AttemptsBounded db)
    (hev : ∀ e ∈ db.outboxEvents, db.EventOf e e.orderingKey) (entry : String × TaskSpec) :
    db'.ledger (newTaskRun env run dag entry) = ⟨newTaskRun env run dag entry, [], []⟩ := by
  have hatt : db'.attemptsOf (newTaskRun env run dag entry).id = [] := by
    rw [Db.attemptsOf, h.attempts, List.filter_eq_nil_iff]
    intro a ha hid
    obtain ⟨t, ht, htid, -⟩ := hb a ha
    exact hf.task_ne ht _ (htid.trans (of_decide_eq_true hid))
  have hes : db'.eventsOf (newTaskRun env run dag entry).id = [] := by
    rw [Db.eventsOf_append h.events, List.append_eq_nil_iff]
    constructor
    · rw [Db.eventsOf, List.filter_eq_nil_iff]
      intro e he habout
      obtain ⟨htype, hid⟩ := OutboxEvent.aboutTask_iff.1 habout
      rcases hev e he with ⟨hrun, -⟩ | ⟨-, t, ht, htid, -⟩
      · simp [htype] at hrun
      · exact hf.task_ne ht _ (htid.trans hid)
    · simp [runCreatedEvent, newEvent]
  rw [Db.ledger, hatt, hes]

/-- A call moves the ledger of a task, or the task is new. -/
theorem Reachable.ledger_next {s : State} (h : Reachable s) {c : Call}
    (hc : controlPlane.allowed s c) {t' : TaskRun}
    (ht' : t' ∈ (controlPlane.next s c).db.taskRuns) :
    (∃ t ∈ s.db.taskRuns, t'.id = t.id ∧
      LedgerMove (s.db.ledger t) ((controlPlane.next s c).db.ledger t')) ∨
    NewTask t' ∧ (controlPlane.next s c).db.ledger t' = ⟨t', [], []⟩ := by
  have hkeyed := h.wellFormed.toKeyed
  have hkeyed' := (h.next hc).wellFormed.toKeyed
  rw [controlPlane_next_db] at ht' hkeyed' ⊢
  cases hexec : c.exec s.db with
  | error e =>
    rw [Call.after_of_error hexec] at ht' ⊢
    exact Or.inl ⟨t', ht', rfl, .keep _⟩
  | ok r =>
    obtain ⟨reply, db'⟩ := r
    rw [Call.after_of_ok hexec] at ht' hkeyed' ⊢
    have hold : ∀ t ∈ s.db.taskRuns, t'.id = t.id → ∃ t ∈ s.db.taskRuns, t'.id = t.id ∧
        LedgerMove (s.db.ledger t) (db'.ledger t') := by
      intro t ht hid
      obtain ⟨u, hu, huid, hm⟩ := exec_ledger hkeyed hexec ht
      obtain rfl := Table.eq_of_key hkeyed'.tasks hu ht' (huid.trans hid.symm)
      exact ⟨t, ht, huid, hm⟩
    rcases exec_moves hkeyed hexec with hm | ⟨run, dag, hcr⟩
    · obtain ⟨t, ht, hmove⟩ := hm.of_mem_task ht'
      exact Or.inl (hold t ht hmove.id)
    · have hmem := ht'
      rw [hcr.tasks, List.mem_append, List.mem_map] at hmem
      rcases hmem with ht | ⟨entry, -, rfl⟩
      · exact Or.inl (hold t' ht rfl)
      · exact Or.inr ⟨⟨newTaskRun_status _ _ _ _, rfl, rfl, rfl⟩,
          hcr.ledger_newTask hc.2 h.attemptsBounded h.eventOf_orderingKey entry⟩

/-- What holds of the ledger of a new task and is kept by each move holds of the ledger of
every task. -/
theorem Reachable.forall_ledger {P : Ledger → Prop} (hnew : ∀ t, NewTask t → P ⟨t, [], []⟩)
    (hmove : ∀ l l', LedgerMove l l' → P l → P l') {s : State} (h : Reachable s) :
    ∀ t ∈ s.db.taskRuns, P (s.db.ledger t) := by
  refine h.induction_next (P := fun s => ∀ t ∈ s.db.taskRuns, P (s.db.ledger t))
    (fun s h0 => by simp [h0.taskRuns]) fun s c hs hc hP t' ht' => ?_
  rcases hs.ledger_next hc ht' with ⟨t, ht, -, hm⟩ | ⟨hn, hl⟩
  · exact hmove _ _ hm (hP t ht)
  · rw [hl]
    exact hnew t' hn

end RunMesh
