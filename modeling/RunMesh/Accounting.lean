import RunMesh.Bookkeeping

/-!
# Events and attempts

The outbox accounts for the attempts of a task (`Ledger.Accounted`) : its leases are
announced in the order of their numbers, each attempt that has ended is announced once, with
the status it ended in, and a dispatch was announced for each attempt and for the one about
to be leased. As for the bookkeeping, each of the six moves of a ledger keeps the account.
The dispatches themselves are counted along the history, where a task is dispatched whenever
a call takes it from ready to dispatching.
-/

namespace RunMesh

/-- An attempt ends in one of these statuses. -/
def TaskStatus.ends : TaskStatus → Bool
  | .succeeded | .retryWait | .dead | .cancelled => true
  | _ => false

/-- `task.succeeded`, `task.retry_wait`, `task.dead` or `task.cancelled`. -/
def EventType.ends : EventType → Bool
  | .succeeded | .retryWait | .dead | .cancelled => true
  | _ => false

theorem endEventType_ends (st : TaskStatus) : (endEventType st).ends = true := by
  unfold endEventType failureEventType
  split_ifs <;> rfl

/-- How an attempt ended, as it is announced. -/
def TaskAttempt.ending (a : TaskAttempt) : Option (EventType × Option ℕ) :=
  a.exitStatus.map fun st => (endEventType st, some a.attemptNumber)

/-- The attempts announced as leased. -/
def leasesIn (es : List OutboxEvent) : List (Option ℕ) :=
  (es.filter fun e => e.eventType = .leased).map fun e => e.payload.attempt

/-- The attempts announced as ended. -/
def endingsIn (es : List OutboxEvent) : List (EventType × Option ℕ) :=
  (es.filter fun e => e.eventType.ends).map fun e => (e.eventType, e.payload.attempt)

/-- The number of announced dispatches. -/
def dispatchesIn (es : List OutboxEvent) : ℕ :=
  es.countP fun e => e.eventType = .dispatch

section Appended

variable {es new : List OutboxEvent}

@[simp] theorem leasesIn_append : leasesIn (es ++ new) = leasesIn es ++ leasesIn new := by
  simp [leasesIn]

@[simp] theorem endingsIn_append : endingsIn (es ++ new) = endingsIn es ++ endingsIn new := by
  simp [endingsIn]

@[simp] theorem dispatchesIn_append :
    dispatchesIn (es ++ new) = dispatchesIn es + dispatchesIn new := by
  simp [dispatchesIn]

/-- Events that announce neither a dispatch, nor a lease, nor its end. -/
theorem announce_nothing (h : ∀ e ∈ new, e.eventType = .ready ∨ e.eventType = .replayed) :
    leasesIn new = [] ∧ endingsIn new = [] ∧ dispatchesIn new = 0 := by
  simp only [leasesIn, endingsIn, dispatchesIn, List.map_eq_nil_iff, List.filter_eq_nil_iff,
    List.countP_eq_zero]
  refine ⟨fun e he => ?_, fun e he => ?_, fun e he => ?_⟩ <;>
    rcases h e he with h | h <;> simp [h, EventType.ends]

end Appended

/-- The events of a task agree with its attempts. -/
structure Ledger.Accounted (l : Ledger) : Prop where
  leased : leasesIn l.events = (List.range' 1 l.task.attemptCount).map some
  ended : endingsIn l.events = l.attempts.filterMap TaskAttempt.ending
  exits : ∀ a ∈ l.attempts, ∀ st, a.exitStatus = some st → st.ends = true
  dispatched : l.task.attemptCount ≤ dispatchesIn l.events
  dispatching : l.task.status = .dispatching → l.task.attemptCount < dispatchesIn l.events

/-- While a worker holds the task its last attempt comes last. -/
theorem Ledger.Bookkept.eq_append_last {t : TaskRun} {as : List TaskAttempt}
    {es : List OutboxEvent} (h : Ledger.Bookkept ⟨t, as, es⟩) (hst : t.status.active = true) :
    ∃ init a, as = init ++ [a] ∧ a.attemptNumber = t.attemptCount ∧ a.exitStatus = none ∧
      ∀ b ∈ init, b.attemptNumber ≠ t.attemptCount := by
  have hnum : as.map TaskAttempt.attemptNumber = List.range' 1 t.attemptCount := h.numbered
  have hpos : 0 < t.attemptCount := h.counted hst
  obtain ⟨k, hk⟩ : ∃ k, t.attemptCount = k + 1 := Nat.exists_eq_succ_of_ne_zero hpos.ne'
  rcases List.eq_nil_or_concat' as with rfl | ⟨init, a, rfl⟩
  · simp [hk, List.range'_succ] at hnum
  · rw [hk, range'_one_succ, List.map_append, List.map_singleton] at hnum
    obtain ⟨hinit, hlast⟩ := List.append_inj' hnum rfl
    have ha : a.attemptNumber = t.attemptCount := by
      rw [hk]
      exact List.singleton_inj.1 hlast
    refine ⟨init, a, rfl, ha, ((h.last a (by simp) ha).1.1 hst).2, fun b hb hn => ?_⟩
    have hmem := List.mem_map_of_mem (f := TaskAttempt.attemptNumber) hb
    rw [hinit, List.mem_range'_1] at hmem
    omega

namespace Ledger.Accounted

variable {t t' : TaskRun} {as : List TaskAttempt} {es new : List OutboxEvent} {e : OutboxEvent}

theorem rest (h : Ledger.Accounted ⟨t, as, es⟩) (hrest : Rests t t')
    (hnew : ∀ e ∈ new, e.eventType = .ready ∨ e.eventType = .replayed) :
    Ledger.Accounted ⟨t', as, es ++ new⟩ := by
  obtain ⟨hl, he, hd⟩ := announce_nothing hnew
  refine ⟨?_, ?_, h.exits, ?_, fun hst => absurd hst hrest.ne_dispatching⟩
  · simpa [hl, hrest.attemptCount] using h.leased
  · simpa [he] using h.ended
  · simpa [hd, hrest.attemptCount] using h.dispatched

theorem dispatch (h : Ledger.Accounted ⟨t, as, es⟩) (he : e.eventType = .dispatch) (env : Env) :
    Ledger.Accounted ⟨{ t with status := .dispatching, updatedAt := env.now }, as, es ++ [e]⟩ := by
  obtain ⟨hl, hends, hd⟩ : leasesIn [e] = [] ∧ endingsIn [e] = [] ∧ dispatchesIn [e] = 1 := by
    simp [leasesIn, endingsIn, dispatchesIn, he, EventType.ends]
  have hle : t.attemptCount ≤ dispatchesIn es := h.dispatched
  refine ⟨?_, ?_, h.exits, ?_, fun _ => ?_⟩
  · simpa [hl] using h.leased
  · simpa [hends] using h.ended
  · simp only [dispatchesIn_append, hd]
    omega
  · simp only [dispatchesIn_append, hd]
    omega

theorem lease (h : Ledger.Accounted ⟨t, as, es⟩) (hst : t.status = .dispatching) (env : Env)
    (w : String) (d : ℤ) : Ledger.Accounted
      ⟨lease env w d t, as ++ [newAttempt env w (lease env w d t)],
        es ++ [leasedEvent env w (lease env w d t)]⟩ := by
  obtain ⟨hl, hends, hd⟩ : leasesIn [leasedEvent env w (RunMesh.lease env w d t)] =
        [some (t.attemptCount + 1)] ∧
      endingsIn [leasedEvent env w (RunMesh.lease env w d t)] = [] ∧
      dispatchesIn [leasedEvent env w (RunMesh.lease env w d t)] = 0 := by
    simp [leasesIn, endingsIn, dispatchesIn, leasedEvent, newEvent, EventType.ends, RunMesh.lease]
  have hopen : [newAttempt env w (RunMesh.lease env w d t)].filterMap TaskAttempt.ending = [] := rfl
  have hlt : t.attemptCount < dispatchesIn es := h.dispatching hst
  refine ⟨?_, ?_, fun a ha st hexit => ?_, ?_, fun hst => by cases hst⟩
  · change leasesIn (es ++ _) = (List.range' 1 (t.attemptCount + 1)).map some
    rw [leasesIn_append, hl, range'_one_succ, List.map_append, h.leased]
    rfl
  · simpa [hends, hopen] using h.ended
  · rcases List.mem_append.1 ha with ha | ha
    · exact h.exits a ha st hexit
    · rw [List.mem_singleton.1 ha] at hexit
      cases hexit
  · change t.attemptCount + 1 ≤ dispatchesIn (es ++ _)
    rwa [dispatchesIn_append, hd]

theorem hold {f : TaskAttempt → TaskAttempt} (h : Ledger.Accounted ⟨t, as, es⟩)
    (hst' : t'.status.active = true) (hcount : t'.attemptCount = t.attemptCount)
    (hf : WritesAttempt t.attemptCount f) (hopen : ∀ a, (f a).exitStatus = a.exitStatus) :
    Ledger.Accounted ⟨t', as.map f, es⟩ := by
  have hending : ∀ a, (f a).ending = a.ending := by
    intro a
    rw [TaskAttempt.ending, hopen a, (hf.key a).2.1, TaskAttempt.ending]
  refine ⟨?_, ?_, ?_, ?_, fun hd => ?_⟩
  · simpa [hcount] using h.leased
  · rw [List.filterMap_map]
    simpa [Function.comp_def, hending] using h.ended
  · simp only [List.forall_mem_map, hopen]
    exact h.exits
  · simpa [hcount] using h.dispatched
  · rw [show t'.status = .dispatching from hd] at hst'
    cases hst'

/-- The attempt that ends is the last, so its announcement comes last too. -/
theorem finish {f : TaskAttempt → TaskAttempt} (h : Ledger.Accounted ⟨t, as, es⟩)
    (hb : Ledger.Bookkept ⟨t, as, es⟩) (hst : t.status.active = true)
    (hst' : t'.status.ends = true) (hcount : t'.attemptCount = t.attemptCount)
    (hf : WritesAttempt t.attemptCount f)
    (hend : ∀ a ∈ as, a.attemptNumber = t.attemptCount → (f a).exitStatus = some t'.status)
    (he : e.eventType = endEventType t'.status)
    (hattempt : e.payload.attempt = some t.attemptCount) :
    Ledger.Accounted ⟨t', as.map f, es ++ [e]⟩ := by
  obtain ⟨init, a, rfl, hn, hnone, hother⟩ := hb.eq_append_last hst
  have hinit : init.map f = init :=
    (List.map_congr_left fun b hb => hf.other b (hother b hb)).trans (List.map_id' _)
  have hexit := hend a (by simp) hn
  have hends : e.eventType.ends = true := by
    rw [he]
    exact endEventType_ends _
  obtain ⟨hl, hd⟩ : leasesIn [e] = [] ∧ dispatchesIn [e] = 0 := by
    constructor <;> cases htype : e.eventType <;>
      simp [leasesIn, dispatchesIn, htype, EventType.ends] at hends ⊢
  have hone : endingsIn [e] = [(endEventType t'.status, some t.attemptCount)] := by
    rw [endingsIn, List.filter_singleton, hends]
    simp [he, hattempt]
  have hbefore : [a].filterMap TaskAttempt.ending = [] := by simp [TaskAttempt.ending, hnone]
  have hafter : [f a].filterMap TaskAttempt.ending =
      [(endEventType t'.status, some t.attemptCount)] := by
    simp [TaskAttempt.ending, hexit, (hf.key a).2.1, hn]
  rw [List.map_append, hinit, List.map_singleton]
  refine ⟨?_, ?_, fun b hb st hbexit => ?_, ?_, fun hdisp => ?_⟩
  · simpa [hl, hcount] using h.leased
  · have hended := h.ended
    rw [List.filterMap_append, hbefore, List.append_nil] at hended
    rw [List.filterMap_append, hafter, endingsIn_append, hone, hended]
  · rcases List.mem_append.1 hb with hb | hb
    · exact h.exits b (List.mem_append_left _ hb) st hbexit
    · rw [List.mem_singleton.1 hb, hexit, Option.some.injEq] at hbexit
      rwa [← hbexit]
  · simpa [hd, hcount] using h.dispatched
  · rw [show t'.status = .dispatching from hdisp] at hst'
    cases hst'

end Ledger.Accounted

/-- Each move of a ledger keeps the account. -/
theorem LedgerMove.accounted {l l' : Ledger} (h : LedgerMove l l') (hb : l.Bookkept)
    (ha : l.Accounted) : l'.Accounted := by
  cases h with
  | keep => exact ha
  | rest hrest hnew => exact ha.rest hrest hnew
  | dispatch _ he => exact ha.dispatch he _
  | lease hst => exact ha.lease hst _ _ _
  | hold _ hst' hcount _ _ hf hopen => exact ha.hold hst' hcount hf fun a => (hopen a).2
  | finish hst hst' _ hcount hf hend he hattempt =>
    refine ha.finish hb hst ?_ hcount hf (fun a ha hn => (hend a ha hn).2) he hattempt
    rcases hst' with ⟨hs, -⟩ | ⟨hs | hs | hs, -⟩ <;> rw [hs] <;> rfl

theorem Reachable.accounted {s : State} (h : Reachable s) :
    ∀ t ∈ s.db.taskRuns, (s.db.ledger t).Accounted := by
  intro t ht
  refine (h.forall_ledger (P := fun l => l.Bookkept ∧ l.Accounted) (fun t hnew => ⟨?_, ?_⟩)
    (fun l l' hm hl => ⟨hm.bookkept hl.1, hm.accounted hl.1 hl.2⟩) t ht).2
  · exact hnew.bookkept
  · refine ⟨?_, rfl, by simp, ?_, fun hd => ?_⟩
    · rw [hnew.attemptCount]
      rfl
    · rw [hnew.attemptCount]
      exact Nat.zero_le _
    · rcases hnew.status with hs | hs <;> simp [hs] at hd

/-! ## Dispatches along a history -/

/-- The status of a task. -/
def Db.statusOf (db : Db) (taskId : ℕ) : Option TaskStatus :=
  (db.taskRuns.find? fun t => t.id = taskId).map TaskRun.status

theorem Db.statusOf_of_mem {db : Db} (hk : db.Keyed) {t : TaskRun} (ht : t ∈ db.taskRuns) :
    db.statusOf t.id = some t.status := by
  rw [statusOf, Table.find?_key hk.tasks ht, Option.map_some]

theorem Db.statusOf_eq_none {db : Db} {id : ℕ} (h : ∀ t ∈ db.taskRuns, t.id ≠ id) :
    db.statusOf id = none := by
  rw [statusOf, Option.map_eq_none_iff, List.find?_eq_none]
  simpa using h

/-- The call takes the task from ready to dispatching. -/
def dispatchedBy (taskId : ℕ) (s : State) (c : Call) : Bool :=
  s.db.statusOf taskId = some .ready ∧
    (controlPlane.next s c).db.statusOf taskId = some .dispatching

/-- A dispatch is announced when the task goes from ready to dispatching, and only then. -/
theorem LedgerMove.dispatchesIn_events {l l' : Ledger} (h : LedgerMove l l') :
    dispatchesIn l'.events = dispatchesIn l.events +
      (decide (l.task.status = .ready ∧ l'.task.status = .dispatching)).toNat := by
  cases h with
  | keep =>
    have hne : ¬(l.task.status = .ready ∧ l.task.status = .dispatching) := by
      rintro ⟨h, h'⟩
      simp [h] at h'
    simp [hne]
  | rest hrest hnew => simp [hrest.ne_dispatching, (announce_nothing hnew).2.2]
  | dispatch hst he => simp [hst, dispatchesIn, he]
  | lease hst => simp [hst, dispatchesIn, leasedEvent, newEvent]
  | @hold t _ _ _ _ hst =>
    have hne : t.status ≠ .ready := by
      rintro h
      simp [h, TaskStatus.active] at hst
    simp [hne]
  | @finish t t' _ _ _ e hst _ _ _ _ _ he =>
    have hne : t.status ≠ .ready := by
      rintro h
      simp [h, TaskStatus.active] at hst
    have hends := endEventType_ends t'.status
    have htype : e.eventType ≠ .dispatch := by
      rintro h
      rw [← he, h] at hends
      cases hends
    simp [hne, dispatchesIn, htype]

/-- A task that is not there has no event. -/
theorem Reachable.eventsOf_eq_nil {s : State} (h : Reachable s) {id : ℕ}
    (hid : ∀ t ∈ s.db.taskRuns, t.id ≠ id) : s.db.eventsOf id = [] := by
  rw [Db.eventsOf, List.filter_eq_nil_iff]
  intro e he habout
  obtain ⟨htype, haid⟩ := OutboxEvent.aboutTask_iff.1 habout
  rcases h.eventOf_orderingKey e he with ⟨hrun, -⟩ | ⟨-, t, ht, htid, -⟩
  · simp [htype] at hrun
  · exact hid t ht (htid.trans haid)

/-- A call announces a dispatch of a task if it dispatches it, and no other. -/
theorem Reachable.dispatchesIn_next {s : State} (h : Reachable s) {c : Call}
    (hc : controlPlane.allowed s c) (id : ℕ) :
    dispatchesIn ((controlPlane.next s c).db.eventsOf id) =
      dispatchesIn (s.db.eventsOf id) + (dispatchedBy id s c).toNat := by
  have hnext := h.next hc
  by_cases hold : ∃ t ∈ s.db.taskRuns, t.id = id
  · obtain ⟨t, ht, rfl⟩ := hold
    obtain ⟨t', ht', hid, hm⟩ : MovesLedger s.db (controlPlane.next s c).db t :=
      controlPlane_step (P := fun db => MovesLedger s.db db t) ⟨t, ht, rfl, .keep _⟩
        fun reply db' hok => exec_ledger h.wellFormed.toKeyed hok ht
    have hcount := hm.dispatchesIn_events
    have hst' := Db.statusOf_of_mem hnext.wellFormed.toKeyed ht'
    rw [hid] at hst'
    simp only [Db.ledger, hid] at hcount
    simp only [dispatchedBy, Db.statusOf_of_mem h.wellFormed.toKeyed ht, hst', Option.some.injEq]
    exact hcount
  · have hnone : ∀ t ∈ s.db.taskRuns, t.id ≠ id := fun t ht hid => hold ⟨t, ht, hid⟩
    have hnil : (controlPlane.next s c).db.eventsOf id = [] := by
      by_cases hnew : ∃ t' ∈ (controlPlane.next s c).db.taskRuns, t'.id = id
      · obtain ⟨t', ht', rfl⟩ := hnew
        rcases h.ledger_next hc ht' with ⟨t, ht, hid, -⟩ | ⟨-, hl⟩
        · exact absurd hid.symm (hnone t ht)
        · exact congrArg Ledger.events hl
      · exact hnext.eventsOf_eq_nil fun t' ht' hid => hnew ⟨t', ht', hid⟩
    rw [hnil, h.eventsOf_eq_nil hnone]
    simp [dispatchedBy, Db.statusOf_eq_none hnone]

/-- There are as many events `task.dispatch` of a task as calls that dispatched it. -/
theorem dispatchesIn_eq_countAlong {s₀ : State} (h0 : Init s₀) {cs : List Call}
    (hv : controlPlane.Valid s₀ cs) (id : ℕ) :
    dispatchesIn ((controlPlane.run s₀ cs).db.eventsOf id) =
      controlPlane.countAlong (dispatchedBy id) s₀ cs := by
  have hstart : dispatchesIn (s₀.db.eventsOf id) = 0 := by
    simp [Db.eventsOf, h0.outboxEvents, dispatchesIn]
  rw [controlPlane.eq_add_countAlong (I := Reachable)
    (f := fun s => dispatchesIn (s.db.eventsOf id)) (p := dispatchedBy id)
    (fun s c hs hc => hs.next hc) (fun s c hs hc => hs.dispatchesIn_next hc id)
    h0.reachable hv, hstart, Nat.zero_add]

/-! ## One attempt -/

theorem TaskAttempt.ending_snd {a : TaskAttempt} {x : EventType × Option ℕ}
    (h : a.ending = some x) : x.2 = some a.attemptNumber := by
  obtain ⟨st, -, rfl⟩ := Option.map_eq_some_iff.1 h
  rfl

/-- Among attempts with different numbers, the endings with the number of one are its own. -/
theorem filter_ending {as : List TaskAttempt} (hnd : (as.map TaskAttempt.attemptNumber).Nodup)
    {a : TaskAttempt} (ha : a ∈ as) :
    (as.filterMap TaskAttempt.ending).filter (fun x => x.2 = some a.attemptNumber) =
      a.ending.toList := by
  have hself : a.ending.toList.filter (fun x => x.2 = some a.attemptNumber) = a.ending.toList :=
    List.filter_eq_self.2 fun x hx =>
      decide_eq_true (TaskAttempt.ending_snd (Option.mem_toList.1 hx))
  induction as with
  | nil => cases ha
  | cons b as ih =>
    rw [List.map_cons, List.nodup_cons] at hnd
    have hcons : (b :: as).filterMap TaskAttempt.ending =
        b.ending.toList ++ as.filterMap TaskAttempt.ending := by
      cases hb : b.ending <;> simp [hb]
    rw [hcons, List.filter_append]
    rcases List.mem_cons.1 ha with rfl | ha
    · have hrest : (as.filterMap TaskAttempt.ending).filter
          (fun x => x.2 = some a.attemptNumber) = [] := by
        rw [List.filter_eq_nil_iff]
        intro x hx hxa
        obtain ⟨c, hc, hcx⟩ := List.mem_filterMap.1 hx
        rw [TaskAttempt.ending_snd hcx] at hxa
        exact hnd.1 (List.mem_map.2 ⟨c, hc, by simpa using hxa⟩)
      rw [hself, hrest, List.append_nil]
    · have hne : b.attemptNumber ≠ a.attemptNumber :=
        fun h => hnd.1 (h ▸ List.mem_map_of_mem ha)
      have hfirst : b.ending.toList.filter (fun x => x.2 = some a.attemptNumber) = [] := by
        rw [List.filter_eq_nil_iff]
        intro x hx
        simp [TaskAttempt.ending_snd (Option.mem_toList.1 hx), hne]
      rw [hfirst, List.nil_append, ih hnd.2 ha]

/-- The events that announce the end of the attempt with the number `n`. -/
def endsOf (n : ℕ) (es : List OutboxEvent) : List EventType :=
  (es.filter fun e => e.eventType.ends ∧ e.payload.attempt = some n).map OutboxEvent.eventType

theorem endsOf_eq (n : ℕ) (es : List OutboxEvent) :
    endsOf n es = ((endingsIn es).filter fun x => x.2 = some n).map Prod.fst := by
  rw [endsOf, endingsIn, List.filter_map, List.map_map, List.filter_filter]
  congr 1
  refine List.filter_congr fun e _ => ?_
  simp [Bool.and_comm]

theorem countP_leased (n : ℕ) (es : List OutboxEvent) :
    (es.countP fun e => e.eventType = .leased ∧ e.payload.attempt = some n) =
      (leasesIn es).count (some n) := by
  rw [leasesIn, List.count, List.countP_map, List.countP_filter]
  refine List.countP_congr fun e _ => ?_
  simp [and_comm]

/-- An attempt has ended or it has not. -/
theorem Ledger.Bookkept.closed_or_open {l : Ledger} (h : l.Bookkept) {a : TaskAttempt}
    (ha : a ∈ l.attempts) : a.Closed ∨ a.Open := by
  by_cases hn : a.attemptNumber = l.task.attemptCount
  · cases hst : l.task.status.active with
    | false => exact Or.inl ((h.last a ha hn).2.1 hst)
    | true => exact Or.inr ((h.last a ha hn).1.1 hst)
  · exact Or.inl (h.earlier a ha hn)

/-- The one announcement of a lease. -/
theorem Ledger.Accounted.countP_leased_eq_one {l : Ledger} (h : l.Accounted) {n : ℕ} (h1 : 1 ≤ n)
    (hn : n ≤ l.task.attemptCount) :
    (l.events.countP fun e => e.eventType = .leased ∧ e.payload.attempt = some n) = 1 := by
  rw [countP_leased, h.leased]
  exact List.count_eq_one_of_mem (List.Nodup.map (Option.some_injective _) List.nodup_range')
    (List.mem_map_of_mem (List.mem_range'_1.2 ⟨h1, Nat.lt_one_add_iff.2 hn⟩))

/-- The announcements of the end of an attempt. -/
theorem Ledger.Accounted.endsOf_attempt {l : Ledger} (h : l.Accounted) (hb : l.Bookkept)
    {a : TaskAttempt} (ha : a ∈ l.attempts) :
    endsOf a.attemptNumber l.events = a.ending.toList.map Prod.fst := by
  have hnd : (l.attempts.map TaskAttempt.attemptNumber).Nodup := by
    rw [hb.numbered]
    exact List.nodup_range'
  rw [endsOf_eq, h.ended, filter_ending hnd ha]

/-- Outbox events account for attempts : after every history, each attempt of every task has
one event `task.leased`, and one event for its end, of the type of its exit status, if and
only if it has ended. The events `task.dispatch` are as many as the calls that dispatched
the task, at least as many as its attempts, and more while it is dispatching. -/
theorem outbox_accounts_for_attempts {s₀ : State} (h0 : Init s₀) {cs : List Call}
    (hv : controlPlane.Valid s₀ cs) {t : TaskRun} (ht : t ∈ (controlPlane.run s₀ cs).db.taskRuns) :
    let db := (controlPlane.run s₀ cs).db
    (∀ n, 1 ≤ n → n ≤ t.attemptCount →
      ((db.eventsOf t.id).countP fun e => e.eventType = .leased ∧ e.payload.attempt = some n) = 1 ∧
      ∃ a ∈ db.attemptsOf t.id, a.attemptNumber = n ∧
        (a.Closed ∧ (∃ st, st.ends = true ∧ a.exitStatus = some st ∧
          endsOf n (db.eventsOf t.id) = [endEventType st]) ∨
        a.Open ∧ endsOf n (db.eventsOf t.id) = [])) ∧
    dispatchesIn (db.eventsOf t.id) = controlPlane.countAlong (dispatchedBy t.id) s₀ cs ∧
    t.attemptCount ≤ dispatchesIn (db.eventsOf t.id) ∧
    (t.status = .dispatching → t.attemptCount < dispatchesIn (db.eventsOf t.id)) := by
  intro db
  have hr : Reachable (controlPlane.run s₀ cs) := ⟨s₀, cs, h0, hv, rfl⟩
  have hb := hr.bookkept t ht
  have ha := hr.accounted t ht
  refine ⟨fun n h1 hn => ⟨ha.countP_leased_eq_one h1 hn, ?_⟩, dispatchesIn_eq_countAlong h0 hv t.id,
    ha.dispatched, ha.dispatching⟩
  have hmem : n ∈ (db.attemptsOf t.id).map TaskAttempt.attemptNumber := by
    rw [show db.attemptsOf t.id = (db.ledger t).attempts from rfl, hb.numbered]
    exact List.mem_range'_1.2 ⟨h1, Nat.lt_one_add_iff.2 hn⟩
  obtain ⟨a, hat, rfl⟩ := List.mem_map.1 hmem
  have hends : endsOf a.attemptNumber (db.eventsOf t.id) = _ := ha.endsOf_attempt hb hat
  refine ⟨a, hat, rfl, ?_⟩
  rcases hb.closed_or_open hat with hc | ho
  · obtain ⟨st, hst⟩ := Option.ne_none_iff_exists'.1 hc.2
    refine Or.inl ⟨hc, st, ha.exits a hat st hst, hst, ?_⟩
    rw [hends, TaskAttempt.ending, hst]
    rfl
  · refine Or.inr ⟨ho, ?_⟩
    rw [hends, TaskAttempt.ending, ho.2]
    rfl

/-- Both attempts of the retried task were leased and dispatched, and the first has ended. -/
theorem outbox_accounts_for_attempts_retriedChain :
    ∃ t ∈ (twoDefinitions.after retriedChain).db.taskRuns, t.attemptCount = 2 ∧
      2 ≤ controlPlane.countAlong (dispatchedBy t.id) twoDefinitions
        (play twoDefinitions retriedChain) := by
  obtain ⟨t, ht, hn⟩ : ∃ t ∈ (twoDefinitions.after retriedChain).db.taskRuns,
      t.attemptCount = 2 := by decide
  obtain ⟨-, hcount, hle, -⟩ := outbox_accounts_for_attempts init_twoDefinitions
    (valid_play retriedChain twoDefinitions (by decide)) ht
  exact ⟨t, ht, hn, by rw [← hcount, ← hn]; exact hle⟩

end RunMesh
