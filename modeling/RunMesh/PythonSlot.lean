import Mathlib.Data.List.TakeWhile
import Mathlib.Data.Nat.Notation

/-!
# A slot of the Python worker

`Worker._consume_loop` and `Worker._process` of `sdk/python/runmesh/worker.py`, with the
exceptions they raise, catch and let through. A slot is a task that consumes records one after
the other, and an exception that leaves `_process` ends it, while the worker goes on reporting
that it is alive.

`_process` leases and starts the task and then runs the handler beside a second task, the
heartbeat. What the heartbeat learns is seen at three places : a cancelled run when the handler
has returned, and a failed request of the heartbeat itself at the end, where the heartbeat is
awaited. A `Record` has the outcomes of all the requests, and the heartbeats that are answered
while the slot waits for its handler, for its uploads and the completion, and for its failure
report. Uploads and downloads succeed.
-/

namespace RunMesh

namespace PythonSlot

/-! ## Outcomes -/

/-- The exceptions. `asyncio.CancelledError` is not an `Exception`. -/
inductive PyError
  | conflict | permanentError | retryableError | timeoutError | cancelledError
  /-- Another `Exception`. -/
  | other (name : String)
  deriving DecidableEq, Repr

/-- `type(exc).__name__`. -/
def PyError.name : PyError → String
  | conflict => "Conflict"
  | permanentError => "PermanentError"
  | retryableError => "RetryableError"
  | timeoutError => "TimeoutError"
  | cancelledError => "CancelledError"
  | other name => name

/-- How a request ends. -/
inductive RpcOutcome
  | success | conflict
  deriving DecidableEq, Repr

/-- How a request of the heartbeat ends. -/
inductive Beat
  | alive | cancelled | conflict
  deriving DecidableEq, Repr

/-- How the handler ends : with a result, encoded in so many bytes, or with an exception, a
timeout included. -/
inductive HandlerEnd
  | returned (size : ℕ)
  | raised (e : PyError)
  deriving DecidableEq, Repr

/-- A record, and what happens while it is processed. -/
structure Record where
  offset : ℕ
  /-- The header `event_type`. -/
  eventType : Option String
  handler : String
  lease : RpcOutcome
  start : RpcOutcome
  /-- The heartbeats answered until the handler ends. -/
  runBeats : List Beat
  result : HandlerEnd
  /-- The heartbeats answered during the uploads and the completion. -/
  completeBeats : List Beat
  complete : RpcOutcome
  /-- The heartbeats answered during the report of a failure. -/
  failBeats : List Beat
  fail : RpcOutcome
  deriving DecidableEq, Repr

/-- The requests a slot makes for a task. -/
inductive Request
  | lease | start
  | uploadOutput | uploadLog
  | complete
  | fail (retryable : Bool) (errorType : String)
  deriving DecidableEq, Repr

/-- The state of a slot : the two events it shares with its heartbeat, and what it has done. -/
structure Slot where
  /-- `context._cancelled`. -/
  cancelled : Bool
  /-- The exception that ended the heartbeat. -/
  heartbeat : Option PyError
  /-- The offsets committed. -/
  commits : List ℕ
  requests : List Request
  deriving DecidableEq, Repr

/-- Code of the slot. -/
abbrev Py := EStateM PyError Slot

/-! ## The code -/

/-- A request that raises `Conflict`. -/
def rpc (request : Request) (outcome : RpcOutcome) : Py Unit := do
  modify fun s => { s with requests := s.requests ++ [request] }
  if outcome = .conflict then throw .conflict

/-- `consumer.commit()`. -/
def commit (r : Record) : Py Unit :=
  modify fun s => { s with commits := s.commits ++ [r.offset] }

/-- One request of `_heartbeat`. Its task ends with the first `Conflict`. -/
def beat (s : Slot) : Beat → Slot
  | .alive => s
  | .cancelled => if s.heartbeat = none then { s with cancelled := true } else s
  | .conflict => if s.heartbeat = none then { s with heartbeat := some .conflict } else s

/-- What the heartbeat does while the slot waits. -/
def wait (beats : List Beat) : Py Unit :=
  modify fun s => beats.foldl beat s

/-- `asyncio.create_task(self._heartbeat(...))`, with a new context. -/
def startHeartbeat : Py Unit :=
  modify fun s => { s with cancelled := false, heartbeat := none }

/-- `heartbeat.cancel()` and `await heartbeat`, which raises the exception of a heartbeat that
has ended. Only a `CancelledError` is suppressed. -/
def stopHeartbeat : Py Unit := do
  match (← get).heartbeat with
  | none => pure ()
  | some e => throw e

/-- `context.raise_if_cancelled()`. -/
def raiseIfCancelled : Py Unit := do
  if (← get).cancelled then throw .cancelledError

/-- `_report_failure`. -/
def reportFailure (r : Record) (e : PyError) (retryable : Bool) : Py Unit := do
  wait r.failBeats
  tryCatch (rpc (.fail retryable e.name) r.fail) fun e =>
    if e = .conflict then pure () else throw e

/-- The uploads and the completion of a result. -/
def deliver (r : Record) (size : ℕ) : Py Unit := do
  if 256 * 1024 < size then rpc .uploadOutput .success
  rpc .uploadLog .success
  wait r.completeBeats
  rpc .complete r.complete

/-- The body of the `try` of `_process`. -/
def execute (r : Record) : Py Unit := do
  wait r.runBeats
  match r.result with
  | .raised e => throw e
  | .returned size =>
    raiseIfCancelled
    deliver r size

/-- The `except` clauses of `_process`. -/
def recover (r : Record) (e : PyError) : Py Unit :=
  match e with
  | .permanentError => reportFailure r e false
  | .retryableError | .timeoutError => reportFailure r e true
  | .cancelledError => do
    reportFailure r .retryableError true
    throw .cancelledError
  | .conflict | .other _ => reportFailure r e true

/-- The `try` statement of `_process`. -/
def attempt (r : Record) : Py Unit :=
  tryFinally (tryCatch (execute r) (recover r)) stopHeartbeat

/-- The lease, and whether it succeeded. -/
def tryLease (r : Record) : Py Bool :=
  tryCatch (do rpc .lease r.lease; pure true) fun e =>
    if e = .conflict then pure false else throw e

/-- `Worker._process`. -/
def process (handlers : List String) (r : Record) : Py Unit := do
  if r.handler ∉ handlers then
    commit r
  else
    let leased ← tryLease r
    if leased then
      rpc .start r.start
      startHeartbeat
      attempt r
      commit r
    else commit r

/-- One turn of `Worker._consume_loop`. -/
def consume (handlers : List String) (r : Record) : Py Unit :=
  if r.eventType = some "task.dispatch" then process handlers r else commit r

/-- `Worker._consume_loop`, for a worker that is not stopping. -/
def consumeLoop (handlers : List String) : List Record → Py Unit
  | [] => pure ()
  | r :: rs => do
    consume handlers r
    consumeLoop handlers rs

/-! ## Which records a slot survives -/

/-- The handler ends with an exception other than a cancellation, or with a result while the run
is not known to be cancelled. -/
def Record.Ends (r : Record) : Prop :=
  match r.result with
  | .returned _ => .cancelled ∉ r.runBeats
  | .raised e => e ≠ .cancelledError

/-- No heartbeat that is made raises `Conflict` : until the handler ends, then during the
completion of a result, and then during the report of a failure. -/
def Record.Beats (r : Record) : Prop :=
  .conflict ∉ r.runBeats ∧
    match r.result with
    | .returned _ => .conflict ∉ r.completeBeats ∧
        (r.complete = .conflict → .conflict ∉ r.failBeats)
    | .raised _ => .conflict ∉ r.failBeats

/-- The slot leases the task of the record. -/
def Record.Taken (handlers : List String) (r : Record) : Prop :=
  r.eventType = some "task.dispatch" ∧ r.handler ∈ handlers ∧ r.lease = .success

/-- The slot survives the record. -/
def Record.Survivable (handlers : List String) (r : Record) : Prop :=
  r.Taken handlers → r.start = .success ∧ r.Beats ∧ r.Ends

instance (r : Record) : Decidable r.Ends := by
  unfold Record.Ends
  split <;> infer_instance

instance (r : Record) : Decidable r.Beats :=
  @instDecidableAnd _ _ _ (match r.result with
    | .returned _ => inferInstanceAs (Decidable (_ ∧ (_ → _)))
    | .raised _ => inferInstanceAs (Decidable (_ ∉ _)))

instance (handlers : List String) (r : Record) : Decidable (r.Taken handlers) :=
  inferInstanceAs (Decidable (_ ∧ _))

instance (handlers : List String) (r : Record) : Decidable (r.Survivable handlers) :=
  inferInstanceAs (Decidable (_ → _))

/-! ## The heartbeat -/

theorem commits_wait (beats : List Beat) (s : Slot) :
    (beats.foldl beat s).commits = s.commits := by
  induction beats generalizing s with
  | nil => rfl
  | cons b beats ih =>
    rw [List.foldl_cons, ih]
    cases b <;> simp only [beat] <;> split_ifs <;> rfl

/-- The heartbeat has ended if it had, or if a request of it conflicts. -/
theorem heartbeat_wait (beats : List Beat) (s : Slot) :
    (beats.foldl beat s).heartbeat = none ↔ s.heartbeat = none ∧ .conflict ∉ beats := by
  induction beats generalizing s with
  | nil => simp
  | cons b beats ih =>
    rw [List.foldl_cons, ih]
    cases b with
    | alive => simp [beat]
    | cancelled => by_cases hs : s.heartbeat = none <;> simp [beat, hs]
    | conflict => by_cases hs : s.heartbeat = none <;> simp [beat, hs]

/-- While the heartbeat runs, it learns of a cancellation if one is reported. -/
theorem cancelled_wait {beats : List Beat} (hbeats : .conflict ∉ beats) {s : Slot}
    (hs : s.heartbeat = none) :
    (beats.foldl beat s).cancelled = true ↔ s.cancelled = true ∨ .cancelled ∈ beats := by
  induction beats generalizing s with
  | nil => simp
  | cons b beats ih =>
    rw [List.mem_cons, not_or] at hbeats
    rw [List.foldl_cons]
    cases b with
    | alive => simpa [beat] using ih hbeats.2 hs
    | cancelled => simpa [beat, hs] using ih hbeats.2 (s := { s with cancelled := true }) hs
    | conflict => exact absurd rfl hbeats.1

/-! ## One record -/

theorem run_tryCatch (x : Py Unit) (handle : PyError → Py Unit) (s : Slot) :
    (tryCatch x handle).run s =
      match x.run s with
      | .ok a s' => .ok a s'
      | .error e s' => (handle e).run s' := by
  change EStateM.tryCatch x handle s = _
  unfold EStateM.tryCatch EStateM.run
  cases x s <;> rfl

theorem run_tryFinally (x finish : Py Unit) (s : Slot) :
    (tryFinally x finish).run s =
      match x.run s with
      | .ok _ s' => finish.run s'
      | .error e s' =>
        match finish.run s' with
        | .ok _ s'' => .error e s''
        | .error e' s'' => .error e' s'' := by
  cases hx : x.run s with
  | ok a s' =>
    cases hf : finish.run s' <;>
      simp_all [tryFinally, MonadFinally.tryFinally', EStateM.run, Functor.map, EStateM.map]
  | error e s' =>
    cases hf : finish.run s' <;>
      simp_all [tryFinally, MonadFinally.tryFinally', EStateM.run, Functor.map, EStateM.map]

/-- A report never raises. -/
theorem reportFailure_run (r : Record) (e : PyError) (retryable : Bool) (s : Slot) :
    ∃ s', s'.commits = s.commits ∧
      (s'.heartbeat = none ↔ s.heartbeat = none ∧ .conflict ∉ r.failBeats) ∧
      (reportFailure r e retryable).run s = .ok () s' := by
  refine ⟨{ r.failBeats.foldl beat s with
    requests := (r.failBeats.foldl beat s).requests ++ [.fail retryable e.name] },
    commits_wait _ _, heartbeat_wait _ _, ?_⟩
  cases hfail : r.fail with
  | _ =>
    simp only [reportFailure, rpc, wait, hfail, EStateM.run_bind, EStateM.run_modify]
    rfl

theorem deliver_run (r : Record) (size : ℕ) (s : Slot) :
    ∃ s', s'.commits = s.commits ∧
      (s'.heartbeat = none ↔ s.heartbeat = none ∧ .conflict ∉ r.completeBeats) ∧
      (deliver r size).run s =
        if r.complete = .conflict then .error .conflict s' else .ok () s' := by
  let uploads : List Request :=
    if 256 * 1024 < size then [.uploadOutput, .uploadLog] else [.uploadLog]
  let after := r.completeBeats.foldl beat { s with requests := s.requests ++ uploads }
  refine ⟨{ after with requests := after.requests ++ [.complete] }, commits_wait _ _,
    heartbeat_wait _ _, ?_⟩
  by_cases hsize : 256 * 1024 < size <;> cases hc : r.complete <;>
    simp [deliver, rpc, wait, after, uploads, hsize, hc]

theorem execute_run (r : Record) (s : Slot) :
    (execute r).run s =
      match r.result with
      | .raised e => .error e (r.runBeats.foldl beat s)
      | .returned size =>
        if (r.runBeats.foldl beat s).cancelled then
          .error .cancelledError (r.runBeats.foldl beat s)
        else (deliver r size).run (r.runBeats.foldl beat s) := by
  cases hresult : r.result with
  | raised e => simp [execute, wait, hresult]
  | returned size =>
    cases hc : (r.runBeats.foldl beat s).cancelled <;>
      simp [execute, wait, hresult, raiseIfCancelled, hc]

/-- What the `except` clauses do : they report, and let a cancellation through. -/
theorem recover_run (r : Record) (e : PyError) (s : Slot) :
    ∃ s', s'.commits = s.commits ∧
      (s'.heartbeat = none ↔ s.heartbeat = none ∧ .conflict ∉ r.failBeats) ∧
      (recover r e).run s =
        if e = .cancelledError then .error .cancelledError s' else .ok () s' := by
  cases e with
  | cancelledError =>
    obtain ⟨s', hcommits, hbeat, hrun⟩ := reportFailure_run r .retryableError true s
    exact ⟨s', hcommits, hbeat, by simp [recover, hrun]⟩
  | permanentError =>
    obtain ⟨s', hcommits, hbeat, hrun⟩ := reportFailure_run r .permanentError false s
    exact ⟨s', hcommits, hbeat, by simp [recover, hrun]⟩
  | conflict | retryableError | timeoutError | other =>
    obtain ⟨s', hcommits, hbeat, hrun⟩ := reportFailure_run r _ true s
    exact ⟨s', hcommits, hbeat, hrun⟩

/-- The `try` of `_process` with its `except` clauses, for a heartbeat that has just started : it
ends well, and then the heartbeat runs exactly if the record is as it should be, or it lets a
cancellation through. -/
theorem settle_run (r : Record) {s : Slot} (hrun : s.cancelled = false)
    (hbeat : s.heartbeat = none) :
    ∃ s', s'.commits = s.commits ∧
      ((tryCatch (execute r) (recover r)).run s = .ok () s' ∧
          (s'.heartbeat = none ↔ r.Beats ∧ r.Ends) ∨
        (tryCatch (execute r) (recover r)).run s = .error .cancelledError s' ∧
          ¬(r.Beats ∧ r.Ends)) := by
  have hexec := execute_run r s
  have hbeats := heartbeat_wait r.runBeats s
  cases hresult : r.result with
  | raised e =>
    obtain ⟨s', hcommits, hheart, hrec⟩ := recover_run r e (r.runBeats.foldl beat s)
    rw [hresult] at hexec
    refine ⟨s', hcommits.trans (commits_wait _ _), ?_⟩
    simp only [run_tryCatch, hexec, hrec]
    by_cases he : e = .cancelledError
    · exact .inr ⟨if_pos he, fun h => by simp [Record.Ends, hresult, he] at h⟩
    · refine .inl ⟨if_neg he, ?_⟩
      rw [hheart, hbeats]
      simp [Record.Beats, Record.Ends, hresult, he, hbeat]
  | returned size =>
    rw [hresult] at hexec
    have hends : .conflict ∉ r.runBeats →
        ((r.runBeats.foldl beat s).cancelled = false ↔ r.Ends) := by
      intro hno
      have hknown := cancelled_wait hno hbeat
      simp only [hrun, Bool.false_eq_true, false_or] at hknown
      simp [Record.Ends, hresult, ← hknown]
    by_cases hc : (r.runBeats.foldl beat s).cancelled = true
    · obtain ⟨s', hcommits, -, hrec⟩ := recover_run r .cancelledError (r.runBeats.foldl beat s)
      refine ⟨s', hcommits.trans (commits_wait _ _), .inr ⟨?_, fun h => ?_⟩⟩
      · simp only [run_tryCatch, hexec, if_pos hc]
        exact hrec
      · have hfalse := (hends h.1.1).2 h.2
        rw [hc] at hfalse
        cases hfalse
    · obtain ⟨s₁, hcommits₁, hbeat₁, hdeliver⟩ := deliver_run r size (r.runBeats.foldl beat s)
      simp only [if_neg hc, hdeliver] at hexec
      rw [hbeats] at hbeat₁
      have hruns : .conflict ∉ r.runBeats → r.Ends :=
        fun hno => (hends hno).1 (Bool.eq_false_iff.2 hc)
      cases hcomplete : r.complete with
      | success =>
        refine ⟨s₁, hcommits₁.trans (commits_wait _ _), .inl ⟨?_, ?_⟩⟩
        · simp only [run_tryCatch, hexec, hcomplete, reduceCtorEq, if_false]
        · have hbeats' : r.Beats ↔ .conflict ∉ r.runBeats ∧ .conflict ∉ r.completeBeats := by
            simp [Record.Beats, hresult, hcomplete]
          rw [hbeat₁, hbeats', and_iff_left_of_imp fun h => hruns h.1]
          simp [hbeat]
      | conflict =>
        obtain ⟨s₂, hcommits₂, hbeat₂, hrec⟩ := recover_run r .conflict s₁
        refine ⟨s₂, hcommits₂.trans (hcommits₁.trans (commits_wait _ _)), .inl ⟨?_, ?_⟩⟩
        · simp only [run_tryCatch, hexec, hcomplete]
          exact hrec
        · have hbeats' : r.Beats ↔ .conflict ∉ r.runBeats ∧ .conflict ∉ r.completeBeats ∧
              .conflict ∉ r.failBeats := by
            simp [Record.Beats, hresult, hcomplete]
          rw [hbeat₂, hbeat₁, hbeats', and_iff_left_of_imp fun h => hruns h.1]
          simp [hbeat, and_assoc]

theorem stopHeartbeat_run (s : Slot) :
    stopHeartbeat.run s =
      match s.heartbeat with
      | none => .ok () s
      | some e => .error e s := by
  cases hs : s.heartbeat <;> simp [stopHeartbeat, hs]

/-- A record that the slot takes and starts. -/
theorem attempt_run (r : Record) {s : Slot} (hrun : s.cancelled = false)
    (hbeat : s.heartbeat = none) :
    ∃ s', s'.commits = s.commits ∧
      if r.Beats ∧ r.Ends then
        (attempt r).run s = .ok () s'
      else ∃ e, (attempt r).run s = .error e s' := by
  obtain ⟨s', hcommits, hsettle⟩ := settle_run r hrun hbeat
  refine ⟨s', hcommits, ?_⟩
  rcases hsettle with ⟨hok, hiff⟩ | ⟨herr, hnot⟩
  · simp only [attempt, run_tryFinally, hok, stopHeartbeat_run]
    cases hheart : s'.heartbeat with
    | none => rw [if_pos (hiff.1 hheart)]
    | some e =>
      rw [if_neg fun h => by rw [hiff.2 h] at hheart; cases hheart]
      exact ⟨e, rfl⟩
  · simp only [attempt, run_tryFinally, herr, stopHeartbeat_run, if_neg hnot]
    cases s'.heartbeat with
    | none => exact ⟨_, rfl⟩
    | some e => exact ⟨e, rfl⟩

theorem tryLease_run (r : Record) (s : Slot) :
    (tryLease r).run s =
      .ok (r.lease = .success) { s with requests := s.requests ++ [.lease] } := by
  cases hlease : r.lease <;> simp only [tryLease, rpc, hlease] <;> rfl

/-- A record the slot does not take is committed. -/
theorem consume_run_of_not_taken {handlers : List String} {r : Record}
    (h : ¬r.Taken handlers) (s : Slot) :
    ∃ s', (consume handlers r).run s = .ok () s' ∧ s'.commits = s.commits ++ [r.offset] := by
  by_cases htype : r.eventType = some "task.dispatch"
  · by_cases hhandler : r.handler ∈ handlers
    · cases hlease : r.lease with
      | success => exact absurd ⟨htype, hhandler, hlease⟩ h
      | conflict =>
        refine ⟨{ s with requests := s.requests ++ [.lease], commits := s.commits ++ [r.offset] },
          ?_, rfl⟩
        simp [consume, htype, process, hhandler, tryLease_run, hlease, commit]
    · exact ⟨_, by simp [consume, htype, process, hhandler, commit]; rfl, rfl⟩
  · exact ⟨_, by simp [consume, htype, commit]; rfl, rfl⟩

/-- A record the slot takes is started, and then executed beside its heartbeat. -/
theorem consume_run_of_taken {handlers : List String} {r : Record} (h : r.Taken handlers)
    (s : Slot) :
    ∃ s₁, s₁.commits = s.commits ∧ s₁.cancelled = false ∧ s₁.heartbeat = none ∧
      (consume handlers r).run s =
        if r.start = .conflict then
          .error .conflict { s with requests := s.requests ++ [.lease] ++ [.start] }
        else
          match (attempt r).run s₁ with
          | .ok _ s' => .ok () { s' with commits := s'.commits ++ [r.offset] }
          | .error e s' => .error e s' := by
  obtain ⟨htype, hhandler, hlease⟩ := h
  refine ⟨⟨false, none, s.commits, s.requests ++ [.lease] ++ [.start]⟩, rfl, rfl, rfl, ?_⟩
  cases hstart : r.start with
  | conflict => simp [consume, htype, process, hhandler, tryLease_run, rpc, hlease, hstart]
  | success =>
    simp [consume, htype, process, hhandler, tryLease_run, rpc, hlease, hstart, startHeartbeat,
      commit]
    generalize (attempt r).run _ = result
    cases result <;> rfl

/-- A slot commits a record it survives, once, and dies of any other without committing it. -/
theorem consume_run (handlers : List String) (r : Record) (s : Slot) :
    ∃ s', if r.Survivable handlers then
        (consume handlers r).run s = .ok () s' ∧ s'.commits = s.commits ++ [r.offset]
      else ∃ e, (consume handlers r).run s = .error e s' ∧ s'.commits = s.commits := by
  by_cases htaken : r.Taken handlers
  · have hsurvives : r.Survivable handlers ↔ r.start = .success ∧ r.Beats ∧ r.Ends :=
      ⟨fun h => h htaken, fun h _ => h⟩
    obtain ⟨s₁, hcommits₁, hcancelled, hbeat, hrun⟩ := consume_run_of_taken htaken s
    cases hstart : r.start with
    | conflict =>
      rw [if_pos hstart] at hrun
      refine ⟨{ s with requests := s.requests ++ [.lease] ++ [.start] }, ?_⟩
      rw [if_neg fun h => by simp [hsurvives, hstart] at h]
      exact ⟨_, hrun, rfl⟩
    | success =>
      rw [if_neg (by simp [hstart])] at hrun
      obtain ⟨s₂, hcommits₂, hattempt⟩ := attempt_run r hcancelled hbeat
      by_cases hgood : r.Beats ∧ r.Ends
      · rw [if_pos hgood] at hattempt
        simp only [hattempt] at hrun
        refine ⟨{ s₂ with commits := s₂.commits ++ [r.offset] }, ?_⟩
        rw [if_pos (hsurvives.2 ⟨hstart, hgood⟩)]
        exact ⟨hrun, by simp only [hcommits₂, hcommits₁]⟩
      · rw [if_neg hgood] at hattempt
        obtain ⟨e, hattempt⟩ := hattempt
        simp only [hattempt] at hrun
        refine ⟨s₂, ?_⟩
        rw [if_neg fun h => hgood (hsurvives.1 h).2]
        exact ⟨e, hrun, hcommits₂.trans hcommits₁⟩
  · obtain ⟨s', hrun, hcommits⟩ := consume_run_of_not_taken htaken s
    refine ⟨s', ?_⟩
    rw [if_pos (show r.Survivable handlers from fun h => absurd h htaken)]
    exact ⟨hrun, hcommits⟩

/-! ## The loop -/

theorem consumeLoop_cons_run (handlers : List String) (r : Record) (rs : List Record) (s : Slot) :
    (consumeLoop handlers (r :: rs)).run s =
      match (consume handlers r).run s with
      | .ok _ s' => (consumeLoop handlers rs).run s'
      | .error e s' => .error e s' := by
  rw [consumeLoop, EStateM.run_bind]
  cases (consume handlers r).run s <;> rfl

/-- The loop goes through all records and commits each once if the slot survives them all.
Otherwise it ends with an exception at the first one it does not survive, which it does not
commit. -/
theorem consumeLoop_run (handlers : List String) (rs : List Record) (s : Slot) :
    ∃ s', s'.commits = s.commits ++
        (rs.takeWhile fun r => r.Survivable handlers).map Record.offset ∧
      if ∀ r ∈ rs, r.Survivable handlers then (consumeLoop handlers rs).run s = .ok () s'
      else ∃ e, (consumeLoop handlers rs).run s = .error e s' := by
  induction rs generalizing s with
  | nil => exact ⟨s, by simp, by simp [consumeLoop]⟩
  | cons r rs ih =>
    obtain ⟨s₁, hfirst⟩ := consume_run handlers r s
    rw [consumeLoop_cons_run]
    by_cases hr : r.Survivable handlers
    · rw [if_pos hr] at hfirst
      obtain ⟨s', hcommits, hrest⟩ := ih s₁
      refine ⟨s', ?_, ?_⟩
      · rw [hcommits, hfirst.2]
        simp [hr]
      · simpa [hfirst.1, hr] using hrest
    · rw [if_neg hr] at hfirst
      obtain ⟨e, hrun, hcommits⟩ := hfirst
      refine ⟨s₁, ?_, ?_⟩
      · rw [hcommits]
        simp [hr]
      · rw [if_neg fun h => hr (h r (by simp)), hrun]
        exact ⟨e, rfl⟩

/-- For every sequence of records and outcomes, no exception escapes and each record is committed
once, in order, exactly if the slot survives each record : it does not take it, or `Start`
succeeds, no heartbeat raises `Conflict`, and neither the handler nor the check after it finds
the run cancelled. -/
theorem slot_survives_iff (handlers : List String) (rs : List Record) (s : Slot) :
    (∃ s', (consumeLoop handlers rs).run s = .ok () s' ∧
        s'.commits = s.commits ++ rs.map Record.offset) ↔
      ∀ r ∈ rs, r.Survivable handlers := by
  obtain ⟨s', hcommits, hrun⟩ := consumeLoop_run handlers rs s
  by_cases hall : ∀ r ∈ rs, r.Survivable handlers
  · rw [if_pos hall] at hrun
    refine iff_of_true ⟨s', hrun, ?_⟩ hall
    rw [hcommits, List.takeWhile_eq_self_iff.2 fun r hr => decide_eq_true (hall r hr)]
  · rw [if_neg hall] at hrun
    obtain ⟨e, hrun⟩ := hrun
    refine iff_of_false ?_ hall
    rintro ⟨s'', hok, -⟩
    rw [hrun] at hok
    cases hok

/-- A dispatch that goes well. -/
def plainRecord : Record where
  offset := 5
  eventType := some "task.dispatch"
  handler := "examples.greet"
  lease := .success
  start := .success
  runBeats := [.alive]
  result := .returned 10
  completeBeats := []
  complete := .success
  failBeats := []
  fail := .success

/-- A slot dies of a conflict of `Start`, of a conflict of the heartbeat, and of a cancelled run,
and commits nothing. -/
theorem slot_dies :
    let worker := consumeLoop ["examples.greet"]
    let fresh : Slot := ⟨false, none, [], []⟩
    (∃ s, (worker [{ plainRecord with start := .conflict }]).run fresh = .error .conflict s ∧
      s.commits = []) ∧
    (∃ s, (worker [{ plainRecord with runBeats := [.conflict] }]).run fresh =
      .error .conflict s ∧ s.commits = []) ∧
    ∃ s, (worker [{ plainRecord with runBeats := [.cancelled] }]).run fresh =
      .error .cancelledError s ∧ s.commits = [] :=
  ⟨⟨_, rfl, rfl⟩, ⟨_, rfl, rfl⟩, ⟨_, rfl, rfl⟩⟩

end PythonSlot

end RunMesh
