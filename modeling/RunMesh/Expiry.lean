import RunMesh.Reopening

/-!
# Failure reports and expired leases

A worker that gives up reports a failure, and the lease of a worker that is gone expires.
`failTask` and `recoverExpired` decide alike what becomes of the task : cancelled with its
run, waiting for a retry, or dead. They write the task, its run, its attempt and an event
the same way, up to the times and the error texts.

They differ in one case. When the task is dead, `failTask` cancels the waiting tasks of the
run, and `recoverExpired` leaves them. `failure_expiry_agree_iff` says that this is the only
difference.
-/

namespace RunMesh

open Fallible

variable {env₁ env₂ : Env} {db db₁ : Db} {t : TaskRun} {r : Run}

/-! ## What is compared -/

/-- A run row, of its completion only whether there was one. -/
def Run.timeless (r : Run) : Run :=
  { r with completedAt := r.completedAt.map fun _ => 0 }

/-- An attempt row without times and error texts. -/
def TaskAttempt.bare (a : TaskAttempt) : TaskAttempt :=
  { a with
    endedAt := a.endedAt.map fun _ => 0
    errorType := none
    errorMessage := none
    traceId := none }

/-- The type of an event, the row it is about, and its payload without times and error
texts. -/
def OutboxEvent.gist (e : OutboxEvent) : AggregateType × ℕ × EventType × Payload :=
  (e.aggregateType, e.aggregateId, e.eventType,
    { e.payload with availableAt := none, errorType := none, errorMessage := none })

/-- The databases differ in times and error texts only. -/
structure SameOutcome (db₁ db₂ : Db) : Prop where
  runs : db₁.workflowRuns.map Run.timeless = db₂.workflowRuns.map Run.timeless
  tasks : db₁.taskRuns.map TaskRun.timeless = db₂.taskRuns.map TaskRun.timeless
  attempts : db₁.taskAttempts.map TaskAttempt.bare = db₂.taskAttempts.map TaskAttempt.bare
  events : db₁.outboxEvents.map OutboxEvent.gist = db₂.outboxEvents.map OutboxEvent.gist

/-- The lease ends with the last attempt of the task while tasks of its run wait. -/
def LeavesWaiting (db : Db) (t : TaskRun) (r : Run) : Prop :=
  r.status ≠ .cancelled ∧ t.maximumAttempts ≤ t.attemptCount ∧
    ∃ u ∈ db.taskRuns, u.workflowRunId = r.id ∧ u.status.waiting = true

/-! ## One expired lease -/

/-- A recovery that sees one task finds its expired lease. -/
theorem expiredLeases_singleton (hk : db.Keyed) (ht : t ∈ db.taskRuns) (hr : r ∈ db.workflowRuns)
    (hrid : r.id = t.workflowRunId) (hact : t.status.active = true) {x : ℤ}
    (hx : t.leaseExpiresAt = some x) (hexpired : x ≤ env₂.now) {scan : Scan}
    (hscan : scan.ids = [t.id]) : expiredLeases env₂ scan db = [(t, r)] := by
  have hrows : scan.rows db = [(t, r)] := by
    have hfind : db.taskRuns.find? (fun u => u.id = t.id) = some t := Table.find?_key hk.tasks ht
    have hrun : db.workflowRuns.filter (fun q => q.id = t.workflowRunId) = [r] := by
      rw [← hrid]
      exact Table.filter_key hk.runs hr
    simp [Scan.rows, hscan, hfind, Table.join, hrun]
  simp [expiredLeases, hrows, hact, hx, hexpired]

/-- The recovery of one lease. -/
theorem recoverExpired_singleton {scan : Scan} (h : expiredLeases env₂ scan db = [(t, r)]) :
    recoverExpired env₂ scan db = recoverLease env₂ db ((t, r), 0) := by
  rw [recoverExpired, h]
  rfl

/-- A retryable report gives a task the status its expiry gives it. -/
theorem reportStatus_eq_expiryStatus {f : Failure} (hf : f.retryable = true) :
    reportStatus f t r = expiryStatus (t, r) := by
  rw [reportStatus, expiryStatus, hf]

theorem failRun_timeless (id : ℕ) (q : Run) :
    (failRun env₁ id q).timeless = (failRun env₂ id q).timeless := by
  unfold failRun
  split_ifs <;> rfl

/-! ## The two paths -/

/-- A dead task is one without attempts left in a run that was not cancelled. -/
theorem expiryStatus_eq_dead_iff :
    expiryStatus (t, r) = .dead ↔ r.status ≠ .cancelled ∧ t.maximumAttempts ≤ t.attemptCount := by
  rcases expiryStatus_cases (t, r) with hc | hc | hc
  · simp [hc.1, show r.status = .cancelled from hc.2]
  · simpa [hc.1, hc.2.1] using hc.2.2
  · simpa [hc.1, hc.2.1] using hc.2.2

/-- The task rows differ in the siblings a dead task leaves waiting. -/
theorem failRow_timeless_iff {f : Failure} (hf : f.retryable = true)
    (hrid : r.id = t.workflowRunId) (hact : t.status.active = true) (hk : db.Keyed)
    (ht : t ∈ db.taskRuns) :
    (∀ u ∈ db.taskRuns, (failRow env₁ f t r u).timeless = (expire env₂ (t, r) u).timeless) ↔
      ¬LeavesWaiting db t r := by
  have hother : ∀ u : TaskRun, u.id ≠ t.id → expire env₂ (t, r) u = u := fun u hid => if_neg hid
  constructor
  · rintro hsame ⟨hopen, hspent, u, hu, hur, hwait⟩
    have hid : u.id ≠ t.id := by
      intro hid
      rw [Table.eq_of_key hk.tasks hu ht hid] at hwait
      cases hst : t.status <;> simp [hst, TaskStatus.active, TaskStatus.waiting] at hact hwait
    have hdead : reportStatus f t r = .dead := by
      rw [reportStatus_eq_expiryStatus hf]
      exact expiryStatus_eq_dead_iff.2 ⟨hopen, hspent⟩
    have hstatus := congrArg TaskRun.status (hsame u hu)
    rw [hother u hid] at hstatus
    simp only [failRow, hid, hdead, cancelWaiting, ← hrid, hur, hwait, TaskRun.timeless, if_false,
      if_true, and_self] at hstatus
    rw [← hstatus] at hwait
    cases hwait
  · intro hnone u hu
    by_cases hid : u.id = t.id
    · simp [failRow, expire, hid, reportStatus_eq_expiryStatus hf, endLease, TaskRun.timeless]
    · rw [hother u hid]
      congr 1
      rw [failRow, if_neg hid]
      split_ifs with hdead
      · rw [reportStatus_eq_expiryStatus hf] at hdead
        obtain ⟨hopen, hspent⟩ := expiryStatus_eq_dead_iff.1 hdead
        rw [cancelWaiting, if_neg]
        rintro ⟨hur, hwait⟩
        exact hnone ⟨hopen, hspent, u, hu, hur.trans hrid.symm, hwait⟩
      · rfl

/-- A retryable failure reported before the lease expires, and the recovery of the lease once
it has expired, differ only in times and error texts, unless the task has no attempt left in
a run that was not cancelled and has waiting tasks. -/
theorem failure_expiry_agree_iff {s : State} (h : Reachable s) {w : String}
    (hheld : Holds env₁ s.db w t r) (hact : t.status.active = true) {f : Failure}
    (hf : f.retryable = true) {scan : Scan} (hscan : scan.ids = [t.id])
    (hexpired : ∀ x, t.leaseExpiresAt = some x → x ≤ env₂.now) :
    ∃ t₁ db₁, failTask env₁ t.id w f s.db = .ok (t₁, db₁) ∧
      (SameOutcome db₁ (recoverExpired env₂ scan s.db) ↔ ¬LeavesWaiting s.db t r) := by
  have hk := h.wellFormed.toKeyed
  obtain ⟨t₁, db₁, hfail⟩ := failTask_of_holds hheld hact f
  obtain ⟨t₀, r₀, hheld₀, hid, -, -, hdb₁⟩ := failTask_ok hk hfail
  obtain ⟨rfl, rfl⟩ := hheld₀.unique hk hheld hid.symm
  have hlease : expiredLeases env₂ scan s.db = [(t, r)] := by
    obtain ⟨x, hx, -⟩ := hheld.unexpired
    exact expiredLeases_singleton hk hheld.mem hheld.run hheld.runId hact hx (hexpired x hx) hscan
  have hst : reportStatus f t r = expiryStatus (t, r) := reportStatus_eq_expiryStatus hf
  refine ⟨t₁, db₁, hfail, ?_⟩
  rw [recoverExpired_singleton hlease, ← failRow_timeless_iff hf hheld.runId hact hk hheld.mem]
  constructor
  · intro hsame
    have htasks := hsame.tasks
    rw [hdb₁, recoverLease, List.map_map, List.map_map] at htasks
    exact List.map_inj_left.1 htasks
  · intro hrows
    refine ⟨?_, ?_, ?_, ?_⟩
    · rw [hdb₁, hst, recoverLease]
      simp only [List.map_map]
      split_ifs with hdead
      · rw [List.map_map]
        refine List.map_congr_left fun q _ => ?_
        simp only [Function.comp_apply, expireRun, hdead, if_true]
        exact failRun_timeless _ q
      · refine List.map_congr_left fun q _ => ?_
        simp [expireRun, hdead]
    · rw [hdb₁, recoverLease]
      simp only [List.map_map]
      exact List.map_congr_left hrows
    · rw [hdb₁, hst, recoverLease]
      simp only [Table.update, List.map_map]
      refine List.map_congr_left fun a _ => ?_
      by_cases ha : a.taskRunId = t.id ∧ a.attemptNumber = t.attemptCount
      · simp [endAttempt, ha, TaskAttempt.bare]
      · simp [endAttempt, ha]
    · rw [hdb₁, hst, recoverLease]
      simp [OutboxEvent.gist, failedEvent, expiredEvent, newEvent]

/-- Either way the leased task of the pair is to be retried. -/
theorem failure_expiry_agree_iff_leasedPair :
    ∃ t₁ db₁, failTask (Env.at 4 100) 4 "w" ⟨true, "Timeout", "", ""⟩
        (twoDefinitions.after leasedPair).db = .ok (t₁, db₁) ∧
      SameOutcome db₁
        (recoverExpired (Env.at 103 200) (.ofList [4]) (twoDefinitions.after leasedPair).db) := by
  have hs : Reachable (twoDefinitions.after leasedPair) :=
    reachable_after init_twoDefinitions (by decide)
  obtain ⟨t, ht, hid, hst, hrid, howner, hexp, hleft⟩ :
      ∃ t ∈ (twoDefinitions.after leasedPair).db.taskRuns, t.id = 4 ∧ t.status = .leased ∧
        t.workflowRunId = 3 ∧ t.leaseOwner = some "w" ∧ t.leaseExpiresAt = some 103 ∧
        t.attemptCount < t.maximumAttempts := by decide
  obtain ⟨r, hr, hrun⟩ :
      ∃ r ∈ (twoDefinitions.after leasedPair).db.workflowRuns, r.id = 3 := by decide
  have hheld : Holds (Env.at 4 100) (twoDefinitions.after leasedPair).db "w" t r :=
    ⟨ht, hr, hrun.trans hrid.symm, howner, 103, hexp, by decide⟩
  have hscan : (Scan.ofList [4]).ids = [t.id] := by rw [hid]; rfl
  have hexpired : ∀ x, t.leaseExpiresAt = some x → x ≤ (Env.at 103 200).now := by
    simp [hexp, Env.at]
  obtain ⟨t₁, db₁, hfail, hiff⟩ := failure_expiry_agree_iff hs hheld (by rw [hst]; rfl)
    (f := ⟨true, "Timeout", "", ""⟩) rfl hscan hexpired
  rw [hid] at hfail
  exact ⟨t₁, db₁, hfail, hiff.2 fun hleave => absurd hleave.2.1 (not_le.2 hleft)⟩

/-- The task with one attempt is leased, and the other one is ready. -/
def leasedLastAttempt : List (ℤ × Op) :=
  [(1, .createWorkflow 1 none "single" singleAttemptDag),
    (2, .createRun 1 none 3 "k" "" none), (3, .dispatchReady (.ofList [5])),
    (4, .leaseTask 5 "w" 1)]

/-- The report cancels the ready task, the recovery leaves it ready in the failed run. -/
theorem expiry_differs_from_failure :
    ∃ s, Reachable s ∧ s.db.workflowRuns.map Run.status = [.running] ∧
      s.db.taskRuns.map (fun t => (t.id, t.status, t.leaseOwner, t.leaseExpiresAt)) =
        [(5, .leased, some "w", some 5), (6, .ready, none, none)] ∧
      ∃ t₁ db₁, failTask (Env.at 4 100) 5 "w" ⟨true, "Timeout", "", ""⟩ s.db = .ok (t₁, db₁) ∧
        db₁.workflowRuns.map Run.status = [.failed] ∧
        db₁.taskRuns.map TaskRun.status = [.dead, .cancelled] ∧
        (recoverExpired (Env.at 5 100) (.ofList [5]) s.db).workflowRuns.map Run.status =
          [.failed] ∧
        (recoverExpired (Env.at 5 100) (.ofList [5]) s.db).taskRuns.map TaskRun.status =
          [.dead, .ready] := by
  have hs : Reachable (twoDefinitions.after leasedLastAttempt) :=
    reachable_after init_twoDefinitions (by decide)
  exact ⟨_, hs, by decide, by decide, _, _, rfl, by decide, by decide, by decide, by decide⟩

end RunMesh
