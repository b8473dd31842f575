import RunMesh.Attempts
import RunMesh.Readiness

/-!
# Leases and fencing

Who holds a task is written in its row : its owner and when the lease expires. The history
of its leases is not, so we read it off the calls. `leaseLog` lists the leases of a task,
their renewals and their ends, and `Current w n log x` says that the log ends with a lease
by `w` of attempt `n` followed by renewals by `w` only, the last expiry written being `x`.

A task that is leased or running encodes its log (`Encodes`) : owner, expiry and attempt
count are those of its current lease. A worker's call is checked against the row, so it
goes through only for the worker of the current lease before that expires
(`lease_ownership`). The row knows a worker by its id : a call of an earlier execution is
fenced unless the current attempt was leased under the same id
(`stale_execution_fenced`, `reused_worker_id_is_not_fenced`).
-/

namespace RunMesh

open Fallible

variable {env : Env} {op : Op} {db db' : Db}

/-! ## The history of a task's leases -/

/-- What happens to the lease of a task. -/
inductive LeaseEvent
  | leased (workerId : String) (attempt : ℕ) (expires : ℤ)
  | renewed (workerId : String) (expires : ℤ)
  | ended
  deriving DecidableEq, Repr

/-- What a successful operation does to the lease of a task. -/
def Op.leaseEvents (env : Env) (db : Db) (reply : Reply) (taskId : ℕ) : Op → List LeaseEvent
  | .leaseTask id workerId duration =>
    match reply with
    | .leased t _ =>
      if id = taskId then [.leased workerId t.attemptCount (env.now + duration)] else []
    | _ => []
  | .heartbeatTask id workerId _ =>
    match reply with
    | .heartbeat expires _ => if id = taskId then [.renewed workerId expires] else []
    | _ => []
  | .completeTask id .. => if id = taskId then [.ended] else []
  | .failTask id .. => if id = taskId then [.ended] else []
  | .recoverExpired scan =>
    if ∃ e ∈ expiredLeases env scan db, e.1.id = taskId then [.ended] else []
  | _ => []

/-- What a call does to the lease of a task : nothing, if it fails. -/
def leaseEvents (s : State) (c : Call) (taskId : ℕ) : List LeaseEvent :=
  match c.exec s.db with
  | .ok (reply, _) => c.op.leaseEvents c.env s.db reply taskId
  | .error _ => []

/-- What a history does to the lease of a task. -/
def leaseLog : State → List Call → ℕ → List LeaseEvent
  | _, [], _ => []
  | s, c :: cs, taskId => leaseEvents s c taskId ++ leaseLog (controlPlane.next s c) cs taskId

theorem leaseLog_snoc (cs : List Call) (c : Call) (taskId : ℕ) : ∀ s : State,
    leaseLog s (cs ++ [c]) taskId =
      leaseLog s cs taskId ++ leaseEvents (controlPlane.run s cs) c taskId := by
  induction cs with
  | nil => intro s; simp [leaseLog]
  | cons d cs ih => intro s; simp [leaseLog, ih]

/-- The log ends with a lease by `w` of attempt `n` and renewals of it, and the last expiry
written is `x`. -/
inductive Current (w : String) (n : ℕ) : List LeaseEvent → ℤ → Prop
  | leased (log : List LeaseEvent) (x : ℤ) : Current w n (log ++ [.leased w n x]) x
  | renewed {log : List LeaseEvent} {x : ℤ} (h : Current w n log x) (y : ℤ) :
      Current w n (log ++ [.renewed w y]) y

theorem Current.mem {w : String} {n : ℕ} {log : List LeaseEvent} {x : ℤ}
    (h : Current w n log x) : ∃ y, LeaseEvent.leased w n y ∈ log := by
  induction h with
  | leased log x => exact ⟨x, by simp⟩
  | renewed _ y ih =>
    obtain ⟨z, hz⟩ := ih
    exact ⟨z, List.mem_append_left _ hz⟩

/-- The rows of the tasks that are leased or running encode their logs. -/
def Encodes (db : Db) (log : ℕ → List LeaseEvent) : Prop :=
  ∀ t ∈ db.taskRuns, t.status.active = true → ∃ w x, t.leaseOwner = some w ∧
    t.leaseExpiresAt = some x ∧ Current w t.attemptCount (log t.id) x

/-- The task and the worker of a call on a lease. -/
def Op.byWorker : Op → Option (ℕ × String)
  | .startTask taskId workerId => some (taskId, workerId)
  | .heartbeatTask taskId workerId _ => some (taskId, workerId)
  | .completeTask taskId workerId .. => some (taskId, workerId)
  | .failTask taskId workerId _ => some (taskId, workerId)
  | _ => none

/-- A call on a lease that goes through finds its worker's lease on the row. -/
theorem exec_holds (hk : db.Keyed) {id : ℕ} {w : String} (hop : op.byWorker = some (id, w))
    {reply : Reply} (h : op.exec env db = .ok (reply, db')) :
    ∃ t r, Holds env db w t r ∧ t.id = id ∧ t.status.active = true := by
  cases op <;> simp only [Op.byWorker, reduceCtorEq, Option.some.injEq, Prod.mk.injEq] at hop <;>
    obtain ⟨rfl, rfl⟩ := hop <;> simp only [Op.exec, map_eq_ok, Prod.mk.injEq] at h
  case startTask =>
    obtain ⟨⟨t', _⟩, hok, -⟩ := h
    obtain ⟨t, r, hheld, hid, hst, -⟩ := startTask_ok hk hok
    exact ⟨t, r, hheld, hid, by simp [hst, TaskStatus.active]⟩
  case heartbeatTask =>
    obtain ⟨⟨b, _⟩, hok, -⟩ := h
    obtain ⟨t, r, hheld, hid, hact, -⟩ := heartbeatTask_ok hk hok
    exact ⟨t, r, hheld, hid, hact⟩
  case completeTask =>
    obtain ⟨⟨t', _⟩, hok, -⟩ := h
    obtain ⟨t, r, hheld, hid, hst, -⟩ := completeTask_ok hk hok
    exact ⟨t, r, hheld, hid, by simp [hst, TaskStatus.active]⟩
  case failTask =>
    obtain ⟨⟨t', _⟩, hok, -⟩ := h
    obtain ⟨t, r, hheld, hid, hact, -⟩ := failTask_ok hk hok
    exact ⟨t, r, hheld, hid, hact⟩

/-! ## The rows encode the history -/

/-- A move that leaves a task leased or running keeps its lease, unless it is a lease or a
renewal. -/
theorem TaskMove.of_active {t t' : TaskRun} (h : TaskMove env db op t t')
    (hact : t'.status.active = true) :
    (t.status.active = true ∧ t'.leaseOwner = t.leaseOwner ∧
      t'.leaseExpiresAt = t.leaseExpiresAt ∧ t'.attemptCount = t.attemptCount) ∨
    (∃ w d, op = .leaseTask t.id w d) ∨ ∃ w d, op = .heartbeatTask t.id w d := by
  cases h with
  | keep => exact Or.inl ⟨hact, rfl, rfl, rfl⟩
  | lease => exact Or.inr (Or.inl ⟨_, _, rfl⟩)
  | start _ hst => exact Or.inl ⟨by simp [hst, TaskStatus.active], rfl, rfl, rfl⟩
  | renew => exact Or.inr (Or.inr ⟨_, _, rfl⟩)
  | @expire _ _ r =>
    rcases expiryStatus_cases (t, r) with h | h | h <;>
      simp [endLease, h.1, TaskStatus.active] at hact
  | @fail _ f _ r =>
    rcases reportStatus_cases f t r with h | h | h <;>
      simp [endLease, h.1, TaskStatus.active] at hact
  | rebuild =>
    simp only [RunMesh.rebuild] at hact
    split_ifs at hact <;> simp [TaskStatus.active] at hact
  | _ => simp [RunMesh.succeed, RunMesh.wake, revive, TaskStatus.active] at hact

/-- A call that neither leases nor renews keeps the encoding, if it logs nothing for the
tasks that stay leased or running. -/
theorem Encodes.of_moves {log log' : ℕ → List LeaseEvent} (he : Encodes db log)
    (hm : Moves env op db db') (hlease : ∀ id w d, op ≠ .leaseTask id w d)
    (hrenew : ∀ id w d, op ≠ .heartbeatTask id w d)
    (hlog : ∀ t ∈ db'.taskRuns, t.status.active = true → log' t.id = log t.id) :
    Encodes db' log' := by
  intro t' ht' hact
  obtain ⟨t, ht, hmove⟩ := hm.of_mem_task ht'
  rcases hmove.of_active hact with ⟨hact', howner, hexp, hcount⟩ | ⟨w, d, hop⟩ | ⟨w, d, hop⟩
  · obtain ⟨w, x, hw, hx, hcur⟩ := he t ht hact'
    rw [hlog t' ht' hact, hmove.id, howner, hexp, hcount]
    exact ⟨w, x, hw, hx, hcur⟩
  · exact absurd hop (hlease _ _ _)
  · exact absurd hop (hrenew _ _ _)

/-- A failed task is not leased or running. -/
theorem failTask_ends (hk : db.Keyed) {id : ℕ} {w : String} {f : Failure} {t₁ t' : TaskRun}
    (h : failTask env id w f db = .ok (t₁, db')) (ht' : t' ∈ db'.taskRuns) (hid : t'.id = id) :
    t'.status.active = false := by
  obtain ⟨t, r, -, rfl, -, -, hdb⟩ := failTask_ok hk h
  rw [hdb] at ht'
  obtain ⟨u, -, rfl⟩ := List.mem_map.1 ht'
  unfold failRow cancelWaiting at hid ⊢
  split_ifs at hid ⊢ with hus
  · rcases reportStatus_cases f t r with h | h | h <;> simp [endLease, h.1, TaskStatus.active]
  all_goals exact absurd hid hus

/-- A task whose lease a recovery ends is not leased or running. -/
theorem recoverExpired_ends (hk : db.Keyed) {scan : Scan} {t t' : TaskRun} {r : Run}
    (he : (t, r) ∈ expiredLeases env scan db) (ht' : t' ∈ (recoverExpired env scan db).taskRuns)
    (hid : t'.id = t.id) : t'.status.active = false := by
  rw [recoverExpired_eq] at ht'
  obtain ⟨u, hu, rfl⟩ := List.mem_map.1 ht'
  rw [(expireRow_key _ u).1] at hid
  rw [Table.eq_of_key hk.tasks hu (mem_expiredLeases he).1 hid,
    expireRow_of_mem (nodup_expiredLeases hk scan) he]
  rcases expiryStatus_cases (t, r) with h | h | h <;> simp [endLease, h.1, TaskStatus.active]

theorem Encodes.leaseTask {log : ℕ → List LeaseEvent} (he : Encodes db log) (hk : db.Keyed)
    {id : ℕ} {w : String} {d : ℤ} {t₁ : TaskRun} {uri : Option String}
    (h : leaseTask env id w d db = .ok ((t₁, uri), db')) :
    Encodes db' fun i =>
      log i ++ if id = i then [.leased w t₁.attemptCount (env.now + d)] else [] := by
  obtain ⟨t, ht, rfl, -, rfl, -, rfl⟩ := leaseTask_ok hk h
  intro t' ht' hact
  obtain ⟨u, hu, rfl⟩ := Table.mem_update.1 ht'
  by_cases hid : u.id = t.id
  · rw [Table.eq_of_key hk.tasks hu ht hid]
    have hlog : (if t.id = (lease env w d t).id then
        [LeaseEvent.leased w (lease env w d t).attemptCount (env.now + d)] else []) =
        [.leased w (lease env w d t).attemptCount (env.now + d)] := if_pos rfl
    simp only [decide_true, if_true, hlog]
    exact ⟨w, env.now + d, rfl, rfl, .leased _ _⟩
  · simp only [hid, decide_false, Bool.false_eq_true, if_false] at hact ⊢
    simpa [Ne.symm hid] using he u hu hact

theorem Encodes.heartbeatTask {log : ℕ → List LeaseEvent} (he : Encodes db log) (hk : db.Keyed)
    {id : ℕ} {w : String} {d : ℤ} {b : ℤ × Bool}
    (h : heartbeatTask env id w d db = .ok (b, db')) :
    Encodes db' fun i => log i ++ if id = i then [.renewed w b.1] else [] := by
  obtain ⟨t, r, hheld, rfl, hst, rfl, rfl⟩ := heartbeatTask_ok hk h
  intro t' ht' hact
  obtain ⟨u, hu, rfl⟩ := Table.mem_update.1 ht'
  by_cases hid : u.id = t.id
  · rw [Table.eq_of_key hk.tasks hu hheld.mem hid]
    simp only [decide_true, if_true]
    obtain ⟨v, x, hv, -, hcur⟩ := he t hheld.mem hst
    obtain rfl : v = w := Option.some.inj (hv.symm.trans hheld.owner)
    exact ⟨v, env.now + d, hv, rfl, hcur.renewed _⟩
  · simp only [hid, decide_false, Bool.false_eq_true, if_false] at hact ⊢
    simpa [Ne.symm hid] using he u hu hact

/-- A successful operation extends the log of each task by what it does to its lease, and
the rows encode the extended logs. -/
theorem Encodes.exec {log : ℕ → List LeaseEvent} (he : Encodes db log) (hk : db.Keyed)
    {reply : Reply} (h : op.exec env db = .ok (reply, db')) :
    Encodes db' fun id => log id ++ op.leaseEvents env db reply id := by
  rcases exec_moves hk h with hm | ⟨run, dag, hcr⟩
  · cases op
    case leaseTask =>
      simp only [Op.exec, map_eq_ok, Prod.mk.injEq] at h
      obtain ⟨⟨⟨t, uri⟩, _⟩, hok, rfl, rfl⟩ := h
      exact he.leaseTask hk hok
    case heartbeatTask =>
      simp only [Op.exec, map_eq_ok, Prod.mk.injEq] at h
      obtain ⟨⟨b, _⟩, hok, rfl, rfl⟩ := h
      exact he.heartbeatTask hk hok
    case completeTask id w o a logs =>
      simp only [Op.exec, map_eq_ok, Prod.mk.injEq] at h
      obtain ⟨⟨t, _⟩, hok, -, rfl⟩ := h
      refine he.of_moves hm (by simp) (by simp) fun t' ht' hact => ?_
      have hne : id ≠ t'.id := fun hid => by
        simp [completeTask_succeeds hk hok ht' hid.symm, TaskStatus.active] at hact
      simp [Op.leaseEvents, hne]
    case failTask id w f =>
      simp only [Op.exec, map_eq_ok, Prod.mk.injEq] at h
      obtain ⟨⟨t, _⟩, hok, -, rfl⟩ := h
      refine he.of_moves hm (by simp) (by simp) fun t' ht' hact => ?_
      have hne : id ≠ t'.id := fun hid => by
        simp [failTask_ends hk hok ht' hid.symm] at hact
      simp [Op.leaseEvents, hne]
    case recoverExpired scan =>
      simp only [Op.exec, Except.ok.injEq, Prod.mk.injEq] at h
      obtain ⟨-, rfl⟩ := h
      refine he.of_moves hm (by simp) (by simp) fun t' ht' hact => ?_
      have hne : ¬∃ e ∈ expiredLeases env scan db, e.1.id = t'.id := by
        rintro ⟨e, hmem, hid⟩
        simp [recoverExpired_ends hk hmem ht' hid.symm] at hact
      simp only [Op.leaseEvents, if_neg hne, List.append_nil]
    all_goals exact he.of_moves hm (by simp) (by simp) fun t' _ _ => List.append_nil _
  · obtain ⟨_, _, _, _, _, _, rfl⟩ := hcr.isCreate
    intro t ht hact
    rw [hcr.tasks, List.mem_append, List.mem_map] at ht
    rcases ht with ht | ⟨entry, -, rfl⟩
    · simpa [Op.leaseEvents] using he t ht hact
    · rcases newTaskRun_status env run dag entry with h | h <;>
        simp [h, TaskStatus.active] at hact

/-- After every history the rows encode its log. -/
theorem encodes_leaseLog {s₀ : State} (h0 : Init s₀) {cs : List Call}
    (hv : controlPlane.Valid s₀ cs) :
    Encodes (controlPlane.run s₀ cs).db (leaseLog s₀ cs) := by
  induction cs using List.reverseRecOn with
  | nil => simp [Encodes, h0.taskRuns]
  | append_singleton cs c ih =>
    obtain ⟨hvcs, hc⟩ := (controlPlane.along_snoc _ s₀ cs c).1 hv
    have hreach : Reachable (controlPlane.run s₀ cs) := ⟨s₀, cs, h0, hvcs, rfl⟩
    have hlog : leaseLog s₀ (cs ++ [c]) = fun id =>
        leaseLog s₀ cs id ++ leaseEvents (controlPlane.run s₀ cs) c id :=
      funext fun id => leaseLog_snoc cs c id s₀
    rw [controlPlane.run_snoc, controlPlane_next_db, hlog]
    cases hexec : c.exec (controlPlane.run s₀ cs).db with
    | error e =>
      simpa only [Call.after_of_error hexec, leaseEvents, hexec, List.append_nil] using ih hvcs
    | ok r =>
      obtain ⟨reply, db'⟩ := r
      simp only [Call.after_of_ok hexec, leaseEvents, hexec]
      exact (ih hvcs).exec hreach.wellFormed.toKeyed hexec

/-- Lease ownership. A start, heartbeat, completion or failure by `w` on a task goes through
only if the last lease of the task was by `w`, has not ended, and the call is before the last
expiry written for it. Otherwise it returns an error and leaves the state as it is. -/
theorem lease_ownership {s₀ : State} (h0 : Init s₀) {cs : List Call}
    (hv : controlPlane.Valid s₀ cs) {c : Call} {taskId : ℕ} {w : String}
    (hop : c.op.byWorker = some (taskId, w)) :
    (∃ n x, Current w n (leaseLog s₀ cs taskId) x ∧ c.env.now < x) ∨
      ((∃ e, c.exec (controlPlane.run s₀ cs).db = .error e) ∧
        (controlPlane.next (controlPlane.run s₀ cs) c).db = (controlPlane.run s₀ cs).db) := by
  have hreach : Reachable (controlPlane.run s₀ cs) := ⟨s₀, cs, h0, hv, rfl⟩
  cases hexec : c.exec (controlPlane.run s₀ cs).db with
  | error e => exact Or.inr ⟨⟨e, rfl⟩, Call.after_of_error hexec⟩
  | ok r =>
    obtain ⟨t, q, hheld, rfl, hact⟩ := exec_holds hreach.wellFormed.toKeyed hop hexec
    obtain ⟨v, x, hv', hx, hcur⟩ := encodes_leaseLog h0 hv t hheld.mem hact
    obtain ⟨y, hy, hlt⟩ := hheld.unexpired
    obtain rfl : v = w := Option.some.inj (hv'.symm.trans hheld.owner)
    obtain rfl : x = y := Option.some.inj (hx.symm.trans hy)
    exact Or.inl ⟨_, x, hcur, hlt⟩

/-- Two workers race for a dispatched task, and the loser tries to start it. -/
def raceForTask : List (ℤ × Op) :=
  [(1, .createRun 1 none 2 "k" "" none), (2, .dispatchReady (.ofList [4, 5])),
    (3, .leaseTask 4 "w" 100), (4, .leaseTask 4 "v" 100), (5, .heartbeatTask 4 "w" 200)]

theorem lease_ownership_raceForTask :
    Current "w" 1 (leaseLog twoDefinitions (play twoDefinitions raceForTask) 4) 205 ∧
      (controlPlane.next (twoDefinitions.after raceForTask) ⟨Env.at 6 9, .startTask 4 "v"⟩).db =
        (twoDefinitions.after raceForTask).db := by
  have hlog : leaseLog twoDefinitions (play twoDefinitions raceForTask) 4 =
      [] ++ [.leased "w" 1 103] ++ [.renewed "w" 205] := by decide
  refine ⟨hlog ▸ (Current.leased [] 103).renewed 205, ?_⟩
  rcases lease_ownership init_twoDefinitions (valid_play raceForTask _ (by decide))
      (c := ⟨Env.at 6 9, .startTask 4 "v"⟩) rfl with ⟨n, x, hcur, -⟩ | ⟨-, hsame⟩
  · obtain ⟨y, hy⟩ := hcur.mem
    rw [hlog] at hy
    simp at hy
  · exact hsame

/-! ## Executions -/

/-- A lease that is logged is on a task, and its attempt is counted. -/
theorem leaseEvents_attempt (hk : db.Keyed) {reply : Reply}
    (h : op.exec env db = .ok (reply, db')) {taskId : ℕ} {w : String} {n : ℕ} {x : ℤ}
    (hev : LeaseEvent.leased w n x ∈ op.leaseEvents env db reply taskId) :
    ∃ t ∈ db'.taskRuns, t.id = taskId ∧ n ≤ t.attemptCount := by
  cases op
  case leaseTask =>
    simp only [Op.exec, map_eq_ok, Prod.mk.injEq] at h
    obtain ⟨⟨⟨t', uri⟩, _⟩, hok, rfl, rfl⟩ := h
    obtain ⟨t, ht, rfl, -, rfl, -, hdb⟩ := leaseTask_ok hk hok
    simp only [Op.leaseEvents] at hev
    split_ifs at hev with hid
    · simp only [List.mem_singleton, LeaseEvent.leased.injEq] at hev
      obtain ⟨rfl, rfl, -⟩ := hev
      refine ⟨lease env w _ t, ?_, hid, le_refl _⟩
      rw [hdb]
      exact Table.mem_update.2 ⟨t, ht, by simp⟩
    · simp at hev
  case heartbeatTask =>
    cases reply <;> simp [Op.leaseEvents] at hev
  all_goals simp [Op.leaseEvents] at hev

/-- An attempt once leased is at most the attempt count of its task. -/
theorem leaseLog_attempt_le {s₀ : State} (h0 : Init s₀) {cs : List Call}
    (hv : controlPlane.Valid s₀ cs) {taskId : ℕ} {w : String} {n : ℕ} {x : ℤ}
    (hlog : LeaseEvent.leased w n x ∈ leaseLog s₀ cs taskId) :
    ∃ t ∈ (controlPlane.run s₀ cs).db.taskRuns, t.id = taskId ∧ n ≤ t.attemptCount := by
  induction cs using List.reverseRecOn with
  | nil => simp [leaseLog] at hlog
  | append_singleton cs c ih =>
    obtain ⟨hvcs, hc⟩ := (controlPlane.along_snoc _ s₀ cs c).1 hv
    have hk : (controlPlane.run s₀ cs).db.Keyed :=
      (show Reachable (controlPlane.run s₀ cs) from ⟨s₀, cs, h0, hvcs, rfl⟩).wellFormed.toKeyed
    rw [leaseLog_snoc, List.mem_append] at hlog
    rw [controlPlane.run_snoc, controlPlane_next_db]
    cases hexec : c.exec (controlPlane.run s₀ cs).db with
    | error e =>
      rw [Call.after_of_error hexec]
      simp only [leaseEvents, hexec, List.not_mem_nil, or_false] at hlog
      exact ih hvcs hlog
    | ok r =>
      obtain ⟨reply, db'⟩ := r
      rw [Call.after_of_ok hexec]
      simp only [leaseEvents, hexec] at hlog
      rcases hlog with hlog | hev
      · obtain ⟨t, ht, hid, hle⟩ := ih hvcs hlog
        obtain ⟨t', ht', hid', hle'⟩ := exec_attemptCount_le hk hexec ht
        exact ⟨t', ht', hid'.trans hid, hle.trans hle'⟩
      · exact leaseEvents_attempt hk hexec hev

/-- Stale executions are fenced. Once attempt `n` of a task was leased by `w`, a call by `w`
on that task goes through only while the attempt count is still `n`, or while a later attempt
is current that was itself leased under the worker id `w`. -/
theorem stale_execution_fenced {s₀ : State} (h0 : Init s₀) {cs : List Call}
    (hv : controlPlane.Valid s₀ cs) {taskId : ℕ} {w : String} {n : ℕ}
    (hleased : ∃ x, LeaseEvent.leased w n x ∈ leaseLog s₀ cs taskId) {c : Call}
    (hop : c.op.byWorker = some (taskId, w)) {reply : Reply} {db' : Db}
    (hok : c.exec (controlPlane.run s₀ cs).db = .ok (reply, db')) :
    ∃ t ∈ (controlPlane.run s₀ cs).db.taskRuns, t.id = taskId ∧
      (t.attemptCount = n ∨ n < t.attemptCount ∧
        ∃ x, LeaseEvent.leased w t.attemptCount x ∈ leaseLog s₀ cs taskId) := by
  have hreach : Reachable (controlPlane.run s₀ cs) := ⟨s₀, cs, h0, hv, rfl⟩
  obtain ⟨x, hx⟩ := hleased
  obtain ⟨t, r, hheld, rfl, hact⟩ := exec_holds hreach.wellFormed.toKeyed hop hok
  obtain ⟨v, y, hv', -, hcur⟩ := encodes_leaseLog h0 hv t hheld.mem hact
  obtain rfl : v = w := Option.some.inj (hv'.symm.trans hheld.owner)
  obtain ⟨u, hu, hid, hle⟩ := leaseLog_attempt_le h0 hv hx
  obtain rfl : u = t := Table.eq_of_key hreach.wellFormed.tasks hu hheld.mem hid
  refine ⟨u, hu, rfl, ?_⟩
  rcases hle.eq_or_lt with heq | hlt
  · exact Or.inl heq.symm
  · exact Or.inr ⟨hlt, hcur.mem⟩

/-- The lease of `w` on a task expires, and a later execution under the same worker id leases
and starts the next attempt. -/
def reusedWorkerId : List (ℤ × Op) :=
  [(1, .createRun 1 none 2 "k" "" none), (2, .dispatchReady (.ofList [4, 5])),
    (3, .leaseTask 4 "w" 1), (4, .recoverExpired (.ofList [4])),
    (10000000000, .promoteRetries), (10000000001, .dispatchReady (.ofList [4])),
    (10000000002, .leaseTask 4 "w" 100), (10000000003, .startTask 4 "w")]

/-- The completion of the execution whose lease expired. -/
def staleCompletion : Call := ⟨Env.at 10000000004 20, .completeTask 4 "w" "" "" []⟩

/-- Worker ids are not executions. The completion of attempt 1 succeeds the task at attempt
2, because both attempts were leased under one worker id. -/
theorem reused_worker_id_is_not_fenced :
    Init twoDefinitions ∧
      controlPlane.Valid twoDefinitions (play twoDefinitions reusedWorkerId) ∧
      LeaseEvent.leased "w" 1 4 ∈
        leaseLog twoDefinitions (play twoDefinitions reusedWorkerId) 4 ∧
      staleCompletion.op.byWorker = some (4, "w") ∧
      (twoDefinitions.after reusedWorkerId).db.taskRuns.map
        (fun t => (t.id, t.attemptCount, t.status)) = [(4, 2, .running), (5, 0, .dispatching)] ∧
      (controlPlane.next (twoDefinitions.after reusedWorkerId) staleCompletion).db.taskRuns.map
        (fun t => (t.id, t.attemptCount, t.status)) =
          [(4, 2, .succeeded), (5, 0, .dispatching)] :=
  ⟨init_twoDefinitions, valid_play reusedWorkerId _ (by decide), by decide, rfl, by decide,
    by decide⟩

theorem stale_execution_fenced_reusedWorkerId :
    ∃ t ∈ (twoDefinitions.after reusedWorkerId).db.taskRuns, t.id = 4 ∧
      (t.attemptCount = 1 ∨ 1 < t.attemptCount ∧ ∃ x, LeaseEvent.leased "w" t.attemptCount x ∈
        leaseLog twoDefinitions (play twoDefinitions reusedWorkerId) 4) :=
  stale_execution_fenced init_twoDefinitions (valid_play reusedWorkerId _ (by decide))
    ⟨4, by decide⟩ (c := staleCompletion) rfl rfl

end RunMesh
