import RunMesh.Progress
import RunMesh.Attempts
import RunMesh.Expiry

/-!
# Termination

How often can the tasks of a run still change their statuses ? A task has so many leases left
(`TaskRun.leasesLeft`), and from one lease to the next it goes through at most five statuses :
dispatching, leased, running, waiting for a retry, ready. `TaskRun.work` counts what remains,
and `Db.work` adds it up over a run. Every call that changes the status of a task of the run
takes something from it, unless it reopens the run (`exec_work`), so between two reopenings
there is a bound on the number of such calls, whatever the order of calls and whatever the
workers do.

As long as the run is running, it has a task that a phase of the scheduler or a lease can serve, and
each call that does changes its status (`Advances`). So a run that is served long enough ends.
-/

namespace RunMesh

variable {env : Env} {op : Op} {db db' : Db}

/-! ## What remains of a task -/

/-- How often the task can still be leased, if it is not reopened. A task that waits is
leased once more even if its attempts are used up. -/
def TaskRun.leasesLeft (t : TaskRun) : ℕ :=
  if t.status.waiting then max (t.maximumAttempts - t.attemptCount) 1
  else t.maximumAttempts - t.attemptCount

/-- How often the status of the task can still change, if it is not reopened. -/
def TaskRun.work (t : TaskRun) : ℕ :=
  match t.status with
  | .blocked | .retryWait => 5 * t.leasesLeft + 1
  | .ready => 5 * t.leasesLeft
  | .dispatching => 5 * t.leasesLeft - 1
  | .leased => 5 * t.leasesLeft + 3
  | .running => 5 * t.leasesLeft + 2
  | _ => 0

/-- The call retries the run, or replays a task of it. -/
def reopens (runId : ℕ) (db : Db) : Op → Bool
  | .retryRun _ _ id => id = runId
  | .replayDead _ _ taskId => db.taskRuns.any fun t => t.id = taskId ∧ t.workflowRunId = runId
  | _ => false

/-- A task at rest, and the end of a lease. -/
theorem work_endLease {t : TaskRun} (hact : t.status.active = true) {st : TaskStatus} {avail : ℤ}
    (hst : st = .cancelled ∨ st = .retryWait ∧ t.attemptCount < t.maximumAttempts ∨ st = .dead) :
    (endLease env st avail t).work < t.work := by
  have hlow : 5 * (t.maximumAttempts - t.attemptCount) + 2 ≤ t.work := by
    cases hs : t.status <;>
      simp [hs, TaskRun.work, TaskRun.leasesLeft, TaskStatus.active, TaskStatus.waiting] at hact ⊢
  rcases hst with rfl | ⟨rfl, hlt⟩ | rfl
  · have hzero : (endLease env .cancelled avail t).work = 0 := rfl
    omega
  · have hretry : (endLease env .retryWait avail t).work =
        5 * max (t.maximumAttempts - t.attemptCount) 1 + 1 := rfl
    omega
  · have hzero : (endLease env .dead avail t).work = 0 := rfl
    omega

theorem work_pos_of_waiting {t : TaskRun} (h : t.status.waiting = true) : 0 < t.work := by
  have hleft : 1 ≤ t.leasesLeft := by
    rw [TaskRun.leasesLeft, if_pos h]
    exact le_max_right _ _
  cases hs : t.status <;> simp [hs, TaskStatus.waiting] at h <;> simp [TaskRun.work, hs] <;> omega

/-- A move that does not reopen the task takes something from its work, or leaves its status
and its work as they were. -/
theorem TaskMove.work {t t' : TaskRun} (h : TaskMove env db op t t') (ht : t ∈ db.taskRuns)
    (hop : reopens t.workflowRunId db op = false) :
    t'.work < t.work ∨ t'.status = t.status ∧ t'.work = t.work := by
  cases h with
  | keep => exact Or.inr ⟨rfl, rfl⟩
  | promote hst =>
    exact Or.inl (by simp [TaskRun.work, TaskRun.leasesLeft, hst, TaskStatus.waiting])
  | @expire _ _ r h =>
    refine Or.inl (work_endLease (mem_expiredLeases h).2.2.2.1 ?_)
    rcases expiryStatus_cases (t, r) with hc | hc | hc
    · exact Or.inl hc.1
    · exact Or.inr (Or.inl ⟨hc.1, hc.2.2⟩)
    · exact Or.inr (Or.inr hc.1)
  | dispatch h =>
    have hst := (mem_readyTasks h).2.2.2.1
    refine Or.inl ?_
    simp only [TaskRun.work, TaskRun.leasesLeft, hst, TaskStatus.waiting, if_true]
    omega
  | lease hst =>
    refine Or.inl ?_
    simp only [TaskRun.work, TaskRun.leasesLeft, RunMesh.lease, hst, TaskStatus.waiting, if_true]
    simp only [Bool.false_eq_true, if_false]
    omega
  | start _ hst =>
    exact Or.inl (by simp [TaskRun.work, TaskRun.leasesLeft, hst, TaskStatus.waiting])
  | renew => exact Or.inr ⟨rfl, rfl⟩
  | succeed _ _ hst => exact Or.inl (by simp [TaskRun.work, RunMesh.succeed, hst])
  | wake _ _ _ hwake =>
    exact Or.inl (by simp [TaskRun.work, TaskRun.leasesLeft, RunMesh.wake, hwake.2.1,
      TaskStatus.waiting])
  | @fail _ f _ r _ hst =>
    refine Or.inl (work_endLease hst ?_)
    rcases reportStatus_cases f t r with hc | hc | hc
    · exact Or.inl hc.1
    · exact Or.inr (Or.inl ⟨hc.1, hc.2.2.2⟩)
    · exact Or.inr (Or.inr hc.1)
  | failSibling _ _ _ _ hwait => exact Or.inl (work_pos_of_waiting hwait)
  | cancel _ _ _ _ hwait => exact Or.inl (work_pos_of_waiting hwait)
  | retry => simp [reopens] at hop
  | replay =>
    exact absurd (List.any_eq_true.2 ⟨t, ht, by simp⟩) (Bool.not_eq_true _ ▸ hop)
  | @rebuild _ _ u _ _ _ _ _ hu _ hrun =>
    exact absurd (List.any_eq_true.2 ⟨u, hu, by simp [hrun]⟩) (Bool.not_eq_true _ ▸ hop)

/-! ## What remains of a run -/

/-- The tasks of a run. -/
def Db.tasksOf (runId : ℕ) (db : Db) : List TaskRun :=
  db.taskRuns.filter fun t => t.workflowRunId = runId

/-- The tasks of a run with their statuses. -/
def Db.statusesOf (runId : ℕ) (db : Db) : List (ℕ × TaskStatus) :=
  (db.tasksOf runId).map fun t => (t.id, t.status)

/-- How often a task of the run can still change its status, if the run is not reopened. -/
def Db.work (runId : ℕ) (db : Db) : ℕ :=
  ((db.tasksOf runId).map TaskRun.work).sum

/-- The call changes the status of a task of the run. -/
def stirs (runId : ℕ) (s : State) (c : Call) : Bool :=
  (controlPlane.next s c).db.statusesOf runId ≠ s.db.statusesOf runId

theorem Db.mem_tasksOf {runId : ℕ} {t : TaskRun} :
    t ∈ db.tasksOf runId ↔ t ∈ db.taskRuns ∧ t.workflowRunId = runId := by
  simp [Db.tasksOf]

theorem Moves.tasksOf (h : Moves env op db db') (runId : ℕ) :
    ∃ f : TaskRun → TaskRun, db'.tasksOf runId = (db.tasksOf runId).map f ∧
      ∀ t ∈ db.tasksOf runId, TaskMove env db op t (f t) := by
  obtain ⟨f, hf, hmove⟩ := h.tasks
  refine ⟨f, ?_, fun t ht => hmove t (Db.mem_tasksOf.1 ht).1⟩
  rw [Db.tasksOf, hf, List.filter_map, Db.tasksOf]
  congr 1
  refine List.filter_congr fun t ht => ?_
  rw [Function.comp_apply, (hmove t ht).workflowRunId]

theorem Creates.run_mem {run r : Run} {dag : DAG} (h : Creates env op db db' run dag)
    (hr : r ∈ db.workflowRuns) : r ∈ db'.workflowRuns := by
  rw [h.runs]
  exact List.mem_append_left _ hr

/-- A new run leaves the tasks of the others. -/
theorem Creates.tasksOf {run : Run} {dag : DAG} (h : Creates env op db db' run dag) {runId : ℕ}
    (hne : run.id ≠ runId) : db'.tasksOf runId = db.tasksOf runId := by
  have hnew : (dag.tasks.map (newTaskRun env run dag)).filter
      (fun t => t.workflowRunId = runId) = [] := by
    rw [List.filter_eq_nil_iff]
    rintro _ ht hid
    obtain ⟨entry, -, rfl⟩ := List.mem_map.1 ht
    exact hne (of_decide_eq_true hid)
  rw [Db.tasksOf, h.tasks, List.filter_append, hnew, List.append_nil, Db.tasksOf]

/-- Moves that each take something from the work of a task, or leave its status, take one
from the work of all if they change a status. -/
theorem work_map_le {f : TaskRun → TaskRun} {ts : List TaskRun}
    (h : ∀ t ∈ ts, (f t).id = t.id ∧
      ((f t).work < t.work ∨ (f t).status = t.status ∧ (f t).work = t.work)) :
    (decide (((ts.map f).map fun t => (t.id, t.status)) ≠ ts.map fun t => (t.id, t.status))).toNat +
      ((ts.map f).map TaskRun.work).sum ≤ (ts.map TaskRun.work).sum := by
  induction ts with
  | nil => simp
  | cons t ts ih =>
    have ih := ih fun u hu => h u (List.mem_cons_of_mem t hu)
    obtain ⟨hid, hlt | ⟨hst, hw⟩⟩ := h t List.mem_cons_self
    · have hone := Bool.toNat_le (decide (((t :: ts).map f).map (fun t => (t.id, t.status)) ≠
        (t :: ts).map fun t => (t.id, t.status)))
      simp only [List.map_cons, List.sum_cons] at hone ⊢
      omega
    · simp only [List.map_cons, List.sum_cons, hid, hst, hw, ne_eq, List.cons.injEq, true_and]
      simp only [ne_eq] at ih
      omega

/-- A successful call that does not reopen the run takes from its work if it changes a
status of it. -/
theorem exec_work (hw : db.WellFormed) (hf : db.Fresh env) {reply : Reply}
    (h : op.exec env db = .ok (reply, db')) {r : Run} (hr : r ∈ db.workflowRuns)
    (hop : reopens r.id db op = false) :
    (decide (db'.statusesOf r.id ≠ db.statusesOf r.id)).toNat + db'.work r.id ≤ db.work r.id := by
  rcases exec_moves hw.toKeyed h with hm | ⟨run, dag, hc⟩
  · obtain ⟨f, hf, hmove⟩ := hm.tasksOf r.id
    simp only [Db.statusesOf, Db.work, hf]
    refine work_map_le fun t ht => ⟨(hmove t ht).id, ?_⟩
    obtain ⟨hmem, hrun⟩ := Db.mem_tasksOf.1 ht
    exact (hmove t ht).work hmem (hrun ▸ hop)
  · have hsame := hc.tasksOf fun hid => hf.run_ne hr 0 (hid.symm.trans hc.id)
    simp [Db.statusesOf, Db.work, hsame]

/-! ## While the run is running -/

/-- The call serves the task : a phase of the scheduler at a time at which the task is due, which
sees its row among at most a hundred rows, or a lease of it. -/
def Call.serves (c : Call) (t : TaskRun) : Prop :=
  match c.op with
  | .promoteRetries => t.status = .retryWait ∧ t.availableAt ≤ c.env.now
  | .recoverExpired scan => t.status.active = true ∧ (∃ x ∈ t.leaseExpiresAt, x ≤ c.env.now) ∧
      t.id ∈ scan.ids ∧ scan.ids.length ≤ 100
  | .dispatchReady scan => t.status = .ready ∧ t.id ∈ scan.ids ∧ scan.ids.length ≤ 100
  | .leaseTask id _ _ => t.status = .dispatching ∧ id = t.id
  | _ => False

/-- A task of the run with another status. -/
theorem stirs_of_mem {s : State} {c : Call} (hk : (controlPlane.next s c).db.Keyed) {t t' : TaskRun}
    (ht : t ∈ s.db.taskRuns) (ht' : t' ∈ (controlPlane.next s c).db.taskRuns) (hid : t'.id = t.id)
    (hst : t'.status ≠ t.status) : stirs t.workflowRunId s c = true := by
  refine decide_eq_true fun heq => ?_
  have hmem : (t.id, t.status) ∈ s.db.statusesOf t.workflowRunId :=
    List.mem_map.2 ⟨t, Db.mem_tasksOf.2 ⟨ht, rfl⟩, rfl⟩
  rw [← heq] at hmem
  obtain ⟨u, hu, hpair⟩ := List.mem_map.1 hmem
  obtain ⟨huid, hust⟩ := Prod.mk.inj hpair
  obtain rfl := Table.eq_of_key hk.tasks (Db.mem_tasksOf.1 hu).1 ht' (huid.trans hid.symm)
  exact hst hust

/-- There is a task of the run that a phase of the scheduler or a lease can serve, now or later, and
each call that serves it changes a status. -/
def Advances (runId : ℕ) (s : State) : Prop :=
  ∃ t ∈ s.db.taskRuns, t.workflowRunId = runId ∧ (∃ c, controlPlane.allowed s c ∧ c.serves t) ∧
    ∀ c, controlPlane.allowed s c → c.serves t → stirs runId s c = true

namespace Reachable

section Advances

variable {s : State} {t : TaskRun} (h : Reachable s) (ht : t ∈ s.db.taskRuns)

include h ht

/-- A call that leaves the task with another status. -/
theorem stirs_of_exec {c : Call} (hc : controlPlane.allowed s c) {reply : Reply}
    (hok : c.exec s.db = .ok (reply, db')) {t' : TaskRun} (ht' : t' ∈ db'.taskRuns)
    (hid : t'.id = t.id) (hst : t'.status ≠ t.status) : stirs t.workflowRunId s c = true := by
  have hdb : (controlPlane.next s c).db = db' := Call.after_of_ok hok
  exact stirs_of_mem (h.next hc).wellFormed.toKeyed ht (hdb ▸ ht') hid hst

theorem stirs_of_dispatchReady {scan : Scan}
    (hc : controlPlane.allowed s ⟨env, .dispatchReady scan⟩)
    (hst : t.status = .ready) (hscan : t.id ∈ scan.ids) (hlen : scan.ids.length ≤ 100) :
    stirs t.workflowRunId s ⟨env, .dispatchReady scan⟩ = true := by
  have hk := h.wellFormed.toKeyed
  obtain ⟨r, hr, hrid⟩ := h.wellFormed.runOf t ht
  have hmem : (t, r) ∈ readyTasks env scan s.db :=
    mem_readyTasks_of_mem_scan hk hlen hscan ht hr hrid hst
      ((h.available t ht (Or.inl hst)).trans hc.1)
  have hrow : dispatchRow env ((readyTasks env scan s.db).map fun e => e.1.id) t ∈
      (dispatchReady env scan s.db).taskRuns := by
    rw [dispatchReady_eq hk]
    exact List.mem_map_of_mem ht
  rw [dispatchRow, if_pos (List.mem_map.2 ⟨_, hmem, rfl⟩)] at hrow
  exact h.stirs_of_exec ht hc rfl hrow rfl (by simp [hst])

theorem stirs_of_leaseTask {w : String} {d : ℤ}
    (hc : controlPlane.allowed s ⟨env, .leaseTask t.id w d⟩) (hst : t.status = .dispatching) :
    stirs t.workflowRunId s ⟨env, .leaseTask t.id w d⟩ = true := by
  have hk := h.wellFormed.toKeyed
  obtain ⟨⟨⟨t₁, uri⟩, db'⟩, hok⟩ :=
    leaseTask_succeeds env h.wellFormed h.attemptsBounded ht hst w d
  obtain ⟨u, hu, hid, -, rfl, -, hdb⟩ := leaseTask_ok hk hok
  obtain rfl := Table.eq_of_key hk.tasks hu ht hid
  have hrow : lease env w d u ∈ db'.taskRuns := by
    rw [hdb]
    exact Table.mem_update.2 ⟨u, ht, by simp⟩
  exact h.stirs_of_exec ht hc (by rw [Call.exec, Op.exec, hok]; rfl) hrow rfl
    (by simp [lease, hst])

theorem stirs_of_recoverExpired {scan : Scan}
    (hc : controlPlane.allowed s ⟨env, .recoverExpired scan⟩) (hact : t.status.active = true)
    (hexpired : ∃ x ∈ t.leaseExpiresAt, x ≤ env.now) (hscan : t.id ∈ scan.ids)
    (hlen : scan.ids.length ≤ 100) :
    stirs t.workflowRunId s ⟨env, .recoverExpired scan⟩ = true := by
  have hk := h.wellFormed.toKeyed
  obtain ⟨r, hr, hrid⟩ := h.wellFormed.runOf t ht
  have hmem : (t, r) ∈ expiredLeases env scan s.db :=
    mem_expiredLeases_of_mem_scan hk hlen hscan ht hr hrid hact hexpired
  have hrow : expireRow env (expiredLeases env scan s.db) t ∈
      (recoverExpired env scan s.db).taskRuns := by
    rw [recoverExpired_eq]
    exact List.mem_map_of_mem ht
  rw [expireRow_of_mem (nodup_expiredLeases hk scan) hmem] at hrow
  have hne : expiryStatus (t, r) ≠ t.status := by
    rintro heq
    rcases expiryStatus_cases (t, r) with hst | hst | hst <;>
      simp [← heq, hst.1, TaskStatus.active] at hact
  exact h.stirs_of_exec ht hc rfl hrow rfl hne

theorem stirs_of_serves {c : Call} (hc : controlPlane.allowed s c) (hserves : c.serves t) :
    stirs t.workflowRunId s c = true := by
  obtain ⟨env, op⟩ := c
  cases op with
  | promoteRetries =>
    have hdue : t.status = .retryWait ∧ t.availableAt ≤ env.now := hserves
    have hrow : promote env t ∈ (promoteRetries env s.db).taskRuns := List.mem_map_of_mem ht
    rw [promote, if_pos hdue] at hrow
    exact h.stirs_of_exec ht hc rfl hrow rfl (by simp [hserves.1])
  | recoverExpired scan =>
    exact h.stirs_of_recoverExpired ht hc hserves.1 hserves.2.1 hserves.2.2.1 hserves.2.2.2
  | dispatchReady scan => exact h.stirs_of_dispatchReady ht hc hserves.1 hserves.2.1 hserves.2.2
  | leaseTask id w d =>
    obtain ⟨hst, rfl⟩ := hserves
    exact h.stirs_of_leaseTask ht hc hst
  | _ => exact hserves.elim

/-- A task that can move is served by some call : a lease whose worker is never heard of again
expires, and a delay ends. -/
theorem exists_serves (hlive : t.status.live = true) :
    ∃ c, controlPlane.allowed s c ∧ c.serves t := by
  have hallowed : ∀ now, s.clock ≤ now → ∀ op : Op,
      controlPlane.allowed s ⟨Env.at now s.db.nextId, op⟩ := fun now hnow op =>
    ⟨hnow, Db.fresh_at s.db.lt_nextId _⟩
  have hone : t.id ∈ (Scan.ofList [t.id]).ids ∧ (Scan.ofList [t.id]).ids.length ≤ 100 := by
    simp [Scan.ofList]
  have hexpiry : t.status.active = true → ∃ c, controlPlane.allowed s c ∧ c.serves t := by
    intro hact
    obtain ⟨x, hx⟩ := Option.ne_none_iff_exists'.1 ((h.bookkept t ht).expiry.1 hact)
    exact ⟨_, hallowed (max s.clock x) (le_max_left _ _) (.recoverExpired (.ofList [t.id])),
      hact, ⟨x, hx, le_max_right _ _⟩, hone⟩
  cases hst : t.status with
  | ready => exact ⟨_, hallowed _ le_rfl (.dispatchReady (.ofList [t.id])), hst, hone⟩
  | dispatching => exact ⟨_, hallowed _ le_rfl (.leaseTask t.id "worker" 0), hst, rfl⟩
  | leased => exact hexpiry (by rw [hst]; rfl)
  | running => exact hexpiry (by rw [hst]; rfl)
  | retryWait =>
    exact ⟨_, hallowed (max s.clock t.availableAt) (le_max_left _ _) .promoteRetries, hst,
      le_max_right _ _⟩
  | _ => simp [hst, TaskStatus.live] at hlive

theorem advances_of_live (hlive : t.status.live = true) : Advances t.workflowRunId s :=
  ⟨t, ht, rfl, h.exists_serves ht hlive, fun _ hc => h.stirs_of_serves ht hc⟩

end Advances

/-- The run stays, whatever the calls. -/
theorem exists_run_next {s : State} (h : Reachable s) (c : Call) {r : Run}
    (hr : r ∈ s.db.workflowRuns) :
    ∃ r' ∈ (controlPlane.next s c).db.workflowRuns, r'.id = r.id := by
  refine controlPlane_step (P := fun db => ∃ r' ∈ db.workflowRuns, r'.id = r.id) ⟨r, hr, rfl⟩ ?_
  intro reply db' hok
  rcases exec_moves h.wellFormed.toKeyed hok with hm | ⟨run, dag, hcr⟩
  · obtain ⟨r', hr', hmove⟩ := hm.mem_run hr
    exact ⟨r', hr', hmove.id⟩
  · exact ⟨r, hcr.run_mem hr, rfl⟩

end Reachable

/-- Running runs stay open if every call that reopens a run reopens the whole run. -/
theorem runsOpen_run {s₀ : State} (h0 : Init s₀) {cs : List Call} (hv : controlPlane.Valid s₀ cs)
    (hwhole : controlPlane.Along (fun s c => ReopensWhole s.db c.op) s₀ cs) :
    RunsOpen (controlPlane.run s₀ cs).db := by
  refine (controlPlane.invariant_along (P := fun s => s.db.WellFormed ∧ RunsOpen s.db)
    (fun s c hP hc => ?_) ⟨h0.wellFormed, by simp [RunsOpen, h0.workflowRuns]⟩
    ((controlPlane.along_and _ _ cs s₀).2 ⟨hv, hwhole⟩)).2
  exact controlPlane_step (P := fun db => db.WellFormed ∧ RunsOpen db) hP fun reply db' hok =>
    ⟨exec_wellFormed hP.1 hc.1.2 hok, exec_runsOpen hP.1 hc.1.2 hok hc.2 hP.2⟩

/-- Runs end : after a history in which every call that reopens a run reopens the whole run,
and however it goes on without reopening the run `r`, the calls that change a status of `r`
are at most as many as the work that `r` had left; and as long as `r` is running it has a task
such that any phase of the scheduler that sees it when it is due, or any lease of it, takes more
of the work. -/
theorem run_ends {s₀ : State} (h0 : Init s₀) {cs ds : List Call}
    (hv : controlPlane.Valid s₀ (cs ++ ds))
    (hwhole : controlPlane.Along (fun s c => ReopensWhole s.db c.op) s₀ (cs ++ ds))
    {r : Run} (hr : r ∈ (controlPlane.run s₀ cs).db.workflowRuns)
    (hops : controlPlane.Along (fun s c => reopens r.id s.db c.op = false)
      (controlPlane.run s₀ cs) ds) :
    controlPlane.countAlong (stirs r.id) (controlPlane.run s₀ cs) ds +
        (controlPlane.run s₀ (cs ++ ds)).db.work r.id ≤ (controlPlane.run s₀ cs).db.work r.id ∧
      ((∃ r' ∈ (controlPlane.run s₀ (cs ++ ds)).db.workflowRuns,
          r'.id = r.id ∧ r'.status = .running) →
        Advances r.id (controlPlane.run s₀ (cs ++ ds))) := by
  obtain ⟨hvcs, hvds⟩ := (controlPlane.along_append _ cs ds s₀).1 hv
  have hreach : Reachable (controlPlane.run s₀ cs) := ⟨s₀, cs, h0, hvcs, rfl⟩
  have hend : Reachable (controlPlane.run s₀ (cs ++ ds)) := ⟨s₀, cs ++ ds, h0, hv, rfl⟩
  constructor
  · rw [controlPlane.run_append]
    refine controlPlane.countAlong_add_le
      (I := fun s => Reachable s ∧ ∃ r' ∈ s.db.workflowRuns, r'.id = r.id)
      (f := fun s => s.db.work r.id) (fun s c hI hc => ?_) (fun s c hI hc => ?_)
      ⟨hreach, r, hr, rfl⟩ ((controlPlane.along_and _ _ ds _).2 ⟨hvds, hops⟩)
    · obtain ⟨hs, r', hr', hid⟩ := hI
      obtain ⟨r'', hr'', hid'⟩ := hs.exists_run_next c hr'
      exact ⟨hs.next hc.1, r'', hr'', hid'.trans hid⟩
    · obtain ⟨hs, r', hr', hid⟩ := hI
      obtain ⟨⟨-, hfresh⟩, hop⟩ := hc
      rw [← hid] at hop ⊢
      refine controlPlane_step (P := fun db => (decide (db.statusesOf r'.id ≠
        s.db.statusesOf r'.id)).toNat + db.work r'.id ≤ s.db.work r'.id) (by simp) ?_
      exact fun reply db' hok => exec_work hs.wellFormed hfresh hok hr' hop
  · rintro ⟨r', hr', hid, hrun⟩
    obtain ⟨t, ht, hrid, hlive⟩ := (runsOpen_run h0 hv hwhole).noStuckRun hend.wellFormed
      hend.exactlyReady hend.ne_failed r' hr' hrun
    rw [← hid, ← hrid]
    exact hend.advances_of_live ht hlive

/-- The first two calls of a new chain. -/
def chainLeased : List Call :=
  play chainStarted [(2, .dispatchReady (.ofList [4])), (3, .leaseTask 4 "w" 100)]

/-- The new chain has two tasks of three attempts, the second of them blocked. A dispatch and
a lease take two from its work. -/
theorem run_ends_chain :
    chainStarted.db.work 3 = 31 ∧
      controlPlane.countAlong (stirs 3) chainStarted chainLeased +
        (controlPlane.run chainStarted chainLeased).db.work 3 ≤ chainStarted.db.work 3 ∧
      Advances 3 (controlPlane.run chainStarted chainLeased) := by
  have hv : controlPlane.Valid twoDefinitions
      (play twoDefinitions [(1, .createRun 1 none 1 "k" "" none)] ++ chainLeased) :=
    (controlPlane.along_append _ _ _ _).2
      ⟨valid_play _ _ (by decide), valid_play _ chainStarted (by decide)⟩
  obtain ⟨r, hr, hid⟩ : ∃ r ∈ chainStarted.db.workflowRuns, r.id = 3 := by decide
  obtain ⟨hcount, hadv⟩ := run_ends init_twoDefinitions hv ⟨trivial, trivial, trivial, trivial⟩ hr
    ⟨rfl, rfl, trivial⟩
  rw [hid] at hcount hadv
  have hsplit : controlPlane.run twoDefinitions
      (play twoDefinitions [(1, .createRun 1 none 1 "k" "" none)] ++ chainLeased) =
      controlPlane.run chainStarted chainLeased := controlPlane.run_append _ _ _
  rw [hsplit] at hcount hadv
  exact ⟨by decide, hcount, hadv (by decide)⟩

end RunMesh
