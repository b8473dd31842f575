import RunMesh.Bookkeeping
import RunMesh.Quiescence

/-!
# Reopening a failed run

A task that fails for good fails its run and cancels the tasks that wait. Two operations
reopen the run. `replayDead` revives the dead task and rebuilds the cancelled ones :
blocked while an upstream has not succeeded, waiting while the delay of a retry lasts, and
ready otherwise. Since a task is blocked exactly while an upstream has not succeeded
(`ExactlyReady`) and a task that can be claimed is available (`Available`), this gives each
its old status back, a dispatched task being ready again (`replay_undoes_failure`).

`retryRun` revives the dead tasks and rebuilds nothing. For a run with one dead task the
two leave the same rows exactly if no task of the run was cancelled
(`retry_replay_agree_iff`).
-/

namespace RunMesh

open Fallible

variable {env env₁ env₂ : Env} {db db' : Db}

/-! ## Replay after a failure -/

/-- The status a task had, as it is rebuilt at the time `now`. -/
def rebuiltStatus (now : ℤ) (t : TaskRun) : TaskStatus :=
  match t.status with
  | .dispatching => .ready
  | .retryWait => if t.availableAt ≤ now then .ready else .retryWait
  | st => st

/-- A task row before the failure of the task `taskId` of the run `runId`, and after its
replay at the time `now`. -/
structure Undone (now : ℤ) (runId taskId : ℕ) (t t' : TaskRun) : Prop where
  id : t'.id = t.id
  replayed : t.id = taskId → t'.status = .ready ∧ t'.attemptCount < t'.maximumAttempts
  other : t.id ≠ taskId → t'.attemptCount = t.attemptCount ∧
    t'.maximumAttempts = t.maximumAttempts ∧
    t'.status = if t.workflowRunId = runId then rebuiltStatus now t else t.status

/-- A dead task can be replayed by its tenant. -/
theorem replayDead_of_dead {t : TaskRun} {r : Run} (ht : t ∈ db.taskRuns)
    (hr : r ∈ db.workflowRuns) (hrid : r.id = t.workflowRunId) (hdead : t.status = .dead)
    (user : Option ℕ) : ∃ db', replayDead env r.tenantId user t.id db = .ok db' := by
  obtain ⟨tr, hfind⟩ : ∃ tr, (db.tasksWithRun.find? fun tr =>
      tr.1.id = t.id ∧ tr.2.tenantId = r.tenantId ∧ tr.1.status = .dead) = some tr :=
    Table.exists_find?_join ht hr hrid (by simp [hdead])
  simp only [replayDead, bind_eq_ok, orError_eq_ok]
  exact ⟨_, tr, hfind, rfl⟩

/-- What a failure leaves of the upstreams of a task. -/
theorem failTask_unfinished (hk : db.Keyed) {id : ℕ} {w : String} {f : Failure} {t₁ : TaskRun}
    (h : failTask env id w f db = .ok (t₁, db')) {u u' : TaskRun} (hid : u'.id = u.id) :
    (∃ v ∈ db'.upstream db'.taskRuns u', v.status ≠ .succeeded) ↔
      ∃ v ∈ db.upstream db.taskRuns u, v.status ≠ .succeeded :=
  (failTask_moves hk h).exists_upstream_iff hid fun _ _ hmove =>
    not_congr (hmove.succeeded_iff (by simp))

/-- A waiting task is rebuilt as it was. -/
theorem rebuild_status (hk : db.Keyed) (hready : ExactlyReady db)
    {w : String} {f : Failure} {t t₁ : TaskRun}
    (hfail : failTask env₁ t.id w f db = .ok (t₁, db')) {u : TaskRun} (hu : u ∈ db.taskRuns)
    (hwait : u.status.waiting = true)
    (hav : u.status = .ready ∨ u.status = .dispatching → u.availableAt ≤ env₂.now)
    {d u' : TaskRun} (hd : d ∈ db'.taskRuns) (hdead : d.status = .dead) (hid : u'.id = u.id)
    (havail : u'.availableAt = u.availableAt) :
    (rebuild env₂ db' (revived env₂ db' d) u').status = rebuiltStatus env₂.now u := by
  have hk' := (failTask_moves hk hfail).keyed hk
  have hblocked : db'.hasUnfinishedUpstream (revived env₂ db' d) u' = true ↔
      u.status = .blocked := by
    rw [hasUnfinishedUpstream_revived hk' hd hdead, failTask_unfinished hk hfail hid]
    exact (hready u hu fun hc => by simp [hc, TaskStatus.waiting] at hwait).symm
  simp only [rebuild, hblocked, havail, rebuiltStatus]
  cases hst : u.status with
  | blocked => simp
  | ready => simpa using hav (.inl hst)
  | dispatching => simpa using hav (.inr hst)
  | retryWait =>
    by_cases hle : u.availableAt ≤ env₂.now
    · simp [hle]
    · simp [hle, not_le.1 hle]
  | _ => simp [hst, TaskStatus.waiting] at hwait

/-- The database after a final failure of `t`, a task of the running run `r`. -/
structure FailedBy (env : Env) (f : Failure) (t : TaskRun) (r : Run) (db db' : Db) : Prop where
  tasks : db'.taskRuns = db.taskRuns.map (failRow env f t r)
  dead : reportStatus f t r = .dead
  mem : endLease env .dead env.wall t ∈ db'.taskRuns
  run : { r with status := .failed, completedAt := some env.now } ∈ db'.workflowRuns

theorem failedBy_of_failTask (hk : db.Keyed) {w : String} {f : Failure} {t t₁ : TaskRun} {r : Run}
    (hheld : Holds env db w t r) (hrun : r.status = .running) (hf : f.retryable = false)
    (h : failTask env t.id w f db = .ok (t₁, db')) : FailedBy env f t r db db' := by
  obtain ⟨t₀, r₀, hheld₀, hid, -, -, hdb⟩ := failTask_ok hk h
  obtain ⟨rfl, rfl⟩ := hheld₀.unique hk hheld hid.symm
  have hdead : reportStatus f t r = .dead := by
    simp [reportStatus, failureStatus, hrun, hf]
  have hrow : failRow env f t r t = endLease env .dead env.wall t := by
    simp [failRow, hdead, failureAvailable]
  have hfailed : failRun env t.workflowRunId r =
      { r with status := .failed, completedAt := some env.now } :=
    if_pos ⟨hheld.runId, hrun⟩
  refine ⟨by rw [hdb], hdead, ?_, ?_⟩
  · rw [hdb, ← hrow]
    exact List.mem_map_of_mem hheld.mem
  · rw [hdb, ← hfailed]
    simp only [hdead, if_true]
    exact List.mem_map_of_mem hheld.run

/-- One row, through the failure of `t` and its replay. -/
theorem undone_row (hk : db.Keyed) (hready : ExactlyReady db) {w : String} {f : Failure}
    {t t₁ : TaskRun} {r : Run} (hfail : failTask env₁ t.id w f db = .ok (t₁, db'))
    (hby : FailedBy env₁ f t r db db') (hrid : r.id = t.workflowRunId) {u : TaskRun}
    (hu : u ∈ db.taskRuns) (hst : u.workflowRunId = r.id → u.status ≠ .cancelled)
    (hav : u.status = .ready ∨ u.status = .dispatching → u.availableAt ≤ env₂.now) :
    Undone env₂.now r.id t.id u
      (replayRow env₂ db' (endLease env₁ .dead env₁.wall t) (failRow env₁ f t r u)) := by
  by_cases hid : u.id = t.id
  · have hrow : replayRow env₂ db' (endLease env₁ .dead env₁.wall t) (failRow env₁ f t r u) =
        revive env₂ (failRow env₁ f t r u) := by
      simp [replayRow, failRow, hid, endLease]
    rw [hrow]
    exact ⟨by simp [revive, failRow, hid, endLease], fun _ => ⟨rfl, by simp [revive]⟩,
      fun hne => absurd hid hne⟩
  · have hfailRow : failRow env₁ f t r u = cancelWaiting env₁ r.id u := by
      simp [failRow, hid, hby.dead, hrid]
    rw [hfailRow, cancelWaiting]
    split_ifs with hwait
    · obtain ⟨hurun, hwait⟩ := hwait
      have hrow : replayRow env₂ db' (endLease env₁ .dead env₁.wall t)
            { u with status := .cancelled, updatedAt := env₁.now } =
          rebuild env₂ db' (revived env₂ db' (endLease env₁ .dead env₁.wall t))
            { u with status := .cancelled, updatedAt := env₁.now } := by
        simp [replayRow, endLease, hid, hurun, hrid]
      rw [hrow]
      refine ⟨rfl, fun heq => absurd heq hid, fun _ => ⟨rfl, rfl, ?_⟩⟩
      rw [if_pos hurun]
      exact rebuild_status hk hready hfail hu hwait hav hby.mem rfl rfl rfl
    · have hrow : replayRow env₂ db' (endLease env₁ .dead env₁.wall t) u = u := by
        rw [replayRow, if_neg (by simpa [endLease] using hid), if_neg]
        rintro ⟨hurun, hc⟩
        exact hst (hurun.trans hrid.symm) hc
      rw [hrow]
      refine ⟨rfl, fun heq => absurd heq hid, fun _ => ⟨rfl, rfl, ?_⟩⟩
      split_ifs with hurun
      · cases hus : u.status <;> simp [hurun, hus, rebuiltStatus, TaskStatus.waiting] at hwait ⊢
      · rfl

/-- Replay undoes what a final failure did to the run and to its other tasks. -/
theorem replay_undoes_failure {s : State} (h : Reachable s) {r : Run} {t : TaskRun} {w : String}
    (hheld : Holds env₁ s.db w t r) (hact : t.status.active = true) (hrun : r.status = .running)
    (hclean : ∀ u ∈ s.db.taskRuns, u.workflowRunId = r.id →
      u.status ≠ .dead ∧ u.status ≠ .cancelled)
    (hnow₁ : s.clock ≤ env₁.now) (hnow₂ : env₁.now ≤ env₂.now) {f : Failure}
    (hf : f.retryable = false) (user : Option ℕ) :
    ∃ t₁ db₁ db₂, failTask env₁ t.id w f s.db = .ok (t₁, db₁) ∧
      replayDead env₂ r.tenantId user t.id db₁ = .ok db₂ ∧
      (∃ r' ∈ db₂.workflowRuns, r'.id = r.id ∧ r'.status = .running) ∧
      List.Forall₂ (Undone env₂.now r.id t.id) s.db.taskRuns db₂.taskRuns := by
  have hk := h.wellFormed.toKeyed
  obtain ⟨t₁, db₁, hfail⟩ := failTask_of_holds hheld hact f
  have hby := failedBy_of_failTask hk hheld hrun hf hfail
  have hk₁ := (failTask_moves hk hfail).keyed hk
  obtain ⟨db₂, hreplay⟩ : ∃ db₂, replayDead env₂ r.tenantId user t.id db₁ = .ok db₂ :=
    replayDead_of_dead hby.mem hby.run hheld.runId rfl user
  obtain ⟨d, hd, q, -, hdid, -, -, -, hdb₂⟩ := replayDead_ok hreplay
  obtain rfl := Table.eq_of_key hk₁.tasks hby.mem hd hdid.symm
  refine ⟨t₁, db₁, db₂, hfail, hreplay, ?_, ?_⟩
  · rw [hdb₂]
    refine ⟨_, List.mem_map_of_mem hby.run, ?_⟩
    simp [reopenRun, endLease, hheld.runId]
  · rw [hdb₂, hby.tasks, List.map_map, List.forall₂_map_right_iff]
    refine List.forall₂_same.2 fun u hu => ?_
    exact undone_row hk h.exactlyReady hfail hby hheld.runId hu (fun hur => (hclean u hu hur).2)
      fun hst => (h.available u hu hst).trans (hnow₁.trans hnow₂)

/-- Both tasks of the pair are dispatched and one is leased. -/
def leasedPair : List (ℤ × Op) :=
  [(1, .createRun 1 none 2 "k" "" none), (2, .dispatchReady (.ofList [4, 5])),
    (3, .leaseTask 4 "w" 100)]

/-- The other task of the pair was dispatched, and is ready again after the replay. -/
theorem replay_undoes_failure_leasedPair :
    (twoDefinitions.after leasedPair).db.taskRuns.map TaskRun.status = [.leased, .dispatching] ∧
    ∃ t₁ db₁ db₂,
      failTask (Env.at 4 100) 4 "w" ⟨false, "", "", ""⟩ (twoDefinitions.after leasedPair).db =
        .ok (t₁, db₁) ∧
      replayDead (Env.at 9 200) 1 none 4 db₁ = .ok db₂ ∧
      (∃ r' ∈ db₂.workflowRuns, r'.id = 3 ∧ r'.status = .running) ∧
      List.Forall₂ (Undone 9 3 4) (twoDefinitions.after leasedPair).db.taskRuns db₂.taskRuns := by
  have hs : Reachable (twoDefinitions.after leasedPair) :=
    reachable_after init_twoDefinitions (by decide)
  obtain ⟨t, ht, hid, hst, hrid, howner, hexp⟩ :
      ∃ t ∈ (twoDefinitions.after leasedPair).db.taskRuns, t.id = 4 ∧ t.status = .leased ∧
        t.workflowRunId = 3 ∧ t.leaseOwner = some "w" ∧ t.leaseExpiresAt = some 103 := by decide
  obtain ⟨r, hr, hrun, htenant, hrun'⟩ :
      ∃ r ∈ (twoDefinitions.after leasedPair).db.workflowRuns, r.id = 3 ∧ r.tenantId = 1 ∧
        r.status = .running := by decide
  have hclean : ∀ u ∈ (twoDefinitions.after leasedPair).db.taskRuns,
      u.status ≠ .dead ∧ u.status ≠ .cancelled := by decide
  refine ⟨by decide, ?_⟩
  rw [← hid, ← hrun, ← htenant]
  exact replay_undoes_failure hs ⟨ht, hr, hrun.trans hrid.symm, howner, 103, hexp, by decide⟩
    (by rw [hst]; rfl) hrun' (fun u hu _ => hclean u hu) (by decide) (by decide) rfl none

/-! ## Retry and replay -/

/-- A task row without its timestamps. -/
def TaskRun.timeless (t : TaskRun) : TaskRun :=
  { t with availableAt := 0, updatedAt := 0 }

/-- Two ways to reopen the run `runId` of `db` leave the same rows : the run is running, and
the tasks that were cancelled wait again. -/
structure ReopenAlike (runId : ℕ) (db db₁ db₂ : Db) : Prop where
  runs : db₁.workflowRuns = db₂.workflowRuns
  running : ∀ r ∈ db₁.workflowRuns, r.id = runId → r.status = .running
  tasks : db₁.taskRuns.map TaskRun.timeless = db₂.taskRuns.map TaskRun.timeless
  restored : ∀ u ∈ db.taskRuns, u.workflowRunId = runId → u.status = .cancelled →
    ∀ u' ∈ db₁.taskRuns ++ db₂.taskRuns, u'.id = u.id → u'.status.waiting = true

/-- A run with a dead task can be retried by its tenant. -/
theorem retryRun_of_dead {t : TaskRun} {r : Run} (ht : t ∈ db.taskRuns)
    (hr : r ∈ db.workflowRuns) (hrid : t.workflowRunId = r.id) (hdead : t.status = .dead)
    (user : Option ℕ) : ∃ db', retryRun env r.tenantId user r.id db = .ok db' := by
  simp only [retryRun, bind_eq_ok, require_eq_ok]
  refine ⟨_, (), List.any_eq_true.2 ⟨r, hr, by simp⟩, (),
    List.any_eq_true.2 ⟨t, ht, by simp [hrid, hdead]⟩, rfl⟩

/-- On a failed run with one dead task and no cancelled one, retry and replay do the same. -/
theorem reopenAlike_of_forall {s : State} (h : Reachable s) {r : Run} {t : TaskRun}
    {user₁ user₂ : Option ℕ} {db₁ db₂ : Db}
    (hr : r ∈ s.db.workflowRuns) (hfailed : r.status = .failed) (ht : t ∈ s.db.taskRuns)
    (hrid : t.workflowRunId = r.id) (hdead : t.status = .dead)
    (honly : ∀ u ∈ s.db.taskRuns, u.workflowRunId = r.id → u.status = .dead → u = t)
    (hretry : retryRun env₁ r.tenantId user₁ r.id s.db = .ok db₁)
    (hreplay : replayDead env₂ r.tenantId user₂ t.id s.db = .ok db₂)
    (hnone : ∀ u ∈ s.db.taskRuns, u.workflowRunId = r.id → u.status ≠ .cancelled) :
    ReopenAlike r.id s.db db₁ db₂ := by
  have hk := h.wellFormed.toKeyed
  obtain ⟨d, hd, q, -, hdid, -, -, -, hdb₂⟩ := replayDead_ok hreplay
  obtain rfl := Table.eq_of_key hk.tasks ht hd hdid.symm
  obtain ⟨-, -, hdb₁⟩ := retryRun_ok hretry
  obtain ⟨howner, hexp⟩ := (h.bookkept t ht).lease_eq_none (by simp [hdead, TaskStatus.idle])
  refine ⟨?_, fun r' hr' hid => retryRun_status hretry hr' hid, ?_, ?_⟩
  · rw [hdb₁, hdb₂]
    refine List.map_congr_left fun q hq => ?_
    by_cases hqid : q.id = r.id
    · rw [Table.eq_of_key hk.runs hq hr hqid]
      simp [reopenRun, hrid, hfailed]
    · simp [reopenRun, hrid, hqid]
  · rw [hdb₁, hdb₂]
    simp only [Table.update, List.map_map]
    refine List.map_congr_left fun u hu => ?_
    by_cases hid : u.id = t.id
    · rw [Table.eq_of_key hk.tasks hu ht hid]
      simp [replayRow, hrid, hdead, TaskRun.timeless, revive, howner, hexp]
    · have hnot : ¬(u.workflowRunId = r.id ∧ u.status = .dead) := fun hu' =>
        hid (by rw [honly u hu hu'.1 hu'.2])
      have hrow : replayRow env₂ s.db t u = u := by
        rw [replayRow, if_neg hid, if_neg]
        exact fun hc => hnone u hu (hc.1.trans hrid) hc.2
      simp [hnot, hrow]
  · exact fun u hu hur hc => absurd hc (hnone u hu hur)

/-- Retry and replay agree on a failed run with one dead task exactly if none of its tasks
was cancelled. -/
theorem retry_replay_agree_iff {s : State} (h : Reachable s) {r : Run} {t : TaskRun}
    (hr : r ∈ s.db.workflowRuns) (hfailed : r.status = .failed) (ht : t ∈ s.db.taskRuns)
    (hrid : t.workflowRunId = r.id) (hdead : t.status = .dead)
    (honly : ∀ u ∈ s.db.taskRuns, u.workflowRunId = r.id → u.status = .dead → u = t)
    (env₁ env₂ : Env) (user₁ user₂ : Option ℕ) :
    ∃ db₁ db₂, retryRun env₁ r.tenantId user₁ r.id s.db = .ok db₁ ∧
      replayDead env₂ r.tenantId user₂ t.id s.db = .ok db₂ ∧
      (ReopenAlike r.id s.db db₁ db₂ ↔
        ∀ u ∈ s.db.taskRuns, u.workflowRunId = r.id → u.status ≠ .cancelled) := by
  obtain ⟨db₁, hretry⟩ : ∃ db₁, retryRun env₁ r.tenantId user₁ r.id s.db = .ok db₁ :=
    retryRun_of_dead ht hr hrid hdead user₁
  obtain ⟨db₂, hreplay⟩ : ∃ db₂, replayDead env₂ r.tenantId user₂ t.id s.db = .ok db₂ :=
    replayDead_of_dead ht hr hrid.symm hdead user₂
  refine ⟨db₁, db₂, hretry, hreplay, fun halike u hu hur hc => ?_,
    reopenAlike_of_forall h hr hfailed ht hrid hdead honly hretry hreplay⟩
  -- the retry leaves a cancelled task as it is
  have hkeep : u ∈ db₁.taskRuns := by
    rw [(retryRun_ok hretry).2.2]
    exact Table.mem_update.2 ⟨u, hu, by simp [hc]⟩
  have := halike.restored u hu hur hc u (List.mem_append_left _ hkeep) rfl
  simp [hc, TaskStatus.waiting] at this

/-- Both tasks of the pair are leased when one of them fails for good, so none is
cancelled. -/
def failedBesideLeased : List (ℤ × Op) :=
  [(1, .createRun 1 none 2 "k" "" none), (2, .dispatchReady (.ofList [4, 5])),
    (3, .leaseTask 4 "w" 100), (4, .leaseTask 5 "v" 100),
    (5, .failTask 4 "w" ⟨false, "ValueError", "", ""⟩)]

theorem retry_replay_agree_iff_failedBesideLeased :
    (twoDefinitions.after failedBesideLeased).db.taskRuns.map TaskRun.status = [.dead, .leased] ∧
    ∃ db₁ db₂,
      retryRun (Env.at 6 100) 1 none 3 (twoDefinitions.after failedBesideLeased).db = .ok db₁ ∧
      replayDead (Env.at 7 100) 1 none 4 (twoDefinitions.after failedBesideLeased).db = .ok db₂ ∧
      ReopenAlike 3 (twoDefinitions.after failedBesideLeased).db db₁ db₂ := by
  have hs : Reachable (twoDefinitions.after failedBesideLeased) :=
    reachable_after init_twoDefinitions (by decide)
  obtain ⟨t, ht, hid, hdead, hrid, honly⟩ :
      ∃ t ∈ (twoDefinitions.after failedBesideLeased).db.taskRuns, t.id = 4 ∧ t.status = .dead ∧
        t.workflowRunId = 3 ∧ ∀ u ∈ (twoDefinitions.after failedBesideLeased).db.taskRuns,
          u.status = .dead → u = t := by decide
  obtain ⟨r, hr, hrun, htenant, hfailed⟩ :
      ∃ r ∈ (twoDefinitions.after failedBesideLeased).db.workflowRuns, r.id = 3 ∧
        r.tenantId = 1 ∧ r.status = .failed := by decide
  have hnone : ∀ u ∈ (twoDefinitions.after failedBesideLeased).db.taskRuns,
      u.status ≠ .cancelled := by decide
  obtain ⟨db₁, db₂, hretry, hreplay, hiff⟩ := retry_replay_agree_iff hs hr hfailed ht
    (hrid.trans hrun.symm) hdead (fun u hu _ => honly u hu) (Env.at 6 100) (Env.at 7 100) none none
  rw [hrun, htenant] at hretry
  rw [hid, htenant] at hreplay
  rw [hrun] at hiff
  exact ⟨by decide, db₁, db₂, hretry, hreplay, hiff.2 fun u hu _ => hnone u hu⟩

/-- After the failure of one task of the pair cancelled the other, a retry leaves it
cancelled and a replay makes it ready. -/
theorem retry_differs_from_replay :
    ∃ s, Reachable s ∧ s.db.workflowRuns.map Run.status = [.failed] ∧
      s.db.taskRuns.map (fun t => (t.id, t.status)) = [(4, .dead), (5, .cancelled)] ∧
      ∃ db₁ db₂, retryRun (Env.at 6 100) 1 none 3 s.db = .ok db₁ ∧
        replayDead (Env.at 6 100) 1 none 4 s.db = .ok db₂ ∧
        db₁.workflowRuns.map Run.status = [.running] ∧
        db₁.taskRuns.map TaskRun.status = [.ready, .cancelled] ∧
        db₂.workflowRuns.map Run.status = [.running] ∧
        db₂.taskRuns.map TaskRun.status = [.ready, .ready] ∧
        ¬ReopenAlike 3 s.db db₁ db₂ := by
  have hs : Reachable (twoDefinitions.after failedPair) :=
    reachable_after init_twoDefinitions (by decide)
  refine ⟨_, hs, by decide, by decide, _, _, rfl, rfl, by decide, by decide, by decide, by decide,
    fun halike => ?_⟩
  have htasks := congrArg (List.map TaskRun.status) halike.tasks
  exact absurd htasks (by decide)

end RunMesh
