import RunMesh.Calls

/-!
# What a call does to the rows

One lemma per operation inverts its success : the row it found, the guards that row
passed, and the tables it leaves. A call is about one task row, so with unique ids every
update is an update of the row with that id. The two loops of the scheduler are updates
of each row by itself : an expired lease is ended once, and a selected task is dispatched
once.
-/

namespace RunMesh

open Fallible

/-- The primary keys of runs and tasks. -/
structure Db.Keyed (db : Db) : Prop where
  runs : (db.workflowRuns.map Run.id).Nodup
  tasks : (db.taskRuns.map TaskRun.id).Nodup

/-- `workerId` has an unexpired lease on the task `t` of the run `r`. -/
structure Holds (env : Env) (db : Db) (workerId : String) (t : TaskRun) (r : Run) : Prop where
  mem : t ∈ db.taskRuns
  run : r ∈ db.workflowRuns
  runId : r.id = t.workflowRunId
  owner : t.leaseOwner = some workerId
  unexpired : ∃ x, t.leaseExpiresAt = some x ∧ env.now < x

variable {env : Env} {db db' : Db}

theorem heldBy_iff {id : ℕ} {w : String} {t : TaskRun} :
    heldBy env id w t = true ↔
      t.id = id ∧ t.leaseOwner = some w ∧ ∃ x, t.leaseExpiresAt = some x ∧ env.now < x := by
  simp [heldBy, Option.any_eq_true, and_assoc]

/-- The end of a lease leaves a task cancelled, waiting for a retry, or dead. -/
theorem failureStatus_cases (s : RunStatus) (retryable : Bool) (attempt max : ℕ) :
    (failureStatus s retryable attempt max = .cancelled ∧ s = .cancelled) ∨
      (failureStatus s retryable attempt max = .retryWait ∧ s ≠ .cancelled ∧
        retryable = true ∧ attempt < max) ∨
      (failureStatus s retryable attempt max = .dead ∧ s ≠ .cancelled ∧
        ¬(retryable = true ∧ attempt < max)) := by
  unfold failureStatus
  split_ifs with hc hr
  · exact Or.inl ⟨rfl, hc⟩
  · exact Or.inr (Or.inl ⟨rfl, hc, hr⟩)
  · exact Or.inr (Or.inr ⟨rfl, hc, hr⟩)

/-! ## The worker protocol -/

theorem leaseTask_ok (hk : db.Keyed) {id : ℕ} {w : String} {d : ℤ} {t' : TaskRun}
    {uri : Option String} (h : leaseTask env id w d db = .ok ((t', uri), db')) :
    ∃ t ∈ db.taskRuns, t.id = id ∧ t.status = .dispatching ∧ t' = lease env w d t ∧
      (∀ a ∈ db.taskAttempts, a.taskRunId = t.id → a.attemptNumber ≠ t.attemptCount + 1) ∧
      db' = { db with
        taskRuns := Table.update (fun s => s.id = t.id) (lease env w d) db.taskRuns
        taskAttempts := db.taskAttempts ++ [newAttempt env w t']
        outboxEvents := db.outboxEvents ++ [leasedEvent env w t'] } := by
  simp only [leaseTask, bind_eq_ok, orError_eq_ok, require_eq_ok] at h
  obtain ⟨t₁, ht, r, -, -, hu, h⟩ := h
  obtain ⟨t, hmem, hp, rfl⟩ := Table.head?_returning ht
  cases h
  simp only [decide_eq_true_eq] at hp
  refine ⟨t, hmem, hp.1, hp.2, rfl, ?_, ?_⟩
  · intro a ha hid hn
    have := List.all_eq_true.1 hu a ha
    simp [lease, hid, hn] at this
  · rw [Table.update_eq_of_key hk.tasks hmem (by simp [hp]) (by simp +contextual [hp.1])]

theorem startTask_ok (hk : db.Keyed) {id : ℕ} {w : String} {t' : TaskRun}
    (h : startTask env id w db = .ok (t', db')) :
    ∃ t r, Holds env db w t r ∧ t.id = id ∧ t.status = .leased ∧ r.status = .running ∧
      t' = { t with status := .running, updatedAt := env.now } ∧
      db' = { db with
        taskRuns := Table.update (fun s => s.id = t.id)
          (fun t => { t with status := .running, updatedAt := env.now }) db.taskRuns
        taskAttempts := Table.update
          (fun a => a.taskRunId = t.id ∧ a.attemptNumber = t.attemptCount ∧ a.executingAt = none)
          (fun a => { a with executingAt := some env.now }) db.taskAttempts } := by
  simp only [startTask, bind_eq_ok, orError_eq_ok, require_eq_ok] at h
  obtain ⟨⟨t, r⟩, htr, -, hrun, t₁, ht, h⟩ := h
  obtain ⟨hmem, hr, hrid, hp⟩ := Table.find?_join htr
  obtain ⟨s, hs, hps, rfl⟩ := Table.head?_returning ht
  cases h
  simp only [Bool.and_eq_true, heldBy_iff, decide_eq_true_eq] at hp hps hrun
  obtain ⟨⟨hid, howner, hexp⟩, hst⟩ := hp
  obtain rfl := Table.eq_of_key hk.tasks hmem hs (hid.trans hps.1.1.symm)
  refine ⟨t, r, ⟨hmem, hr, hrid, howner, hexp⟩, hid, hst, hrun, rfl, ?_⟩
  rw [Table.update_eq_of_key hk.tasks hmem (by simp [heldBy_iff, hps])
    (by simp +contextual [heldBy_iff, hid])]

theorem heartbeatTask_ok (hk : db.Keyed) {id : ℕ} {w : String} {d : ℤ} {b : ℤ × Bool}
    (h : heartbeatTask env id w d db = .ok (b, db')) :
    ∃ t r, Holds env db w t r ∧ t.id = id ∧ t.status.active = true ∧
      b = (env.now + d, decide (r.status = .cancelled)) ∧
      db' = { db with
        taskRuns := Table.update (fun s => s.id = t.id)
          (fun t => { t with leaseExpiresAt := some (env.now + d), updatedAt := env.now })
          db.taskRuns } := by
  simp only [heartbeatTask, bind_eq_ok, orError_eq_ok] at h
  obtain ⟨⟨t₁, r⟩, htr, h⟩ := h
  obtain ⟨hm, hr, hrid⟩ := Table.mem_join.1 (List.mem_of_mem_head? htr)
  obtain ⟨t, ht, rfl⟩ := List.mem_map.1 hm
  obtain ⟨hmem, hp⟩ := List.mem_filter.1 ht
  cases h
  simp only [Bool.and_eq_true, heldBy_iff] at hp
  obtain ⟨⟨hid, howner, hexp⟩, hact⟩ := hp
  refine ⟨t, r, ⟨hmem, hr, hrid, howner, hexp⟩, hid, hact, rfl, ?_⟩
  rw [Table.update_eq_of_key hk.tasks hmem (by simp [heldBy_iff, hid, howner, hexp, hact])
    (by simp +contextual [heldBy_iff, hid])]

/-- The completion of `t` wakes `s` : `s` is blocked, depends on `t`, and has no other
upstream that has not succeeded. -/
def Wakes (db : Db) (t s : TaskRun) : Prop :=
  s.workflowRunId = t.workflowRunId ∧ s.status = .blocked ∧
    (∃ d ∈ db.taskDependencies, d.taskRunId = s.id ∧ d.dependsOnTaskRunId = t.id) ∧
    ∀ u ∈ db.upstream db.taskRuns s, u.id = t.id ∨ u.status = .succeeded

instance : DecidableRel (Wakes db) := fun _ _ => inferInstanceAs (Decidable (_ ∧ _))

/-- A task row after the completion of `t`. -/
def completeRow (env : Env) (db : Db) (t : TaskRun) (output artifactUri : String)
    (s : TaskRun) : TaskRun :=
  if s.id = t.id then succeed env output artifactUri s
  else if Wakes db t s then wake env s
  else s

/-- The rows a completion wakes, read in the table with `t` succeeded. -/
theorem wakeable_iff {t s : TaskRun} {o a : String} :
    wakeable db (Table.update (fun s => s.id = t.id) (succeed env o a) db.taskRuns)
      t.workflowRunId t.id s = true ↔ Wakes db t s := by
  have hready : db.hasUnfinishedUpstream
      (Table.update (fun s => s.id = t.id) (succeed env o a) db.taskRuns) s = false ↔
      ∀ u ∈ db.upstream db.taskRuns s, u.id = t.id ∨ u.status = .succeeded := by
    rw [← Bool.not_eq_true, Db.hasUnfinishedUpstream_iff, Table.update]
    simp only [Db.mem_upstream_map (f := fun r => if decide (r.id = t.id) then succeed env o a r
      else r) (fun u => by split_ifs <;> rfl)]
    constructor
    · intro h u hu
      by_contra hne
      rw [not_or] at hne
      exact h ⟨_, ⟨u, hu, rfl⟩, by simp [hne]⟩
    · rintro h ⟨_, ⟨u, hu, rfl⟩, hne⟩
      rcases h u hu with hid | hst
      · simp [hid, succeed] at hne
      · by_cases hid : u.id = t.id <;> simp [hid, hst, succeed] at hne
  simp [wakeable, Wakes, hready, and_assoc]

section Completion

variable {t : TaskRun} {o a : String}

/-- The two updates of a completion, row by row. -/
theorem update_wakeable :
    Table.update
      (wakeable db (Table.update (fun s => s.id = t.id) (succeed env o a) db.taskRuns)
        t.workflowRunId t.id) (wake env)
      (Table.update (fun s => s.id = t.id) (succeed env o a) db.taskRuns) =
    db.taskRuns.map (completeRow env db t o a) := by
  conv_lhs => rw [Table.update]
  conv_lhs => arg 2; rw [Table.update]
  rw [List.map_map]
  refine List.map_congr_left fun s hs => ?_
  simp only [Function.comp_apply, wakeable_iff, completeRow]
  by_cases hid : s.id = t.id
  · simp [hid, Wakes, succeed]
  · simp [hid]

/-- The rows a completion reads as its children. -/
theorem filter_wakeable (hk : db.Keyed) (ht : t ∈ db.taskRuns) (hst : t.status = .running) :
    (Table.update (fun s => s.id = t.id) (succeed env o a) db.taskRuns).filter
      (wakeable db (Table.update (fun s => s.id = t.id) (succeed env o a) db.taskRuns)
        t.workflowRunId t.id) =
    db.taskRuns.filter fun s => Wakes db t s := by
  have hself : ∀ s ∈ db.taskRuns, s.id = t.id → ¬Wakes db t s := by
    intro s hs hid hw
    rw [Table.eq_of_key hk.tasks hs ht hid] at hw
    simp [Wakes, hst] at hw
  conv_lhs => arg 2; rw [Table.update]
  rw [List.filter_map]
  have hfilter : db.taskRuns.filter ((wakeable db
      (Table.update (fun s => s.id = t.id) (succeed env o a) db.taskRuns) t.workflowRunId t.id) ∘
        fun s => if decide (s.id = t.id) = true then succeed env o a s else s) =
      db.taskRuns.filter fun s => Wakes db t s := by
    refine List.filter_congr fun s hs => ?_
    rw [Bool.eq_iff_iff, Function.comp_apply, wakeable_iff]
    by_cases hid : s.id = t.id
    · have hno : ¬Wakes db t (succeed env o a s) := by simp [Wakes, succeed]
      simp [hid, hno, hself s hs hid]
    · simp [hid]
  rw [hfilter]
  refine (List.map_congr_left fun s hs => ?_).trans (List.map_id' _)
  obtain ⟨hs, hw⟩ := List.mem_filter.1 hs
  have hid : s.id ≠ t.id := fun hid => hself s hs hid (by simpa using hw)
  simp [hid]

/-- The count of a completion is zero. -/
theorem remaining_eq_zero :
    (db.taskRuns.map (completeRow env db t o a)).countP (fun u =>
      u.workflowRunId = t.workflowRunId ∧ u.status ≠ .succeeded) = 0 ↔
    ∀ u ∈ db.taskRuns, u.workflowRunId = t.workflowRunId →
      u.id = t.id ∨ u.status = .succeeded := by
  simp only [List.countP_eq_zero, List.forall_mem_map, decide_eq_true_eq]
  refine forall₂_congr fun u _ => ?_
  unfold completeRow
  split_ifs with hid hw
  · simp [hid, succeed]
  · simp [hid, hw.1, hw.2.1, wake]
  · simp [hid]

end Completion

theorem completeTask_ok (hk : db.Keyed) {id : ℕ} {w o a : String} {logs : List String}
    {t' : TaskRun} (h : completeTask env id w o a logs db = .ok (t', db')) :
    ∃ t r, Holds env db w t r ∧ t.id = id ∧ t.status = .running ∧ r.status = .running ∧
      ∃ o', t' = succeed env o' a t ∧
      db' = { db with
        workflowRuns :=
          if ∀ u ∈ db.taskRuns, u.workflowRunId = t.workflowRunId →
            u.id = t.id ∨ u.status = .succeeded
          then db.workflowRuns.map (completeRun env t.workflowRunId) else db.workflowRuns
        taskRuns := db.taskRuns.map (completeRow env db t o' a)
        taskAttempts := Table.update
          (fun b => b.taskRunId = t.id ∧ b.attemptNumber = t.attemptCount)
          (fun b => { b with
            endedAt := some env.now
            exitStatus := some .succeeded
            artifactUri := nullIfEmpty a
            logArtifactUri := nullIfEmpty (logs.headD "") }) db.taskAttempts
        outboxEvents := db.outboxEvents ++
          (readyEvents env t.workflowRunId (db.taskRuns.filter fun s => Wakes db t s) ++
            [succeededEvent env (db.taskRuns.filter fun s => Wakes db t s).length t']) } := by
  simp only [completeTask, bind_eq_ok, orError_eq_ok, require_eq_ok] at h
  obtain ⟨⟨t, r⟩, htr, -, hrun, t₁, ht, h⟩ := h
  obtain ⟨hmem, hr, hrid, hp⟩ := Table.find?_join htr
  obtain ⟨s, hs, hps, rfl⟩ := Table.head?_returning ht
  cases h
  simp only [Bool.and_eq_true, heldBy_iff, decide_eq_true_eq] at hp hps hrun
  obtain ⟨⟨hid, howner, hexp⟩, hst⟩ := hp
  obtain rfl := Table.eq_of_key hk.tasks hmem hs (hid.trans hps.1.1.symm)
  refine ⟨t, r, ⟨hmem, hr, hrid, howner, hexp⟩, hid, hst, hrun, _, rfl, ?_⟩
  rw [Table.update_eq_of_key hk.tasks hmem (by simp [heldBy_iff, hps])
    (by simp +contextual [heldBy_iff, hid])]
  simp only [show ∀ o', (succeed env o' a t).id = t.id from fun _ => rfl,
    show ∀ o', (succeed env o' a t).workflowRunId = t.workflowRunId from fun _ => rfl,
    update_wakeable, filter_wakeable hk hmem hst, remaining_eq_zero]
  rfl

/-- The status a failure report gives a task of the run `r`. -/
def reportStatus (f : Failure) (t : TaskRun) (r : Run) : TaskStatus :=
  failureStatus r.status f.retryable t.attemptCount t.maximumAttempts

theorem reportStatus_cases (f : Failure) (t : TaskRun) (r : Run) :
    (reportStatus f t r = .cancelled ∧ r.status = .cancelled) ∨
      (reportStatus f t r = .retryWait ∧ r.status ≠ .cancelled ∧
        f.retryable = true ∧ t.attemptCount < t.maximumAttempts) ∨
      (reportStatus f t r = .dead ∧ r.status ≠ .cancelled ∧
        ¬(f.retryable = true ∧ t.attemptCount < t.maximumAttempts)) :=
  failureStatus_cases _ _ _ _

/-- A task row after the failure of `t`, a task of the run `r`. -/
def failRow (env : Env) (f : Failure) (t : TaskRun) (r : Run) (s : TaskRun) : TaskRun :=
  if s.id = t.id then
    endLease env (reportStatus f t r) (failureAvailable env (reportStatus f t r) t.attemptCount) s
  else if reportStatus f t r = .dead then cancelWaiting env t.workflowRunId s
  else s

theorem failTask_ok (hk : db.Keyed) {id : ℕ} {w : String} {f : Failure} {t' : TaskRun}
    (h : failTask env id w f db = .ok (t', db')) :
    ∃ t r, Holds env db w t r ∧ t.id = id ∧ t.status.active = true ∧
      t' = endLease env (reportStatus f t r)
        (failureAvailable env (reportStatus f t r) t.attemptCount) t ∧
      db' = { db with
        workflowRuns :=
          if reportStatus f t r = .dead then db.workflowRuns.map (failRun env t.workflowRunId)
          else db.workflowRuns
        taskRuns := db.taskRuns.map (failRow env f t r)
        taskAttempts := Table.update
          (fun a => a.taskRunId = t.id ∧ a.attemptNumber = t.attemptCount)
          (fun a => { a with
            endedAt := some env.now
            exitStatus := some (reportStatus f t r)
            errorType := some f.errorType
            errorMessage := some f.errorMessage
            traceId := nullIfEmpty f.traceId }) db.taskAttempts
        outboxEvents := db.outboxEvents ++ [failedEvent env f (reportStatus f t r)
          (failureAvailable env (reportStatus f t r) t.attemptCount) t] } := by
  simp only [failTask, bind_eq_ok, orError_eq_ok] at h
  obtain ⟨⟨t, r⟩, htr, t₁, ht, h⟩ := h
  obtain ⟨hmem, hr, hrid, hp⟩ := Table.find?_join htr
  obtain ⟨s, hs, hps, rfl⟩ := Table.head?_returning ht
  cases h
  simp only [Bool.and_eq_true, heldBy_iff, decide_eq_true_eq] at hp hps
  obtain ⟨⟨hid, howner, hexp⟩, hact⟩ := hp
  obtain rfl := Table.eq_of_key hk.tasks hmem hs (hid.trans hps.1.symm)
  refine ⟨t, r, ⟨hmem, hr, hrid, howner, hexp⟩, hid, hact, rfl, ?_⟩
  rw [Table.update_eq_of_key hk.tasks hmem (by simp [hps]) (by simp +contextual [hid])]
  have hrows : (if reportStatus f t r = .dead then
      (Table.update (fun s => s.id = t.id) (endLease env (reportStatus f t r)
        (failureAvailable env (reportStatus f t r) t.attemptCount)) db.taskRuns).map
          (cancelWaiting env t.workflowRunId)
      else Table.update (fun s => s.id = t.id) (endLease env (reportStatus f t r)
        (failureAvailable env (reportStatus f t r) t.attemptCount)) db.taskRuns) =
      db.taskRuns.map (failRow env f t r) := by
    split_ifs with hdead
    · rw [Table.update, List.map_map]
      refine List.map_congr_left fun s _ => ?_
      by_cases hsid : s.id = t.id
      · simp [failRow, hsid, hdead, cancelWaiting, endLease, TaskStatus.waiting]
      · simp [failRow, hsid, hdead]
    · refine List.map_congr_left fun s _ => ?_
      simp [failRow, hdead]
  rw [← hrows, hid]
  rfl

/-! ## Operators -/

/-- The task table a replay of `t` reads the upstreams in. -/
def revived (env : Env) (db : Db) (t : TaskRun) : List TaskRun :=
  Table.update (fun s => s.id = t.id) (revive env) db.taskRuns

/-- A task row after the replay of `t`. -/
def replayRow (env : Env) (db : Db) (t s : TaskRun) : TaskRun :=
  if s.id = t.id then revive env s
  else if s.workflowRunId = t.workflowRunId ∧ s.status = .cancelled then
    rebuild env db (revived env db t) s
  else s

theorem replayDead_ok {tenant id : ℕ} {user : Option ℕ}
    (h : replayDead env tenant user id db = .ok db') :
    ∃ t ∈ db.taskRuns, ∃ r ∈ db.workflowRuns, t.id = id ∧ r.id = t.workflowRunId ∧
      r.tenantId = tenant ∧ t.status = .dead ∧
      db' = { db with
        workflowRuns := db.workflowRuns.map (reopenRun t.workflowRunId)
        taskRuns := db.taskRuns.map (replayRow env db t)
        outboxEvents := db.outboxEvents ++ [replayedEvent env t r]
        auditEvents := db.auditEvents ++
          [newAuditEvent env tenant user "task.replay" "task_run" id] } := by
  simp only [replayDead, bind_eq_ok, orError_eq_ok] at h
  obtain ⟨⟨t, r⟩, htr, h⟩ := h
  obtain ⟨hmem, hr, hrid, hp⟩ := Table.find?_join htr
  simp only [decide_eq_true_eq] at hp
  obtain ⟨rfl, rfl, hdead⟩ := hp
  cases h
  have hrows : Table.update (fun s => s.workflowRunId = t.workflowRunId ∧ s.status = .cancelled)
      (rebuild env db (revived env db t)) (revived env db t) =
      db.taskRuns.map (replayRow env db t) := by
    conv_lhs => arg 3; rw [revived]
    rw [Table.update, Table.update, List.map_map]
    refine List.map_congr_left fun s _ => ?_
    by_cases hid : s.id = t.id
    · simp [replayRow, hid, revive]
    · simp [replayRow, hid]
  exact ⟨t, hmem, r, hr, rfl, hrid, rfl, hdead, by rw [← hrows]; rfl⟩

theorem cancelRun_ok {tenant id : ℕ} {user : Option ℕ}
    (h : cancelRun env tenant user id db = .ok db') :
    (∃ r ∈ db.workflowRuns, r.id = id ∧ r.tenantId = tenant ∧ r.status.open = true) ∧
      db' = { db with
        workflowRuns := Table.update
          (fun r => r.id = id ∧ r.tenantId = tenant ∧ r.status.open = true)
          (fun r => { r with status := .cancelled, completedAt := some env.now }) db.workflowRuns
        taskRuns := db.taskRuns.map (cancelWaiting env id)
        auditEvents := db.auditEvents ++
          [newAuditEvent env tenant user "run.cancel" "workflow_run" id] } := by
  simp only [cancelRun] at h
  split_ifs at h with hany
  cases h
  exact ⟨by simpa using hany, rfl⟩

theorem retryRun_ok {tenant id : ℕ} {user : Option ℕ}
    (h : retryRun env tenant user id db = .ok db') :
    (∃ r ∈ db.workflowRuns, r.id = id ∧ r.tenantId = tenant) ∧
      (∃ t ∈ db.taskRuns, t.workflowRunId = id ∧ t.status = .dead) ∧
      db' = { db with
        workflowRuns := Table.update (fun r => r.id = id)
          (fun r => { r with status := .running, completedAt := none }) db.workflowRuns
        taskRuns := Table.update (fun t => t.workflowRunId = id ∧ t.status = .dead)
          (fun t => { revive env t with leaseOwner := none, leaseExpiresAt := none }) db.taskRuns
        auditEvents := db.auditEvents ++
          [newAuditEvent env tenant user "run.retry" "workflow_run" id] } := by
  simp only [retryRun, bind_eq_ok, require_eq_ok] at h
  obtain ⟨-, hrun, -, hdead, h⟩ := h
  cases h
  exact ⟨by simpa using hrun, by simpa using hdead, rfl⟩

/-- A retried run is running. -/
theorem retryRun_status {tenant id : ℕ} {user : Option ℕ}
    (h : retryRun env tenant user id db = .ok db') {r' : Run} (hr' : r' ∈ db'.workflowRuns)
    (hid : r'.id = id) : r'.status = .running := by
  rw [(retryRun_ok h).2.2] at hr'
  obtain ⟨r, -, rfl⟩ := Table.mem_update.1 hr'
  split_ifs at hid ⊢ with hr
  · rfl
  · exact absurd (by simpa using hid) hr

/-! ## The scheduler -/

theorem Scan.mem_rows {scan : Scan} {t : TaskRun} {r : Run} (h : (t, r) ∈ scan.rows db) :
    t ∈ db.taskRuns ∧ r ∈ db.workflowRuns ∧ r.id = t.workflowRunId := by
  obtain ⟨ht, hr, hrid⟩ := Table.mem_join.1 h
  obtain ⟨id, -, hid⟩ := List.mem_filterMap.1 ht
  exact ⟨List.mem_of_find?_eq_some hid, hr, hrid⟩

/-- A scan sees each task once. -/
theorem Scan.nodup_rows (hk : db.Keyed) (scan : Scan) :
    ((scan.rows db).map fun e => e.1.id).Nodup := by
  have hids : ((scan.ids.filterMap fun id => db.taskRuns.find? fun t => t.id = id).map
      TaskRun.id).Sublist scan.ids := by
    generalize scan.ids = ids
    induction ids with
    | nil => simp
    | cons id ids ih =>
      rw [List.filterMap_cons]
      cases hf : db.taskRuns.find? fun t => t.id = id with
      | none => exact ih.cons id
      | some t =>
        have ht : t.id = id := by simpa using List.find?_some hf
        rw [List.map_cons, ht]
        exact ih.cons_cons id
  have hfst : ((scan.rows db).map Prod.fst).Sublist
      (scan.ids.filterMap fun id => db.taskRuns.find? fun t => t.id = id) :=
    Table.map_fst_join_sublist hk.runs _
  have := ((hfst.map TaskRun.id).trans hids).nodup scan.nodup
  rwa [List.map_map] at this

theorem expiryStatus_cases (e : TaskRun × Run) :
    (expiryStatus e = .cancelled ∧ e.2.status = .cancelled) ∨
      (expiryStatus e = .retryWait ∧ e.2.status ≠ .cancelled ∧
        e.1.attemptCount < e.1.maximumAttempts) ∨
      (expiryStatus e = .dead ∧ e.2.status ≠ .cancelled ∧
        e.1.maximumAttempts ≤ e.1.attemptCount) := by
  simpa [expiryStatus] using
    failureStatus_cases e.2.status true e.1.attemptCount e.1.maximumAttempts

/-- What a recovery reads. -/
theorem mem_expiredLeases {scan : Scan} {t : TaskRun} {r : Run}
    (h : (t, r) ∈ expiredLeases env scan db) :
    t ∈ db.taskRuns ∧ r ∈ db.workflowRuns ∧ r.id = t.workflowRunId ∧ t.status.active = true ∧
      ∃ x, t.leaseExpiresAt = some x ∧ x ≤ env.now := by
  obtain ⟨hrow, hp⟩ := List.mem_filter.1 (List.mem_of_mem_take h)
  obtain ⟨ht, hr, hrid⟩ := Scan.mem_rows hrow
  simp only [Bool.and_eq_true, Option.any_eq_true, decide_eq_true_eq] at hp
  exact ⟨ht, hr, hrid, hp.1, hp.2⟩

theorem nodup_expiredLeases (hk : db.Keyed) (scan : Scan) :
    ((expiredLeases env scan db).map fun e => e.1.id).Nodup :=
  (((List.take_sublist _ _).trans List.filter_sublist).map _).nodup (scan.nodup_rows hk)

/-- What a dispatch selects. -/
theorem mem_readyTasks {scan : Scan} {t : TaskRun} {r : Run}
    (h : (t, r) ∈ readyTasks env scan db) :
    t ∈ db.taskRuns ∧ r ∈ db.workflowRuns ∧ r.id = t.workflowRunId ∧ t.status = .ready ∧
      t.availableAt ≤ env.now := by
  obtain ⟨hrow, hp⟩ := List.mem_filter.1 (List.mem_insertionSort _ |>.1 (List.mem_of_mem_take h))
  obtain ⟨ht, hr, hrid⟩ := Scan.mem_rows hrow
  simp only [decide_eq_true_eq] at hp
  exact ⟨ht, hr, hrid, hp.1, hp.2⟩

theorem nodup_readyTasks (hk : db.Keyed) (scan : Scan) :
    ((readyTasks env scan db).map fun e => e.1.id).Nodup := by
  refine ((List.take_sublist _ _).map _).nodup ?_
  refine (((List.perm_insertionSort _ _).map _).nodup_iff).2 ?_
  exact (List.filter_sublist.map _).nodup (scan.nodup_rows hk)

/-- A scan of `n` rows sees no more. -/
theorem Scan.length_rows_le (hk : db.Keyed) (scan : Scan) :
    (scan.rows db).length ≤ scan.ids.length := by
  have hfst : ((scan.rows db).map Prod.fst).Sublist
      (scan.ids.filterMap fun id => db.taskRuns.find? fun t => t.id = id) :=
    Table.map_fst_join_sublist hk.runs _
  calc (scan.rows db).length = ((scan.rows db).map Prod.fst).length := (List.length_map _).symm
    _ ≤ _ := hfst.length_le
    _ ≤ scan.ids.length := List.length_filterMap_le _ _

theorem Scan.mem_rows_of_mem (scan : Scan) (hk : db.Keyed) {t : TaskRun} {r : Run}
    (hscan : t.id ∈ scan.ids) (ht : t ∈ db.taskRuns) (hr : r ∈ db.workflowRuns)
    (hrid : r.id = t.workflowRunId) : (t, r) ∈ scan.rows db :=
  Table.mem_join.2 ⟨List.mem_filterMap.2 ⟨t.id, hscan, Table.find?_key hk.tasks ht⟩, hr, hrid⟩

/-- A ready task is selected by a dispatch that sees it among at most a hundred rows. -/
theorem mem_readyTasks_of_mem_scan (hk : db.Keyed) {scan : Scan} (hlen : scan.ids.length ≤ 100)
    {t : TaskRun} {r : Run} (hscan : t.id ∈ scan.ids) (ht : t ∈ db.taskRuns)
    (hr : r ∈ db.workflowRuns) (hrid : r.id = t.workflowRunId) (hst : t.status = .ready)
    (hav : t.availableAt ≤ env.now) : (t, r) ∈ readyTasks env scan db := by
  rw [readyTasks, List.take_of_length_le]
  · rw [List.mem_insertionSort]
    exact List.mem_filter.2 ⟨scan.mem_rows_of_mem hk hscan ht hr hrid, decide_eq_true ⟨hst, hav⟩⟩
  · rw [List.length_insertionSort]
    exact (List.length_filter_le _ _).trans ((scan.length_rows_le hk).trans hlen)

/-- So is an expired lease by a recovery. -/
theorem mem_expiredLeases_of_mem_scan (hk : db.Keyed) {scan : Scan} (hlen : scan.ids.length ≤ 100)
    {t : TaskRun} {r : Run} (hscan : t.id ∈ scan.ids) (ht : t ∈ db.taskRuns)
    (hr : r ∈ db.workflowRuns) (hrid : r.id = t.workflowRunId) (hact : t.status.active = true)
    (hexpired : ∃ x ∈ t.leaseExpiresAt, x ≤ env.now) : (t, r) ∈ expiredLeases env scan db := by
  obtain ⟨x, hx, hle⟩ := hexpired
  rw [expiredLeases, List.take_of_length_le]
  · refine List.mem_filter.2 ⟨scan.mem_rows_of_mem hk hscan ht hr hrid, ?_⟩
    simp [hact, Option.mem_def.1 hx, hle]
  · exact (List.length_filter_le _ _).trans ((scan.length_rows_le hk).trans hlen)

/-- A task row after the recovery of the leases `es`. -/
def expireRow (env : Env) (es : List (TaskRun × Run)) (t : TaskRun) : TaskRun :=
  es.foldl (fun t e => expire env e t) t

/-- A run row after the recovery of the leases `es`. -/
def expireRunRow (env : Env) (es : List (TaskRun × Run)) (r : Run) : Run :=
  es.foldl (fun r e => expireRun env e r) r

/-- The loop of a recovery, row by row. -/
theorem foldl_recoverLease (es : List (TaskRun × Run)) : ∀ (db : Db) (n : ℕ),
    (es.zipIdx n).foldl (recoverLease env) db = { db with
      workflowRuns := db.workflowRuns.map (expireRunRow env es)
      taskRuns := db.taskRuns.map (expireRow env es)
      taskAttempts := db.taskAttempts.map fun a => es.foldl (fun a e => endAttempt env e a) a
      outboxEvents := db.outboxEvents ++ (es.zipIdx n).map fun e => expiredEvent env e.2 e.1 } := by
  induction es with
  | nil =>
    intro db n
    simp [show expireRow env [] = id from rfl, show expireRunRow env [] = id from rfl]
  | cons e es ih =>
    intro db n
    rw [List.zipIdx_cons, List.foldl_cons, ih]
    simp only [recoverLease, List.map_map, List.append_assoc, List.map_cons, List.singleton_append]
    rfl

theorem recoverExpired_eq (scan : Scan) : recoverExpired env scan db = { db with
      workflowRuns := db.workflowRuns.map (expireRunRow env (expiredLeases env scan db))
      taskRuns := db.taskRuns.map (expireRow env (expiredLeases env scan db))
      taskAttempts := db.taskAttempts.map fun a =>
        (expiredLeases env scan db).foldl (fun a e => endAttempt env e a) a
      outboxEvents := db.outboxEvents ++
        (expiredLeases env scan db).zipIdx.map fun e => expiredEvent env e.2 e.1 } :=
  foldl_recoverLease _ db 0

/-- The lease the recovery found expired ends once. -/
theorem expireRow_of_mem {es : List (TaskRun × Run)} (hnd : (es.map fun e => e.1.id).Nodup)
    {t : TaskRun} {r : Run} (h : (t, r) ∈ es) :
    expireRow env es t = endLease env (expiryStatus (t, r))
      (failureAvailable env (expiryStatus (t, r)) t.attemptCount) t := by
  have hother : ∀ e ∈ es, e ≠ (t, r) → t.id ≠ e.1.id := fun e he hne hid =>
    hne (Table.eq_of_key hnd he h hid.symm)
  have hfold := Table.foldl_eq_once (g := expire env) (List.Nodup.of_map _ hnd) h (a := t)
    (fun e he hne => if_neg (hother e he hne))
    (fun e he hne => if_neg (by simpa [expire, endLease] using hother e he hne))
  rw [expireRow, hfold, expire, if_pos rfl]

theorem expireRow_of_notMem {es : List (TaskRun × Run)} {t : TaskRun}
    (h : ∀ e ∈ es, e.1.id ≠ t.id) : expireRow env es t = t :=
  Table.foldl_eq_self fun e he => if_neg fun hid => h e he hid.symm

theorem expireRow_key (es : List (TaskRun × Run)) : ∀ t : TaskRun,
    (expireRow env es t).id = t.id ∧ (expireRow env es t).workflowRunId = t.workflowRunId := by
  induction es with
  | nil => intro t; exact ⟨rfl, rfl⟩
  | cons e es ih =>
    intro t
    have hstep : (expire env e t).id = t.id ∧
        (expire env e t).workflowRunId = t.workflowRunId := by
      unfold expire
      split_ifs <;> exact ⟨rfl, rfl⟩
    exact ⟨(ih (expire env e t)).1.trans hstep.1, (ih (expire env e t)).2.trans hstep.2⟩

/-- A recovery fails the running runs of the leases that leave their task dead. -/
theorem expireRunRow_eq (es : List (TaskRun × Run)) (r : Run) :
    expireRunRow env es r =
      if r.status = .running ∧ ∃ e ∈ es, expiryStatus e = .dead ∧ e.1.workflowRunId = r.id then
        { r with status := .failed, completedAt := some env.now }
      else r := by
  induction es with
  | nil => simp [expireRunRow]
  | cons e es ih =>
    have hcons : expireRunRow env (e :: es) r = expireRunRow env es (expireRun env e r) := rfl
    by_cases he : r.status = .running ∧ expiryStatus e = .dead ∧ e.1.workflowRunId = r.id
    · obtain ⟨hrun, hdead, hid⟩ := he
      have hstep : expireRun env e r =
          { r with status := .failed, completedAt := some env.now } := by
        simp [expireRun, failRun, hdead, hid, hrun]
      have hrest : expireRunRow env es (expireRun env e r) = expireRun env e r :=
        Table.foldl_eq_self fun c _ => by rw [hstep]; simp [expireRun, failRun]
      rw [hcons, hrest, hstep, if_pos ⟨hrun, e, by simp, hdead, hid⟩]
    · have hstep : expireRun env e r = r := by
        unfold expireRun failRun
        split_ifs with h₁ h₂
        · exact absurd ⟨h₂.2, h₁, h₂.1.symm⟩ he
        · rfl
        · rfl
      rw [hcons, hstep, ih]
      refine if_congr ?_ rfl rfl
      simp only [List.mem_cons, exists_eq_or_imp]
      tauto

/-- A task row after the dispatch of the tasks with the given ids. -/
def dispatchRow (env : Env) (ids : List ℕ) (t : TaskRun) : TaskRun :=
  if t.id ∈ ids then { t with status := .dispatching, updatedAt := env.now } else t

theorem dispatchRow_cons (id : ℕ) (ids : List ℕ) (t : TaskRun) :
    dispatchRow env ids (dispatchRow env [id] t) = dispatchRow env (id :: ids) t := by
  by_cases hid : t.id = id <;> by_cases hids : t.id ∈ ids <;> simp [dispatchRow, hid, hids]

/-- The dispatch of a task that is still ready. -/
theorem dispatchTask_eq (hk : db.Keyed) (n : ℕ) {e : TaskRun × Run} (hmem : e.1 ∈ db.taskRuns)
    (hready : e.1.status = .ready) :
    dispatchTask env (db, n) e = ({ db with
      taskRuns := db.taskRuns.map (dispatchRow env [e.1.id])
      outboxEvents := db.outboxEvents ++ [dispatchEvent env n e] }, n + 1) := by
  have hself : isReady e.1.id e.1 = true := by simp [isReady, hready]
  have hfind : ∀ s ∈ db.taskRuns, isReady e.1.id s = true → s.id = e.1.id :=
    fun s _ h => (of_decide_eq_true h).1
  have hone : db.taskRuns.countP (isReady e.1.id) = 1 :=
    Table.countP_eq_one hk.tasks.of_map hmem hself
      fun s hs h => Table.eq_of_key hk.tasks hs hmem (hfind s hs h)
  rw [dispatchTask, if_pos hone, Table.update_eq_of_key hk.tasks hmem hself hfind]
  simp [Table.update, dispatchRow]

/-- The loop of a dispatch, row by row : each selected task is still ready when its turn
comes. -/
theorem foldl_dispatchTask (es : List (TaskRun × Run)) : ∀ (db : Db) (n : ℕ), db.Keyed →
    (es.map fun e => e.1.id).Nodup → (∀ e ∈ es, e.1 ∈ db.taskRuns ∧ e.1.status = .ready) →
    (es.foldl (dispatchTask env) (db, n)).1 = { db with
      taskRuns := db.taskRuns.map (dispatchRow env (es.map fun e => e.1.id))
      outboxEvents :=
        db.outboxEvents ++ (es.zipIdx n).map fun e => dispatchEvent env e.2 e.1 } := by
  induction es with
  | nil =>
    intro db n _ _ _
    simp [show dispatchRow env [] = id from funext fun t => by simp [dispatchRow]]
  | cons e es ih =>
    intro db n hk hnd hes
    rw [List.map_cons, List.nodup_cons] at hnd
    obtain ⟨hmem, hready⟩ := hes e (by simp)
    have hids : (db.taskRuns.map (dispatchRow env [e.1.id])).map TaskRun.id =
        db.taskRuns.map TaskRun.id := by
      rw [List.map_map]
      refine List.map_congr_left fun s _ => ?_
      by_cases hid : s.id = e.1.id <;> simp [dispatchRow, hid]
    rw [List.foldl_cons, dispatchTask_eq hk n hmem hready, ih _ _ ?_ hnd.2 ?_]
    · simp only [List.zipIdx_cons, List.map_cons, List.append_assoc, List.singleton_append,
        List.map_map]
      congr 1
      exact List.map_congr_left fun s _ => dispatchRow_cons _ _ s
    · refine ⟨hk.runs, ?_⟩
      rw [hids]
      exact hk.tasks
    · intro c hc
      obtain ⟨hcm, hcr⟩ := hes c (by simp [hc])
      have hne : c.1.id ≠ e.1.id := fun hid => hnd.1 (hid ▸ List.mem_map_of_mem hc)
      exact ⟨List.mem_map.2 ⟨c.1, hcm, by simp [dispatchRow, hne]⟩, hcr⟩

theorem dispatchReady_eq (hk : db.Keyed) (scan : Scan) : dispatchReady env scan db = { db with
      taskRuns := db.taskRuns.map
        (dispatchRow env ((readyTasks env scan db).map fun e => e.1.id))
      outboxEvents := db.outboxEvents ++
        (readyTasks env scan db).zipIdx.map fun e => dispatchEvent env e.2 e.1 } := by
  refine foldl_dispatchTask _ db 0 hk (nodup_readyTasks hk scan) fun e he => ?_
  obtain ⟨hmem, -, -, hready, -⟩ := mem_readyTasks he
  exact ⟨hmem, hready⟩

/-! ## The worker that holds a task -/

/-- What `find?` gives back for a held task is the task and its run. -/
theorem find?_heldBy (hk : db.Keyed) {w : String} {t : TaskRun} {r : Run}
    (hheld : Holds env db w t r) {st : TaskStatus} (hst : t.status = st) :
    db.tasksWithRun.find? (fun tr => heldBy env t.id w tr.1 && tr.1.status = st) =
      some (t, r) := by
  have hheldBy : heldBy env t.id w t = true := heldBy_iff.2 ⟨rfl, hheld.owner, hheld.unexpired⟩
  obtain ⟨⟨t₁, r₁⟩, hfind⟩ := Table.exists_find?_join
    (p := fun tr : TaskRun × Run => heldBy env t.id w tr.1 && tr.1.status = st)
    hheld.mem hheld.run hheld.runId (by simp [hheldBy, hst])
  obtain ⟨hmem, hr₁, hrid, hp₁⟩ := Table.find?_join hfind
  simp only [Bool.and_eq_true, heldBy_iff] at hp₁
  obtain rfl := Table.eq_of_key hk.tasks hmem hheld.mem hp₁.1.1
  obtain rfl := Table.eq_of_key hk.runs hr₁ hheld.run (hrid.trans hheld.runId.symm)
  exact hfind

/-- A completion by the worker that holds the task. -/
theorem completeTask_of_holds (hk : db.Keyed) {w : String} {t : TaskRun} {r : Run}
    (hheld : Holds env db w t r) (hst : t.status = .running) (hrun : r.status = .running)
    (o a : String) (logs : List String) :
    ∃ t' db', completeTask env t.id w o a logs db = .ok (t', db') := by
  have hheldBy : heldBy env t.id w t = true := heldBy_iff.2 ⟨rfl, hheld.owner, hheld.unexpired⟩
  obtain ⟨t', ht'⟩ := Table.exists_head?_returning
    (p := fun t₁ : TaskRun => heldBy env t.id w t₁ && t₁.status = .running) hheld.mem
    (by simp [hheldBy, hst]) (succeed env (if o = "" then "\x7b\x7d" else o) a)
  simp only [completeTask, bind_eq_ok, orError_eq_ok, require_eq_ok]
  exact ⟨t', _, (t, r), find?_heldBy hk hheld hst, (), decide_eq_true hrun, t', ht',
    rfl⟩

/-- A start by the worker that holds the task. -/
theorem startTask_of_holds (hk : db.Keyed) {w : String} {t : TaskRun} {r : Run}
    (hheld : Holds env db w t r) (hst : t.status = .leased) (hrun : r.status = .running) :
    ∃ t' db', startTask env t.id w db = .ok (t', db') := by
  have hheldBy : heldBy env t.id w t = true := heldBy_iff.2 ⟨rfl, hheld.owner, hheld.unexpired⟩
  obtain ⟨t', ht'⟩ := Table.exists_head?_returning
    (p := fun t₁ : TaskRun => heldBy env t.id w t₁ && t₁.status = .leased) hheld.mem
    (by simp [hheldBy, hst]) (fun t => { t with status := .running, updatedAt := env.now })
  simp only [startTask, bind_eq_ok, orError_eq_ok, require_eq_ok]
  exact ⟨t', _, (t, r), find?_heldBy hk hheld hst, (), decide_eq_true hrun, t', ht',
    rfl⟩

/-- A heartbeat by the worker that holds the task. -/
theorem heartbeatTask_of_holds (hk : db.Keyed) {w : String} {t : TaskRun} {r : Run}
    (hheld : Holds env db w t r) (hact : t.status.active = true) (d : ℤ) :
    ∃ db', heartbeatTask env t.id w d db =
      .ok ((env.now + d, decide (r.status = .cancelled)), db') := by
  have hheldBy : heldBy env t.id w t = true := heldBy_iff.2 ⟨rfl, hheld.owner, hheld.unexpired⟩
  have hrenewed : { t with leaseExpiresAt := some (env.now + d), updatedAt := env.now } ∈
      Table.returning (fun t₁ => heldBy env t.id w t₁ && t₁.status.active)
        (fun t => { t with leaseExpiresAt := some (env.now + d), updatedAt := env.now })
        db.taskRuns :=
    List.mem_map_of_mem (List.mem_filter.2 ⟨hheld.mem, by simp [hheldBy, hact]⟩)
  have hjoin : ({ t with leaseExpiresAt := some (env.now + d), updatedAt := env.now }, r) ∈
      Table.join TaskRun.workflowRunId Run.id _ db.workflowRuns :=
    Table.mem_join.2 ⟨hrenewed, hheld.run, hheld.runId⟩
  obtain ⟨tr, htr⟩ := Option.isSome_iff_exists.1 (List.isSome_head?.2 (List.ne_nil_of_mem hjoin))
  obtain ⟨b, db', hok⟩ : ∃ b db', heartbeatTask env t.id w d db = .ok (b, db') := by
    simp only [heartbeatTask, bind_eq_ok, orError_eq_ok]
    exact ⟨_, _, tr, htr, rfl⟩
  obtain ⟨t₁, r₁, hheld₁, hid, -, rfl, -⟩ := heartbeatTask_ok hk hok
  obtain rfl := Table.eq_of_key hk.tasks hheld₁.mem hheld.mem hid
  obtain rfl := Table.eq_of_key hk.runs hheld₁.run hheld.run (hheld₁.runId.trans hheld.runId.symm)
  exact ⟨db', hok⟩

/-! ## Creating a run -/

theorem insertRun_ok {user artifact : Option ℕ} {run : Run} {dag : DAG}
    (h : insertRun env user artifact run dag db = .ok db') :
    (∀ entry ∈ dag.tasks, taskRunInsertable (withDefaults entry.2) = true) ∧
      dependenciesInsertable env run dag = true ∧
      ∃ artifacts, db' = { db with
        workflowRuns := db.workflowRuns ++ [run]
        taskRuns := db.taskRuns ++ dag.tasks.map (newTaskRun env run dag)
        taskDependencies := db.taskDependencies ++ newDependencies env run dag
        outboxEvents := db.outboxEvents ++ [runCreatedEvent env run dag]
        artifacts := artifacts
        auditEvents := db.auditEvents ++
          [newAuditEvent env run.tenantId user "run.create" "workflow_run" run.id] } := by
  simp only [insertRun, bind_eq_ok, require_eq_ok] at h
  obtain ⟨artifacts, -, -, htasks, -, hdeps, h⟩ := h
  cases h
  exact ⟨by simpa using htasks, hdeps, artifacts, rfl⟩

theorem createRun_ok {tenant definitionId : ℕ} {user artifact : Option ℕ} {key input : String}
    {r : Run × Bool}
    (h : createRun env tenant user definitionId key input artifact db = .ok (r, db')) :
    (db' = db ∧ r.1 ∈ db.workflowRuns ∧ r.2 = false) ∨
      ∃ d ∈ db.workflowDefinitions, ∃ uri, r = (newRun env tenant d key input uri, true) ∧
        insertRun env user artifact (newRun env tenant d key input uri) d.dag db = .ok db' := by
  simp only [createRun, bind_eq_ok, orError_eq_ok, require_eq_ok] at h
  obtain ⟨-, -, uri, -, d, hd, h⟩ := h
  split at h
  · rename_i existing hfind
    cases h
    exact Or.inl ⟨rfl, List.mem_of_find?_eq_some hfind, rfl⟩
  · simp only [bind_eq_ok] at h
    obtain ⟨db₁, hins, h⟩ := h
    cases h
    exact Or.inr ⟨d, List.mem_of_find?_eq_some hd, uri, rfl, hins⟩

theorem createWorkflow_ok {tenant : ℕ} {user : Option ℕ} {name : String} {dag : DAG}
    {d : Definition} (h : createWorkflow env tenant user name dag db = .ok (d, db')) :
    validateDAG d.dag = .ok () ∧ d.id = env.uuid 0 ∧ ∃ audit, db' = { db with
      workflowDefinitions := db.workflowDefinitions ++ [d], auditEvents := audit } := by
  simp only [createWorkflow, bind_eq_ok, require_eq_ok, mapError_eq_ok] at h
  obtain ⟨⟨⟩, hvalid, -, -, -, -, h⟩ := h
  cases h
  exact ⟨hvalid, rfl, _, rfl⟩

/-- The audit row of a version is refused, and the transaction with it. -/
theorem createVersion_eq_error {tenant definitionId v : ℕ} {user : Option ℕ} {dag : DAG}
    {d : Definition} (hvalid : validateDAG dag = .ok ())
    (hfind : (db.workflowDefinitions.find? fun d => d.id = definitionId ∧ d.tenantId = tenant) =
      some d)
    (hmax : ((db.workflowDefinitions.filter fun e =>
      e.tenantId = tenant ∧ e.name = d.name).map Definition.version).max? = some v) :
    createVersion env tenant user definitionId dag db = .error .database := by
  simp only [createVersion, hvalid, hfind, hmax, Except.mapError, orError, ok_bind,
    insertAuditEvent_version, error_bind, require_bind_error]

/-- So no new version is committed. -/
theorem createVersion_ne_ok {tenant definitionId : ℕ} {user : Option ℕ} {dag : DAG}
    {r : Definition × Db} : createVersion env tenant user definitionId dag db ≠ .ok r := by
  intro h
  simp [createVersion, bind_eq_ok] at h

end RunMesh
