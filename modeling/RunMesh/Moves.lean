import RunMesh.Effects

/-!
# The moves of tasks and runs

`TaskMove` and `RunMove` collect what an operation can do to a task and to a run, each
with the guards it passed. A successful call either moves the rows there are
(`Moves`) or adds a run with its tasks (`Creates`), and `exec_moves` says that it does
nothing else. An invariant of the rows is then checked move by move, without looking at
the operations again.
-/

namespace RunMesh

open Fallible

/-- What an operation can do to a task row. -/
inductive TaskMove (env : Env) (db : Db) : Op → TaskRun → TaskRun → Prop
  | keep (op : Op) (t : TaskRun) : TaskMove env db op t t
  | promote {t : TaskRun} (hst : t.status = .retryWait) (hdue : t.availableAt ≤ env.now) :
      TaskMove env db .promoteRetries t { t with status := .ready, updatedAt := env.now }
  | expire {scan : Scan} {t : TaskRun} {r : Run} (h : (t, r) ∈ expiredLeases env scan db) :
      TaskMove env db (.recoverExpired scan) t (endLease env (expiryStatus (t, r))
        (failureAvailable env (expiryStatus (t, r)) t.attemptCount) t)
  | dispatch {scan : Scan} {t : TaskRun} {r : Run} (h : (t, r) ∈ readyTasks env scan db) :
      TaskMove env db (.dispatchReady scan) t
        { t with status := .dispatching, updatedAt := env.now }
  | lease {w : String} {d : ℤ} {t : TaskRun} (hst : t.status = .dispatching) :
      TaskMove env db (.leaseTask t.id w d) t (lease env w d t)
  | start {w : String} {t : TaskRun} {r : Run} (hheld : Holds env db w t r)
      (hst : t.status = .leased) (hrun : r.status = .running) :
      TaskMove env db (.startTask t.id w) t
        { t with status := .running, updatedAt := env.now }
  | renew {w : String} {d : ℤ} {t : TaskRun} {r : Run} (hheld : Holds env db w t r)
      (hst : t.status.active = true) :
      TaskMove env db (.heartbeatTask t.id w d) t
        { t with leaseExpiresAt := some (env.now + d), updatedAt := env.now }
  | succeed {w o a : String} {logs : List String} {t : TaskRun} {r : Run} (o' : String)
      (hheld : Holds env db w t r) (hst : t.status = .running) (hrun : r.status = .running) :
      TaskMove env db (.completeTask t.id w o a logs) t (succeed env o' a t)
  | wake {w o a : String} {logs : List String} {u t : TaskRun} {r : Run}
      (hheld : Holds env db w u r) (hst : u.status = .running) (hrun : r.status = .running)
      (hwake : Wakes db u t) :
      TaskMove env db (.completeTask u.id w o a logs) t (wake env t)
  | fail {w : String} {f : Failure} {t : TaskRun} {r : Run} (hheld : Holds env db w t r)
      (hst : t.status.active = true) :
      TaskMove env db (.failTask t.id w f) t (endLease env (reportStatus f t r)
        (failureAvailable env (reportStatus f t r) t.attemptCount) t)
  | failSibling {w : String} {f : Failure} {u t : TaskRun} {r : Run}
      (hheld : Holds env db w u r) (hst : u.status.active = true)
      (hdead : reportStatus f u r = .dead) (hrun : t.workflowRunId = u.workflowRunId)
      (hwait : t.status.waiting = true) :
      TaskMove env db (.failTask u.id w f) t
        { t with status := .cancelled, updatedAt := env.now }
  | cancel {tenant : ℕ} {user : Option ℕ} {t : TaskRun} {r : Run} (hr : r ∈ db.workflowRuns)
      (hrid : r.id = t.workflowRunId) (htenant : r.tenantId = tenant)
      (hopen : r.status.open = true) (hwait : t.status.waiting = true) :
      TaskMove env db (.cancelRun tenant user t.workflowRunId) t
        { t with status := .cancelled, updatedAt := env.now }
  | retry {tenant : ℕ} {user : Option ℕ} {t : TaskRun} {r : Run} (hr : r ∈ db.workflowRuns)
      (hrid : r.id = t.workflowRunId) (htenant : r.tenantId = tenant) (hst : t.status = .dead) :
      TaskMove env db (.retryRun tenant user t.workflowRunId) t
        { revive env t with leaseOwner := none, leaseExpiresAt := none }
  | replay {tenant : ℕ} {user : Option ℕ} {t : TaskRun} {r : Run} (hr : r ∈ db.workflowRuns)
      (hrid : r.id = t.workflowRunId) (htenant : r.tenantId = tenant) (hst : t.status = .dead) :
      TaskMove env db (.replayDead tenant user t.id) t (revive env t)
  | rebuild {tenant : ℕ} {user : Option ℕ} {u t : TaskRun} {r : Run} (hr : r ∈ db.workflowRuns)
      (hrid : r.id = u.workflowRunId) (htenant : r.tenantId = tenant) (hu : u ∈ db.taskRuns)
      (hdead : u.status = .dead) (hrun : t.workflowRunId = u.workflowRunId)
      (hst : t.status = .cancelled) :
      TaskMove env db (.replayDead tenant user u.id) t (rebuild env db (revived env db u) t)

/-- What an operation can do to a run row. -/
inductive RunMove (env : Env) (db : Db) : Op → Run → Run → Prop
  | keep (op : Op) (r : Run) : RunMove env db op r r
  | expire {scan : Scan} {t : TaskRun} {r r₀ : Run} (h : (t, r₀) ∈ expiredLeases env scan db)
      (hrid : t.workflowRunId = r.id) (hdead : expiryStatus (t, r₀) = .dead)
      (hrun : r.status = .running) :
      RunMove env db (.recoverExpired scan) r
        { r with status := .failed, completedAt := some env.now }
  | complete {w o a : String} {logs : List String} {t : TaskRun} {r : Run}
      (hheld : Holds env db w t r) (hst : t.status = .running) (hrun : r.status = .running)
      (hlast : ∀ u ∈ db.taskRuns, u.workflowRunId = r.id → u.id = t.id ∨ u.status = .succeeded) :
      RunMove env db (.completeTask t.id w o a logs) r
        { r with status := .succeeded, completedAt := some env.now }
  | fail {w : String} {f : Failure} {t : TaskRun} {r : Run} (hheld : Holds env db w t r)
      (hst : t.status.active = true) (hdead : reportStatus f t r = .dead)
      (hrun : r.status = .running) :
      RunMove env db (.failTask t.id w f) r
        { r with status := .failed, completedAt := some env.now }
  | cancel {tenant : ℕ} {user : Option ℕ} {r : Run} (htenant : r.tenantId = tenant)
      (hopen : r.status.open = true) :
      RunMove env db (.cancelRun tenant user r.id) r
        { r with status := .cancelled, completedAt := some env.now }
  | retry {tenant : ℕ} {user : Option ℕ} {t : TaskRun} {r : Run} (htenant : r.tenantId = tenant)
      (ht : t ∈ db.taskRuns) (hrid : t.workflowRunId = r.id) (hdead : t.status = .dead) :
      RunMove env db (.retryRun tenant user r.id) r
        { r with status := .running, completedAt := none }
  | reopen {tenant : ℕ} {user : Option ℕ} {t : TaskRun} {r : Run} (htenant : r.tenantId = tenant)
      (ht : t ∈ db.taskRuns) (hrid : t.workflowRunId = r.id) (hdead : t.status = .dead)
      (hfailed : r.status = .failed) :
      RunMove env db (.replayDead tenant user t.id) r
        { r with status := .running, completedAt := none }

/-- The rows there are moved, and none was added. -/
structure Moves (env : Env) (op : Op) (db db' : Db) : Prop where
  tasks : ∃ f : TaskRun → TaskRun, db'.taskRuns = db.taskRuns.map f ∧
    ∀ t ∈ db.taskRuns, TaskMove env db op t (f t)
  runs : ∃ f : Run → Run, db'.workflowRuns = db.workflowRuns.map f ∧
    ∀ r ∈ db.workflowRuns, RunMove env db op r (f r)
  dependencies : db'.taskDependencies = db.taskDependencies
  definitions : ∀ d ∈ db'.workflowDefinitions,
    d ∈ db.workflowDefinitions ∨ validateDAG d.dag = .ok ()

/-- A run was added, with the tasks and dependencies of a definition. -/
structure Creates (env : Env) (op : Op) (db db' : Db) (run : Run) (dag : DAG) : Prop where
  isCreate : ∃ tenantId userId definitionId idempotencyKey input inputArtifactId,
    op = .createRun tenantId userId definitionId idempotencyKey input inputArtifactId
  definition : ∃ d ∈ db.workflowDefinitions, d.dag = dag
  id : run.id = env.uuid 0
  status : run.status = .running
  completedAt : run.completedAt = none
  insertable : ∀ entry ∈ dag.tasks, taskRunInsertable (withDefaults entry.2) = true
  dependenciesInsertable : dependenciesInsertable env run dag = true
  runs : db'.workflowRuns = db.workflowRuns ++ [run]
  tasks : db'.taskRuns = db.taskRuns ++ dag.tasks.map (newTaskRun env run dag)
  dependencies : db'.taskDependencies = db.taskDependencies ++ newDependencies env run dag
  attempts : db'.taskAttempts = db.taskAttempts
  events : db'.outboxEvents = db.outboxEvents ++ [runCreatedEvent env run dag]
  definitions : db'.workflowDefinitions = db.workflowDefinitions

section

variable {env : Env} {op : Op} {db db' : Db}

/-- A call that leaves tasks, runs and dependencies alone. -/
theorem Moves.of_eq (htasks : db'.taskRuns = db.taskRuns)
    (hruns : db'.workflowRuns = db.workflowRuns)
    (hdeps : db'.taskDependencies = db.taskDependencies)
    (hdefs : ∀ d ∈ db'.workflowDefinitions,
      d ∈ db.workflowDefinitions ∨ validateDAG d.dag = .ok ()) : Moves env op db db' where
  tasks := ⟨id, by simp [htasks], fun t _ => .keep op t⟩
  runs := ⟨id, by simp [hruns], fun r _ => .keep op r⟩
  dependencies := hdeps
  definitions := hdefs

/-- A call that moves tasks and leaves runs, dependencies and definitions alone. -/
theorem Moves.of_tasks {f : TaskRun → TaskRun} (htasks : db'.taskRuns = db.taskRuns.map f)
    (hmove : ∀ t ∈ db.taskRuns, TaskMove env db op t (f t))
    (hruns : db'.workflowRuns = db.workflowRuns)
    (hdeps : db'.taskDependencies = db.taskDependencies)
    (hdefs : db'.workflowDefinitions = db.workflowDefinitions) : Moves env op db db' where
  tasks := ⟨f, htasks, hmove⟩
  runs := ⟨id, by simp [hruns], fun r _ => .keep op r⟩
  dependencies := hdeps
  definitions d hd := Or.inl (hdefs ▸ hd)

/-- A call that updates one task row. -/
theorem Moves.of_row (hk : db.Keyed) {t : TaskRun} (ht : t ∈ db.taskRuns) {f : TaskRun → TaskRun}
    (hmove : TaskMove env db op t (f t))
    (htasks : db'.taskRuns = Table.update (fun s => s.id = t.id) f db.taskRuns)
    (hruns : db'.workflowRuns = db.workflowRuns)
    (hdeps : db'.taskDependencies = db.taskDependencies)
    (hdefs : db'.workflowDefinitions = db.workflowDefinitions) : Moves env op db db' := by
  refine .of_tasks htasks (fun s hs => ?_) hruns hdeps hdefs
  by_cases hid : s.id = t.id
  · rw [Table.eq_of_key hk.tasks hs ht hid]
    simpa using hmove
  · simpa [hid] using TaskMove.keep op s

theorem completeTask_moves (hk : db.Keyed) {id : ℕ} {w o a : String} {logs : List String}
    {t' : TaskRun} (h : completeTask env id w o a logs db = .ok (t', db')) :
    Moves env (.completeTask id w o a logs) db db' := by
  obtain ⟨t, r, hheld, rfl, hst, hrun, o', rfl, rfl⟩ := completeTask_ok hk h
  refine ⟨⟨completeRow env db t o' a, rfl, fun s hs => ?_⟩, ?_, rfl, fun d hd => Or.inl hd⟩
  · unfold completeRow
    split_ifs with hid hw
    · rw [Table.eq_of_key hk.tasks hs hheld.mem hid]
      exact .succeed o' hheld hst hrun
    · exact .wake hheld hst hrun hw
    · exact .keep _ s
  · by_cases hlast : ∀ u ∈ db.taskRuns, u.workflowRunId = t.workflowRunId →
        u.id = t.id ∨ u.status = .succeeded
    · refine ⟨completeRun env t.workflowRunId, if_pos hlast, fun s hs => ?_⟩
      unfold completeRun
      split_ifs with hsr
      · obtain rfl := Table.eq_of_key hk.runs hs hheld.run (hsr.1.trans hheld.runId.symm)
        exact .complete hheld hst hrun (hheld.runId ▸ hlast)
      · exact .keep _ s
    · exact ⟨fun s => s, by simp [hlast], fun s _ => .keep _ s⟩

theorem failTask_moves (hk : db.Keyed) {id : ℕ} {w : String} {f : Failure} {t' : TaskRun}
    (h : failTask env id w f db = .ok (t', db')) : Moves env (.failTask id w f) db db' := by
  obtain ⟨t, r, hheld, rfl, hst, rfl, rfl⟩ := failTask_ok hk h
  refine ⟨⟨failRow env f t r, rfl, fun s hs => ?_⟩, ?_, rfl, fun d hd => Or.inl hd⟩
  · unfold failRow cancelWaiting
    split_ifs with hid hdead hw
    · rw [Table.eq_of_key hk.tasks hs hheld.mem hid]
      exact .fail hheld hst
    · exact .failSibling hheld hst hdead hw.1 hw.2
    · exact .keep _ s
    · exact .keep _ s
  · by_cases hdead : reportStatus f t r = .dead
    · refine ⟨failRun env t.workflowRunId, if_pos hdead, fun s hs => ?_⟩
      unfold failRun
      split_ifs with hsr
      · obtain rfl := Table.eq_of_key hk.runs hs hheld.run (hsr.1.trans hheld.runId.symm)
        exact .fail hheld hst hdead hsr.2
      · exact .keep _ s
    · exact ⟨fun s => s, by simp [hdead], fun s _ => .keep _ s⟩

theorem recoverExpired_moves (hk : db.Keyed) (scan : Scan) :
    Moves env (.recoverExpired scan) db (recoverExpired env scan db) := by
  rw [recoverExpired_eq]
  refine ⟨⟨_, rfl, fun t ht => ?_⟩, ⟨_, rfl, fun r hr => ?_⟩, rfl, fun d hd => Or.inl hd⟩
  · by_cases hmem : ∃ e ∈ expiredLeases env scan db, e.1.id = t.id
    · obtain ⟨⟨s, r⟩, he, hid⟩ := hmem
      obtain rfl := Table.eq_of_key hk.tasks (mem_expiredLeases he).1 ht hid
      rw [expireRow_of_mem (nodup_expiredLeases hk scan) he]
      exact .expire he
    · rw [expireRow_of_notMem fun e he hid => hmem ⟨e, he, hid⟩]
      exact .keep _ t
  · rw [expireRunRow_eq]
    split_ifs with hfail
    · obtain ⟨hrun, ⟨s, r₀⟩, he, hdead, hrid⟩ := hfail
      exact .expire he hrid hdead hrun
    · exact .keep _ r

theorem dispatchReady_moves (hk : db.Keyed) (scan : Scan) :
    Moves env (.dispatchReady scan) db (dispatchReady env scan db) := by
  rw [dispatchReady_eq hk]
  refine .of_tasks rfl (fun t ht => ?_) rfl rfl rfl
  unfold dispatchRow
  split_ifs with hmem
  · obtain ⟨⟨s, r⟩, he, hid⟩ := List.mem_map.1 hmem
    obtain rfl := Table.eq_of_key hk.tasks (mem_readyTasks he).1 ht hid
    exact .dispatch he
  · exact .keep _ t

theorem cancelRun_moves {tenant id : ℕ} {user : Option ℕ}
    (h : cancelRun env tenant user id db = .ok db') :
    Moves env (.cancelRun tenant user id) db db' := by
  obtain ⟨⟨r, hr, rfl, rfl, hopen⟩, rfl⟩ := cancelRun_ok h
  refine ⟨⟨_, rfl, fun t ht => ?_⟩, ⟨_, rfl, fun s hs => ?_⟩, rfl, fun d hd => Or.inl hd⟩
  · unfold cancelWaiting
    split_ifs with hw
    · rw [← hw.1]
      exact .cancel hr hw.1.symm rfl hopen hw.2
    · exact .keep _ t
  · split_ifs with hsr
    · have hsr := of_decide_eq_true hsr
      rw [← hsr.1]
      exact .cancel hsr.2.1 hsr.2.2
    · exact .keep _ s

theorem retryRun_moves (hk : db.Keyed) {tenant id : ℕ} {user : Option ℕ}
    (h : retryRun env tenant user id db = .ok db') :
    Moves env (.retryRun tenant user id) db db' := by
  obtain ⟨⟨r, hr, rfl, rfl⟩, ⟨u, hu, hrid, hdead⟩, rfl⟩ := retryRun_ok h
  refine ⟨⟨_, rfl, fun t ht => ?_⟩, ⟨_, rfl, fun s hs => ?_⟩, rfl, fun d hd => Or.inl hd⟩
  · split_ifs with hw
    · have hw := of_decide_eq_true hw
      rw [← hw.1]
      exact .retry hr hw.1.symm rfl hw.2
    · exact .keep _ t
  · split_ifs with hsr
    · obtain rfl := Table.eq_of_key hk.runs hs hr (of_decide_eq_true hsr)
      exact .retry rfl hu hrid hdead
    · exact .keep _ s

theorem replayDead_moves (hk : db.Keyed) {tenant id : ℕ} {user : Option ℕ}
    (h : replayDead env tenant user id db = .ok db') :
    Moves env (.replayDead tenant user id) db db' := by
  obtain ⟨t, ht, r, hr, rfl, hrid, rfl, hdead, rfl⟩ := replayDead_ok h
  refine ⟨⟨_, rfl, fun s hs => ?_⟩, ⟨_, rfl, fun s hs => ?_⟩, rfl, fun d hd => Or.inl hd⟩
  · unfold replayRow
    split_ifs with hid hw
    · rw [Table.eq_of_key hk.tasks hs ht hid]
      exact .replay hr hrid rfl hdead
    · exact .rebuild hr hrid rfl ht hdead hw.1 hw.2
    · exact .keep _ s
  · unfold reopenRun
    split_ifs with hsr
    · obtain rfl := Table.eq_of_key hk.runs hs hr (hsr.1.trans hrid.symm)
      exact .reopen rfl ht hrid.symm hdead hsr.2
    · exact .keep _ s

/-- A successful call moves the rows there are, or adds a run. -/
theorem exec_moves (hk : db.Keyed) {reply : Reply} (h : op.exec env db = .ok (reply, db')) :
    Moves env op db db' ∨ ∃ run dag, Creates env op db db' run dag := by
  cases op <;> simp only [Op.exec, map_eq_ok, Prod.mk.injEq, Except.ok.injEq] at h
  case createWorkflow =>
    obtain ⟨⟨d, _⟩, hop, rfl, rfl⟩ := h
    obtain ⟨hvalid, -, audit, rfl⟩ := createWorkflow_ok hop
    refine Or.inl (.of_eq rfl rfl rfl fun e he => ?_)
    rcases List.mem_append.1 he with he | he
    · exact Or.inl he
    · rw [List.mem_singleton.1 he]
      exact Or.inr hvalid
  case createVersion =>
    obtain ⟨_, hop, -⟩ := h
    exact absurd hop createVersion_ne_ok
  case createRun =>
    obtain ⟨⟨r, _⟩, hop, rfl, rfl⟩ := h
    rcases createRun_ok hop with ⟨rfl, -, -⟩ | ⟨d, hd, uri, -, hins⟩
    · exact Or.inl (.of_eq rfl rfl rfl fun e he => Or.inl he)
    · obtain ⟨htasks, hdeps, artifacts, rfl⟩ := insertRun_ok hins
      exact Or.inr ⟨_, _, ⟨⟨_, _, _, _, _, _, rfl⟩, ⟨d, hd, rfl⟩, rfl, rfl, rfl, htasks, hdeps,
        rfl, rfl, rfl, rfl, rfl, rfl⟩⟩
  case promoteRetries =>
    obtain ⟨-, rfl⟩ := h
    refine Or.inl (.of_tasks rfl (fun t _ => ?_) rfl rfl rfl)
    unfold promote
    split_ifs with ht
    · exact .promote ht.1 ht.2
    · exact .keep _ t
  case recoverExpired scan =>
    obtain ⟨-, rfl⟩ := h
    exact Or.inl (recoverExpired_moves hk scan)
  case dispatchReady scan =>
    obtain ⟨-, rfl⟩ := h
    exact Or.inl (dispatchReady_moves hk scan)
  case leaseTask =>
    obtain ⟨⟨⟨t', uri⟩, _⟩, hop, -, rfl⟩ := h
    obtain ⟨t, ht, rfl, hst, rfl, -, rfl⟩ := leaseTask_ok hk hop
    exact Or.inl (.of_row hk ht (.lease hst) rfl rfl rfl rfl)
  case startTask =>
    obtain ⟨⟨t', _⟩, hop, -, rfl⟩ := h
    obtain ⟨t, r, hheld, rfl, hst, hrun, rfl, rfl⟩ := startTask_ok hk hop
    exact Or.inl (.of_row hk hheld.mem (.start hheld hst hrun) rfl rfl rfl rfl)
  case heartbeatTask =>
    obtain ⟨⟨b, _⟩, hop, -, rfl⟩ := h
    obtain ⟨t, r, hheld, rfl, hst, rfl, rfl⟩ := heartbeatTask_ok hk hop
    exact Or.inl (.of_row hk hheld.mem (.renew hheld hst) rfl rfl rfl rfl)
  case completeTask =>
    obtain ⟨⟨t', _⟩, hop, -, rfl⟩ := h
    exact Or.inl (completeTask_moves hk hop)
  case failTask =>
    obtain ⟨⟨t', _⟩, hop, -, rfl⟩ := h
    exact Or.inl (failTask_moves hk hop)
  case cancelRun =>
    obtain ⟨_, hop, -, rfl⟩ := h
    exact Or.inl (cancelRun_moves hop)
  case retryRun =>
    obtain ⟨_, hop, -, rfl⟩ := h
    exact Or.inl (retryRun_moves hk hop)
  case replayDead =>
    obtain ⟨_, hop, -, rfl⟩ := h
    exact Or.inl (replayDead_moves hk hop)

/-! ## What no move changes -/

/-- The statuses an operation can move a task from. -/
def Op.movesFrom : Op → TaskStatus → Bool
  | .promoteRetries, .retryWait => true
  | .dispatchReady _, .ready => true
  | .leaseTask .., .dispatching => true
  | .startTask .., .leased => true
  | .completeTask .., .running | .completeTask .., .blocked => true
  | .recoverExpired _, st | .heartbeatTask .., st => st.active
  | .failTask .., st => st.active || st.waiting
  | .cancelRun .., st => st.waiting
  | .retryRun .., .dead => true
  | .replayDead .., .dead | .replayDead .., .cancelled => true
  | _, _ => false

namespace TaskMove

variable {t t' : TaskRun}

theorem eq_or_movesFrom (h : TaskMove env db op t t') :
    t' = t ∨ op.movesFrom t.status = true := by
  cases h with
  | keep => exact Or.inl rfl
  | expire h => exact Or.inr (mem_expiredLeases h).2.2.2.1
  | dispatch h => simp [Op.movesFrom, (mem_readyTasks h).2.2.2.1]
  | wake _ _ _ h => simp [Op.movesFrom, h.2.1]
  | _ => simp_all [Op.movesFrom]

/-- A task that has succeeded stays as it is. -/
theorem eq_of_succeeded (h : TaskMove env db op t t') (hst : t.status = .succeeded) : t' = t := by
  refine h.eq_or_movesFrom.resolve_right fun hm => ?_
  cases op <;> simp [Op.movesFrom, hst, TaskStatus.active, TaskStatus.waiting] at hm

/-- Only a completion makes a task succeed. -/
theorem of_succeeded (h : TaskMove env db op t t') (hst' : t'.status = .succeeded) :
    t.status = .succeeded ∨ ∃ w o a logs r o', op = .completeTask t.id w o a logs ∧
      Holds env db w t r ∧ t.status = .running ∧ r.status = .running ∧
      t' = RunMesh.succeed env o' a t := by
  cases h with
  | keep => exact Or.inl hst'
  | @expire _ _ r =>
    rcases expiryStatus_cases (t, r) with h | h | h <;> simp [endLease, h.1] at hst'
  | renew => exact Or.inl hst'
  | succeed o' hheld hst hrun => exact Or.inr ⟨_, _, _, _, _, o', rfl, hheld, hst, hrun, rfl⟩
  | @fail _ f _ r =>
    rcases reportStatus_cases f t r with h | h | h <;> simp [endLease, h.1] at hst'
  | rebuild =>
    simp only [RunMesh.rebuild] at hst'
    split_ifs at hst'
  | _ => cases hst'

theorem succeeded_iff (h : TaskMove env db op t t')
    (hop : ∀ id w o a logs, op ≠ .completeTask id w o a logs) :
    t'.status = .succeeded ↔ t.status = .succeeded := by
  constructor
  · intro hst'
    rcases h.of_succeeded hst' with hst | ⟨w, o, a, logs, -, -, rfl, -⟩
    · exact hst
    · exact absurd rfl (hop _ _ _ _ _)
  · intro hst
    rw [h.eq_of_succeeded hst, hst]

/-- A cancelled task stays as it is, or a replay in its run rebuilds it. -/
theorem eq_or_rebuild_of_cancelled (h : TaskMove env db op t t') (hst : t.status = .cancelled) :
    t' = t ∨ ∃ tenant user, ∃ u ∈ db.taskRuns, ∃ r ∈ db.workflowRuns,
      op = .replayDead tenant user u.id ∧ u.status = .dead ∧ r.id = u.workflowRunId ∧
      t.workflowRunId = u.workflowRunId ∧ r.tenantId = tenant ∧
      t' = RunMesh.rebuild env db (revived env db u) t := by
  rcases h.eq_or_movesFrom with heq | hm
  · exact Or.inl heq
  · cases h with
    | keep => exact Or.inl rfl
    | rebuild hr hrid htenant hu hdead hrun =>
      exact Or.inr ⟨_, _, _, hu, _, hr, rfl, hdead, hrid, hrun, htenant, rfl⟩
    | replay _ _ _ h => simp [h] at hst
    | _ => simp [Op.movesFrom, hst, TaskStatus.active, TaskStatus.waiting] at hm

/-- What makes a task wait : a lease that ends with attempts left, a retry, or a replay. -/
theorem of_waiting (h : TaskMove env db op t t') (ht : t ∈ db.taskRuns)
    (hst' : t'.status.waiting = true) :
    t.status.waiting = true ∨
    (∃ scan r, op = .recoverExpired scan ∧ (t, r) ∈ expiredLeases env scan db ∧
      r.status ≠ .cancelled ∧ t.attemptCount < t.maximumAttempts) ∨
    (∃ w f r, op = .failTask t.id w f ∧ Holds env db w t r ∧ t.status.active = true ∧
      r.status ≠ .cancelled ∧ f.retryable = true ∧ t.attemptCount < t.maximumAttempts) ∨
    (∃ tenant user, ∃ r ∈ db.workflowRuns, op = .retryRun tenant user t.workflowRunId ∧
      r.id = t.workflowRunId ∧ r.tenantId = tenant ∧ t.status = .dead) ∨
    ∃ tenant user, ∃ u ∈ db.taskRuns, ∃ r ∈ db.workflowRuns, op = .replayDead tenant user u.id ∧
      r.id = u.workflowRunId ∧ r.tenantId = tenant ∧ u.status = .dead ∧
      t.workflowRunId = u.workflowRunId := by
  cases h with
  | keep => exact Or.inl hst'
  | promote h => simp [h, TaskStatus.waiting]
  | @expire scan _ r h =>
    rcases expiryStatus_cases (t, r) with hc | hc | hc
    · simp [endLease, hc.1, TaskStatus.waiting] at hst'
    · exact Or.inr (Or.inl ⟨scan, r, rfl, h, hc.2.1, hc.2.2⟩)
    · simp [endLease, hc.1, TaskStatus.waiting] at hst'
  | dispatch h => simp [(mem_readyTasks h).2.2.2.1, TaskStatus.waiting]
  | wake _ _ _ h => simp [h.2.1, TaskStatus.waiting]
  | @fail w f _ r hheld hact =>
    rcases reportStatus_cases f t r with hc | hc | hc
    · simp [endLease, hc.1, TaskStatus.waiting] at hst'
    · exact Or.inr (Or.inr (Or.inl ⟨w, f, r, rfl, hheld, hact, hc.2⟩))
    · simp [endLease, hc.1, TaskStatus.waiting] at hst'
  | renew => exact Or.inl hst'
  | retry hr hrid htenant hst =>
    exact Or.inr (Or.inr (Or.inr (Or.inl ⟨_, _, _, hr, rfl, hrid, htenant, hst⟩)))
  | replay hr hrid htenant hst =>
    exact Or.inr (Or.inr (Or.inr (Or.inr ⟨_, _, t, ht, _, hr, rfl, hrid, htenant, hst, rfl⟩)))
  | rebuild hr hrid htenant hu hdead hrun =>
    exact Or.inr (Or.inr (Or.inr (Or.inr ⟨_, _, _, hu, _, hr, rfl, hrid, htenant, hdead, hrun⟩)))
  | _ => simp [RunMesh.lease, RunMesh.succeed, TaskStatus.waiting] at hst'

theorem id (h : TaskMove env db op t t') : t'.id = t.id := by
  cases h <;> rfl

theorem workflowRunId (h : TaskMove env db op t t') : t'.workflowRunId = t.workflowRunId := by
  cases h <;> rfl

theorem taskKey (h : TaskMove env db op t t') : t'.taskKey = t.taskKey := by
  cases h <;> rfl

theorem handler (h : TaskMove env db op t t') : t'.handler = t.handler := by
  cases h <;> rfl

theorem input (h : TaskMove env db op t t') : t'.input = t.input := by
  cases h <;> rfl

end TaskMove

namespace RunMove

variable {r r' : Run}

theorem id (h : RunMove env db op r r') : r'.id = r.id := by
  cases h <;> rfl

theorem tenantId (h : RunMove env db op r r') : r'.tenantId = r.tenantId := by
  cases h <;> rfl

theorem input (h : RunMove env db op r r') : r'.input = r.input := by
  cases h <;> rfl

/-- No move makes a run pending. -/
theorem ne_pending (h : RunMove env db op r r') (hr : r.status ≠ .pending) :
    r'.status ≠ .pending := by
  cases h <;> first | exact hr | simp

end RunMove

namespace Moves

theorem of_mem_task (h : Moves env op db db') {t' : TaskRun} (ht : t' ∈ db'.taskRuns) :
    ∃ t ∈ db.taskRuns, TaskMove env db op t t' := by
  obtain ⟨f, hf, hmove⟩ := h.tasks
  rw [hf] at ht
  obtain ⟨t, hmem, rfl⟩ := List.mem_map.1 ht
  exact ⟨t, hmem, hmove t hmem⟩

theorem mem_task (h : Moves env op db db') {t : TaskRun} (ht : t ∈ db.taskRuns) :
    ∃ t' ∈ db'.taskRuns, TaskMove env db op t t' := by
  obtain ⟨f, hf, hmove⟩ := h.tasks
  exact ⟨f t, hf ▸ List.mem_map_of_mem ht, hmove t ht⟩

theorem of_mem_run (h : Moves env op db db') {r' : Run} (hr : r' ∈ db'.workflowRuns) :
    ∃ r ∈ db.workflowRuns, RunMove env db op r r' := by
  obtain ⟨f, hf, hmove⟩ := h.runs
  rw [hf] at hr
  obtain ⟨r, hmem, rfl⟩ := List.mem_map.1 hr
  exact ⟨r, hmem, hmove r hmem⟩

theorem mem_run (h : Moves env op db db') {r : Run} (hr : r ∈ db.workflowRuns) :
    ∃ r' ∈ db'.workflowRuns, RunMove env db op r r' := by
  obtain ⟨f, hf, hmove⟩ := h.runs
  exact ⟨f r, hf ▸ List.mem_map_of_mem hr, hmove r hr⟩

theorem map_task_id (h : Moves env op db db') :
    db'.taskRuns.map TaskRun.id = db.taskRuns.map TaskRun.id := by
  obtain ⟨f, hf, hmove⟩ := h.tasks
  rw [hf, List.map_map]
  exact List.map_congr_left fun t ht => (hmove t ht).id

theorem map_run_id (h : Moves env op db db') :
    db'.workflowRuns.map Run.id = db.workflowRuns.map Run.id := by
  obtain ⟨f, hf, hmove⟩ := h.runs
  rw [hf, List.map_map]
  exact List.map_congr_left fun r hr => (hmove r hr).id

theorem keyed (h : Moves env op db db') (hk : db.Keyed) : db'.Keyed :=
  ⟨h.map_run_id ▸ hk.runs, h.map_task_id ▸ hk.tasks⟩

end Moves

end

end RunMesh
