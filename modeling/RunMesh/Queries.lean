import RunMesh.Api
import RunMesh.Confinement

/-!
# What a tenant reads

Every query of the API is about one tenant, by an argument or because a run of the tenant was found
before. So it finds in the view of the tenant what it finds in the database. The lemmas have the
shape `query (db.view A) = query db`.
-/

namespace RunMesh

open Fallible

variable {env : Env} {db : Db} {A : ℕ} {cfg : ApiConfig}

/-! ## Definitions and runs -/

@[simp] theorem listWorkflows_view : listWorkflows cfg A (db.view A) = listWorkflows cfg A db := by
  simp [listWorkflows, Db.view, Db.only, List.filter_filter]

@[simp] theorem getWorkflow_view (id : String) :
    getWorkflow cfg A id (db.view A) = getWorkflow cfg A id db := by
  refine congrArg (Except.bind _) (funext fun value => congrArg (orError _) ?_)
  exact Table.find?_filter_of fun d _ hp => decide_eq_true (of_decide_eq_true hp).2

@[simp] theorem listRuns_view : listRuns A (db.view A) = listRuns A db := by
  simp [listRuns, Db.view, Db.only, List.filter_filter]

@[simp] theorem findRun_view (id : String) :
    findRun cfg A id (db.view A) = findRun cfg A id db := by
  refine congrArg (Except.bind _) (funext fun value => congrArg (orError _) ?_)
  exact Table.find?_filter_of fun r _ hp => decide_eq_true (of_decide_eq_true hp).2

/-- The run that is found is one of the tenant. -/
theorem findRun_ok {id : String} {r : Run} (h : findRun cfg A id db = .ok r) :
    db.ownsRun A r.id = true := by
  simp only [findRun, ApiConfig.idOf, bind_eq_ok, orError_eq_ok] at h
  obtain ⟨value, -, hfind⟩ := h
  have hp := List.find?_some hfind
  simp only [decide_eq_true_eq] at hp
  exact Db.ownsRun_iff.2 ⟨r, List.mem_of_find?_eq_some hfind, rfl, hp.2⟩

/-! ## The tasks, attempts and events of a run -/

section Run

variable {runId : ℕ}

theorem lastLog_view (hc : Closed db A (db.ownsRun A) (db.ownsTask A)) {t : TaskRun}
    (ht : t ∈ db.taskRuns) (hown : db.ownsRun A t.workflowRunId = true) :
    lastLog (db.view A) t = lastLog db t := by
  have hattempts : (db.view A).taskAttempts.filter
      (fun a => a.taskRunId = t.id ∧ a.logArtifactUri ≠ none) = db.taskAttempts.filter
        (fun a => a.taskRunId = t.id ∧ a.logArtifactUri ≠ none) := by
    refine Table.filter_filter_of fun a _ hp => ?_
    rw [(of_decide_eq_true hp).1, hc.task t ht, hown]
  rw [lastLog, hattempts, lastLog]

theorem taskRows_view (hw : db.WellFormed) (hown : db.ownsRun A runId = true) :
    taskRows cfg runId (db.view A) = taskRows cfg runId db := by
  have hc := hw.closed A
  have htasks : (db.view A).taskRuns.filter (fun t => t.workflowRunId = runId) =
      db.taskRuns.filter fun t => t.workflowRunId = runId :=
    Table.filter_filter_of fun t _ hp => by rwa [of_decide_eq_true hp]
  simp only [taskRows, htasks]
  refine List.map_congr_left fun t ht => ?_
  obtain ⟨ht, hrun⟩ := List.mem_filter.1 ((List.mem_insertionSort _).1 ht)
  have hin : db.ownsRun A t.workflowRunId = true := by rwa [of_decide_eq_true hrun]
  have hupstream : (db.view A).upstream (db.view A).taskRuns t = db.upstream db.taskRuns t := by
    have := hc.upstream_eq (g := fun t => t) (fun _ _ => ⟨rfl, rfl⟩) ⟨t, ht, rfl, hin⟩
    rwa [List.map_id'] at this
  rw [lastLog_view hc ht hin, hupstream]

theorem attemptRows_view (hw : db.WellFormed) (hown : db.ownsRun A runId = true) :
    attemptRows cfg runId (db.view A) = attemptRows cfg runId db := by
  have hc := hw.closed A
  have hjoin : Table.join TaskAttempt.taskRunId TaskRun.id (db.view A).taskAttempts
      (db.view A).taskRuns = (Table.join TaskAttempt.taskRunId TaskRun.id db.taskAttempts
        db.taskRuns).filter fun row => db.ownsTask A row.1.taskRunId := by
    refine Table.join_filter_of fun a _ ha t ht hid => ?_
    rwa [← hid, hc.task t ht] at ha
  have hrows : ((Table.join TaskAttempt.taskRunId TaskRun.id db.taskAttempts
      db.taskRuns).filter fun row => db.ownsTask A row.1.taskRunId).filter
        (fun row => row.2.workflowRunId = runId) = (Table.join TaskAttempt.taskRunId TaskRun.id
          db.taskAttempts db.taskRuns).filter fun row => row.2.workflowRunId = runId := by
    refine Table.filter_filter_of ?_
    rintro ⟨a, t⟩ hrow hp
    obtain ⟨-, ht, hid⟩ := Table.mem_join.1 hrow
    rw [← hid, hc.task t ht, of_decide_eq_true hp, hown]
  rw [attemptRows, hjoin, hrows, attemptRows]

/-- An event with the id of the run, or with its text, is about the run. -/
theorem runEvents_view (hl : db.Linked) (hown : db.ownsRun A runId = true) :
    runEvents cfg runId (db.view A) = runEvents cfg runId db := by
  have hevents : (db.view A).outboxEvents.filter (fun e => e.aggregateId = runId ∨
      e.payload.workflowRunId.map cfg.uuid.format = some (cfg.uuid.format runId)) =
        db.outboxEvents.filter fun e => e.aggregateId = runId ∨
          e.payload.workflowRunId.map cfg.uuid.format = some (cfg.uuid.format runId) := by
    refine Table.filter_filter_of fun e he hp => ?_
    have hkey : e.orderingKey = runId := by
      rcases of_decide_eq_true hp with hid | hpayload
      · rcases hl.about e he with ⟨-, hkey⟩ | ⟨-, t, ht, htid, -⟩
        · exact hkey.symm.trans hid
        · obtain ⟨r, hr, hrid, -⟩ := Db.ownsRun_iff.1 hown
          exact absurd (hrid.trans (hid.symm.trans htid.symm)) (hl.apart r hr t ht)
      · obtain ⟨value, hvalue, hformat⟩ := Option.map_eq_some_iff.1 hpayload
        have heq := congrArg cfg.uuid.value hformat
        rw [cfg.uuid.value_format, cfg.uuid.value_format, Option.some.injEq] at heq
        rw [OutboxEvent.orderingKey, hvalue, Option.getD_some, heq]
    rwa [hkey]
  rw [runEvents, hevents, runEvents]

end Run

@[simp] theorem listDead_view (hw : db.WellFormed) : listDead A (db.view A) = listDead A db := by
  have hc := hw.closed A
  have hrows : (db.view A).tasksWithRun.filter
      (fun tr => tr.2.tenantId = A ∧ tr.1.status = .dead) = db.tasksWithRun.filter
        fun tr => tr.2.tenantId = A ∧ tr.1.status = .dead := by
    rw [Db.view, hc.tasksWithRun]
    refine Table.filter_filter_of ?_
    rintro ⟨t, r⟩ htr hp
    obtain ⟨-, hr, hid⟩ := Table.mem_join.1 htr
    rw [← hid]
    exact (hc.run r hr).2 (of_decide_eq_true hp).1
  rw [listDead, hrows, listDead]

/-! ## Tasks of the tenant -/

theorem taskBelongsToTenant_view (hw : db.WellFormed) (uuid : UuidText) (taskId : String) :
    taskBelongsToTenant uuid taskId A (db.view A) = taskBelongsToTenant uuid taskId A db := by
  have hc := hw.closed A
  refine congrArg (Except.bind _) (funext fun value => congrArg (require _) ?_)
  rw [Db.view, hc.tasksWithRun]
  refine Table.any_filter_of ?_
  rintro ⟨t, r⟩ htr hp
  obtain ⟨-, hr, hid⟩ := Table.mem_join.1 htr
  rw [← hid]
  exact (hc.run r hr).2 (of_decide_eq_true hp).2

theorem ownsTask_of_taskBelongsToTenant {uuid : UuidText} {taskId : String}
    (h : taskBelongsToTenant uuid taskId A db = .ok ()) :
    ∃ value, uuid.value taskId = some value ∧ db.ownsTask A value = true := by
  simp only [taskBelongsToTenant, bind_eq_ok, orError_eq_ok, require_eq_ok, List.any_eq_true]
    at h
  obtain ⟨value, hvalue, ⟨t, r⟩, htr, hp⟩ := h
  obtain ⟨ht, hr, hid⟩ := Table.mem_join.1 htr
  obtain ⟨htask, htenant⟩ := of_decide_eq_true hp
  exact ⟨value, hvalue, Db.ownsTask_iff.2
    ⟨t, ht, htask, Db.ownsRun_iff.2 ⟨r, hr, hid, htenant⟩⟩⟩

/-- A task of another tenant is not found, as if it were not there. -/
theorem activeTaskLeaseBelongsToWorker_view (hw : db.WellFormed) (uuid : UuidText)
    (taskId workerId : String) :
    activeTaskLeaseBelongsToWorker uuid env taskId A workerId (db.view A) =
      activeTaskLeaseBelongsToWorker uuid env taskId A workerId db := by
  have hc := hw.closed A
  refine congrArg (Except.bind _) (funext fun value => ?_)
  by_cases hown : db.ownsTask A value = true
  · rw [Db.view, hc.find?_tasksWithRun fun t ht r _ _ hp => ?_]
    refine hw.toKeyed.ownsRun_of_ownsTask ht ?_
    rwa [of_decide_eq_true hp]
  · have hforeign : ∀ tr ∈ db.tasksWithRun, tr.1.id = value →
        tr.2.tenantId ≠ A ∧ db.ownsRun A tr.1.workflowRunId = false := by
      rintro ⟨t, r⟩ htr hid
      obtain ⟨ht, hr, hrid⟩ := Table.mem_join.1 htr
      have hnot : ¬db.ownsRun A t.workflowRunId = true := fun hrun =>
        hown (Db.ownsTask_iff.2 ⟨t, ht, hid, hrun⟩)
      refine ⟨fun htenant => hnot ?_, by simpa using hnot⟩
      rw [← hrid]
      exact (hc.run r hr).2 htenant
    have hnone : (db.view A).tasksWithRun.find? (fun tr => tr.1.id = value) = none := by
      rw [Db.view, hc.tasksWithRun, List.find?_eq_none]
      intro tr htr hp
      obtain ⟨htr, hin⟩ := List.mem_filter.1 htr
      rw [(hforeign tr htr (of_decide_eq_true hp)).2] at hin
      exact absurd hin (by simp)
    rw [hnone]
    cases hfind : db.tasksWithRun.find? (fun tr => tr.1.id = value) with
    | none => rfl
    | some tr =>
      have hid : tr.1.id = value := by simpa using List.find?_some hfind
      have htenant := (hforeign tr (List.mem_of_find?_eq_some hfind) hid).1
      simp [orError, require, ok_bind, error_bind, htenant]

theorem ownsTask_of_activeTaskLease {uuid : UuidText} {taskId workerId : String}
    (h : activeTaskLeaseBelongsToWorker uuid env taskId A workerId db = .ok ()) :
    ∃ value, uuid.value taskId = some value ∧ db.ownsTask A value = true := by
  simp only [activeTaskLeaseBelongsToWorker, bind_eq_ok, orError_eq_ok, require_eq_ok,
    decide_eq_true_eq] at h
  obtain ⟨value, hvalue, ⟨t, r⟩, htr, -, htenant, -⟩ := h
  obtain ⟨ht, hr, hid, hp⟩ := Table.find?_join htr
  exact ⟨value, hvalue, Db.ownsTask_iff.2
    ⟨t, ht, of_decide_eq_true hp, Db.ownsRun_iff.2 ⟨r, hr, hid, htenant⟩⟩⟩

/-! ## Artifacts -/

@[simp] theorem getArtifact_view (uuid : UuidText) (id : String) :
    getArtifact uuid A id (db.view A) = getArtifact uuid A id db := by
  refine congrArg (Except.bind _) (funext fun value => congrArg (orError _) ?_)
  exact Table.find?_filter_of fun a _ hp => decide_eq_true (of_decide_eq_true hp).1

@[simp] theorem getArtifactByURI_view (uri : String) :
    getArtifactByURI A uri (db.view A) = getArtifactByURI A uri db :=
  congrArg (orError _)
    (Table.find?_filter_of fun _ _ hp => decide_eq_true (of_decide_eq_true hp).1)

@[simp] theorem download_view (m : Manager) (idOrURI : String) :
    download m env A idOrURI (db.view A) = download m env A idOrURI db := by
  simp [download, findArtifact]

theorem tenantId_of_getArtifact {uuid : UuidText} {id : String} {a : Artifact}
    (h : getArtifact uuid A id db = .ok a) : a.tenantId = A := by
  simp only [getArtifact, bind_eq_ok, orError_eq_ok] at h
  obtain ⟨value, -, hfind⟩ := h
  have hp := List.find?_some hfind
  simp only [decide_eq_true_eq] at hp
  exact hp.1

theorem getArtifactByURI_ok {uri : String} {a : Artifact} (h : getArtifactByURI A uri db = .ok a) :
    a ∈ db.artifacts ∧ a.tenantId = A ∧ a.objectUri = uri := by
  simp only [getArtifactByURI, orError_eq_ok] at h
  have hp := List.find?_some h
  simp only [decide_eq_true_eq] at hp
  exact ⟨List.mem_of_find?_eq_some h, hp⟩

theorem admitUpload_view (hw : db.WellFormed) (m : Manager) (userId : Option ℕ)
    (req : UploadRequest) :
    admitUpload m A userId req (db.view A) = admitUpload m A userId req db := by
  have htask : uploadTask m A (db.view A) req.taskRunId = uploadTask m A db req.taskRunId := by
    cases req.taskRunId with
    | none => rfl
    | some task => simp only [uploadTask, taskBelongsToTenant_view hw]
  simp only [admitUpload, htask]

/-- What `createUpload` has checked. -/
theorem admitUpload_ok {m : Manager} {userId : Option ℕ} {req : UploadRequest}
    {u : AdmittedUpload} (h : admitUpload m A userId req db = .ok u) :
    u.tenantId = A ∧ u.size ≤ u.kind.limit := by
  simp only [admitUpload, bind_eq_ok, require_eq_ok, decide_eq_true_eq] at h
  obtain ⟨kind, -, -, ⟨hnonneg, hlimit⟩, checksum, -, task, -, h⟩ := h
  cases h
  refine ⟨rfl, ?_⟩
  dsimp only
  omega

end RunMesh
