import RunMesh.Tenancy
import RunMesh.Uploads

/-!
# Calls of a tenant

A call is one of the tenant `A` if it has `A` as an argument or is on a task of `A` (`Op.For`).
It does the same in the whole database and in the view of `A` (`exec_view`), and it leaves the view
of every other tenant alone (`exec_view_ne`). Both rest on references that are kept by every call
(`Db.Linked`) : attempts and events refer to tasks and runs that are there, so no row of a tenant
can come to refer to a run of another.
-/

namespace RunMesh

open Fallible

variable {env : Env} {op : Op} {db db' : Db} {A B : ℕ}

/-! ## References -/

/-- The rows refer to rows that are there. -/
structure Db.Linked (db : Db) : Prop extends Db.WellFormed db where
  attempt : ∀ a ∈ db.taskAttempts, ∃ t ∈ db.taskRuns, t.id = a.taskRunId
  event : ∀ e ∈ db.outboxEvents, ∃ r ∈ db.workflowRuns, r.id = e.orderingKey
  about : ∀ e ∈ db.outboxEvents, db.EventOf e e.orderingKey
  apart : ∀ r ∈ db.workflowRuns, ∀ t ∈ db.taskRuns, r.id ≠ t.id
  artifacts : (db.artifacts.map Artifact.id).Nodup

theorem Moves.ownsRun (h : Moves env op db db') (A : ℕ) : db'.ownsRun A = db.ownsRun A := by
  funext runId
  rw [Bool.eq_iff_iff, Db.ownsRun_iff, Db.ownsRun_iff]
  constructor
  · rintro ⟨r', hr', hid, htenant⟩
    obtain ⟨r, hr, hmove⟩ := h.of_mem_run hr'
    exact ⟨r, hr, hmove.id.symm.trans hid, hmove.tenantId.symm.trans htenant⟩
  · rintro ⟨r, hr, hid, htenant⟩
    obtain ⟨r', hr', hmove⟩ := h.mem_run hr
    exact ⟨r', hr', hmove.id.trans hid, hmove.tenantId.trans htenant⟩

theorem Moves.ownsTask (h : Moves env op db db') (A : ℕ) : db'.ownsTask A = db.ownsTask A := by
  funext taskId
  rw [Bool.eq_iff_iff, Db.ownsTask_iff, Db.ownsTask_iff, h.ownsRun]
  constructor
  · rintro ⟨t', ht', hid, howns⟩
    obtain ⟨t, ht, hmove⟩ := h.of_mem_task ht'
    exact ⟨t, ht, hmove.id.symm.trans hid, by rwa [← hmove.workflowRunId]⟩
  · rintro ⟨t, ht, hid, howns⟩
    obtain ⟨t', ht', hmove⟩ := h.mem_task ht
    exact ⟨t', ht', hmove.id.trans hid, by rwa [hmove.workflowRunId]⟩

section

variable {run : Run} {dag : DAG}

theorem Creates.ownsRun_old (h : Creates env op db db' run dag) (hf : db.Fresh env) {r : Run}
    (hr : r ∈ db.workflowRuns) : db'.ownsRun A r.id = db.ownsRun A r.id := by
  have hne : run.id ≠ r.id := fun hid => hf.run_ne hr 0 (hid.symm.trans h.id)
  simp [Db.ownsRun, h.runs, hne]

theorem Creates.ownsRun_new (h : Creates env op db db' run dag) (hf : db.Fresh env) :
    db'.ownsRun A run.id = decide (run.tenantId = A) := by
  have hnone : ∀ r ∈ db.workflowRuns, r.id ≠ run.id := fun r hr hid =>
    hf.run_ne hr 0 (hid.trans h.id)
  rw [Bool.eq_iff_iff, Db.ownsRun_iff, h.runs, decide_eq_true_eq]
  constructor
  · rintro ⟨r, hr, hid, htenant⟩
    rcases List.mem_append.1 hr with hr | hr
    · exact absurd hid (hnone r hr)
    · rwa [← List.mem_singleton.1 hr]
  · intro htenant
    exact ⟨run, by simp, rfl, htenant⟩

theorem Creates.ownsTask_old (h : Creates env op db db' run dag) (hf : db.Fresh env)
    (hw : db.WellFormed) {t : TaskRun} (ht : t ∈ db.taskRuns) :
    db'.ownsTask A t.id = db.ownsTask A t.id := by
  obtain ⟨r, hr, hrid⟩ := hw.runOf t ht
  rw [((h.wellFormed hf hw).closed A).task t (h.task_mem ht), (hw.closed A).task t ht, ← hrid,
    h.ownsRun_old hf hr]

end

theorem Moves.apart (h : Moves env op db db')
    (hapart : ∀ r ∈ db.workflowRuns, ∀ t ∈ db.taskRuns, r.id ≠ t.id) :
    ∀ r ∈ db'.workflowRuns, ∀ t ∈ db'.taskRuns, r.id ≠ t.id := by
  intro r' hr' t' ht'
  obtain ⟨r, hr, hrmove⟩ := h.of_mem_run hr'
  obtain ⟨t, ht, hmove⟩ := h.of_mem_task ht'
  rw [hrmove.id, hmove.id]
  exact hapart r hr t ht

theorem Creates.apart {run : Run} {dag : DAG} (h : Creates env op db db' run dag)
    (hf : db.Fresh env) (hapart : ∀ r ∈ db.workflowRuns, ∀ t ∈ db.taskRuns, r.id ≠ t.id) :
    ∀ r ∈ db'.workflowRuns, ∀ t ∈ db'.taskRuns, r.id ≠ t.id := by
  intro r hr t ht
  rw [h.runs, List.mem_append, List.mem_singleton] at hr
  rw [h.tasks, List.mem_append, List.mem_map] at ht
  rcases hr with hr | rfl <;> rcases ht with ht | ⟨entry, -, rfl⟩
  · exact hapart r hr t ht
  · exact hf.run_ne hr _
  · exact fun hid => hf.task_ne ht 0 (hid.symm.trans h.id)
  · intro hid
    rw [h.id] at hid
    exact absurd (hf.injective hid) (by omega)

/-- Runs and tasks stay. -/
theorem exec_run_mem (hk : db.Keyed) {reply : Reply} (h : op.exec env db = .ok (reply, db'))
    {r : Run} (hr : r ∈ db.workflowRuns) :
    ∃ r' ∈ db'.workflowRuns, r'.id = r.id ∧ r'.tenantId = r.tenantId := by
  rcases exec_moves hk h with hm | ⟨run, dag, hc⟩
  · obtain ⟨r', hr', hmove⟩ := hm.mem_run hr
    exact ⟨r', hr', hmove.id, hmove.tenantId⟩
  · exact ⟨r, hc.runs ▸ List.mem_append_left _ hr, rfl, rfl⟩

theorem exec_task_mem (hk : db.Keyed) {reply : Reply} (h : op.exec env db = .ok (reply, db'))
    {t : TaskRun} (ht : t ∈ db.taskRuns) :
    ∃ t' ∈ db'.taskRuns, t'.id = t.id ∧ t'.workflowRunId = t.workflowRunId := by
  rcases exec_moves hk h with hm | ⟨run, dag, hc⟩
  · obtain ⟨t', ht', hmove⟩ := hm.mem_task ht
    exact ⟨t', ht', hmove.id, hmove.workflowRunId⟩
  · exact ⟨t, hc.task_mem ht, rfl, rfl⟩

/-! ## What a call writes -/

/-- The runs a call can write the rows of. -/
def Op.writes (env : Env) (db : Db) : Op → ℕ → Prop
  | .createWorkflow .., _ | .createVersion .., _ => False
  | .createRun .., runId => runId = env.uuid 0
  | .promoteRetries, runId | .recoverExpired _, runId | .dispatchReady _, runId =>
    ∃ t ∈ db.taskRuns, t.workflowRunId = runId
  | .leaseTask id .., runId | .startTask id _, runId | .heartbeatTask id .., runId
  | .completeTask id .., runId | .failTask id .., runId =>
    ∃ t ∈ db.taskRuns, t.id = id ∧ t.workflowRunId = runId
  | .cancelRun tenantId _ id, runId | .retryRun tenantId _ id, runId =>
    runId = id ∧ db.ownsRun tenantId runId = true
  | .replayDead tenantId _ id, runId =>
    (∃ t ∈ db.taskRuns, t.id = id ∧ t.workflowRunId = runId) ∧ db.ownsRun tenantId runId = true

theorem TaskMove.writes {t t' : TaskRun} (h : TaskMove env db op t t') (ht : t ∈ db.taskRuns) :
    t' = t ∨ op.writes env db t.workflowRunId := by
  cases h with
  | keep => exact Or.inl rfl
  | promote | expire | dispatch => exact Or.inr ⟨t, ht, rfl⟩
  | lease | start | renew | succeed | fail => exact Or.inr ⟨t, ht, rfl, rfl⟩
  | wake hheld _ _ hwake => exact Or.inr ⟨_, hheld.mem, rfl, hwake.1.symm⟩
  | failSibling hheld _ _ hrun => exact Or.inr ⟨_, hheld.mem, rfl, hrun.symm⟩
  | cancel hr hrid htenant | retry hr hrid htenant =>
    exact Or.inr ⟨rfl, Db.ownsRun_iff.2 ⟨_, hr, hrid, htenant⟩⟩
  | replay hr hrid htenant =>
    exact Or.inr ⟨⟨t, ht, rfl, rfl⟩, Db.ownsRun_iff.2 ⟨_, hr, hrid, htenant⟩⟩
  | rebuild hr hrid htenant hu _ hrun =>
    exact Or.inr ⟨⟨_, hu, rfl, hrun.symm⟩, Db.ownsRun_iff.2 ⟨_, hr, hrid.trans hrun.symm, htenant⟩⟩

theorem RunMove.writes {r r' : Run} (h : RunMove env db op r r') (hr : r ∈ db.workflowRuns) :
    r' = r ∨ op.writes env db r.id := by
  cases h with
  | keep => exact Or.inl rfl
  | expire he hrid => exact Or.inr ⟨_, (mem_expiredLeases he).1, hrid⟩
  | complete hheld | fail hheld => exact Or.inr ⟨_, hheld.mem, rfl, hheld.runId.symm⟩
  | cancel htenant | retry htenant => exact Or.inr ⟨rfl, Db.ownsRun_iff.2 ⟨r, hr, rfl, htenant⟩⟩
  | reopen htenant ht hrid =>
    exact Or.inr ⟨⟨_, ht, rfl, hrid⟩, Db.ownsRun_iff.2 ⟨r, hr, rfl, htenant⟩⟩

/-- The rows of the runs in `X` are written, and no others. -/
structure Writes (X : ℕ → Prop) (db db' : Db) : Prop where
  runs : Table.Confined X Run.id db.workflowRuns db'.workflowRuns
  tasks : Table.Confined X TaskRun.workflowRunId db.taskRuns db'.taskRuns
  dependencies : Table.Confined X Dependency.workflowRunId db.taskDependencies db'.taskDependencies
  attempts : Table.Confined (fun id => ∃ t ∈ db.taskRuns, t.id = id ∧ X t.workflowRunId)
    TaskAttempt.taskRunId db.taskAttempts db'.taskAttempts
  events : Table.Confined X OutboxEvent.orderingKey db.outboxEvents db'.outboxEvents

/-- The attempts and events of a call. -/
theorem exec_log (hk : db.Keyed) {reply : Reply} (h : op.exec env db = .ok (reply, db')) :
    Table.Confined (fun id => ∃ t ∈ db.taskRuns, t.id = id ∧ op.writes env db t.workflowRunId)
      TaskAttempt.taskRunId db.taskAttempts db'.taskAttempts ∧
    Table.Confined (op.writes env db) OutboxEvent.orderingKey db.outboxEvents
      db'.outboxEvents := by
  cases op <;> simp only [Op.exec, map_eq_ok, Prod.mk.injEq, Except.ok.injEq] at h
  case createWorkflow =>
    obtain ⟨⟨d, _⟩, hop, rfl, rfl⟩ := h
    obtain ⟨-, -, audit, rfl⟩ := createWorkflow_ok hop
    exact ⟨.refl _ _ _, .refl _ _ _⟩
  case createVersion =>
    obtain ⟨_, hop, -⟩ := h
    exact absurd hop createVersion_ne_ok
  case createRun =>
    obtain ⟨⟨r, _⟩, hop, rfl, rfl⟩ := h
    rcases createRun_ok hop with ⟨rfl, -, -⟩ | ⟨d, hd, uri, -, hins⟩
    · exact ⟨.refl _ _ _, .refl _ _ _⟩
    · obtain ⟨-, -, artifacts, rfl⟩ := insertRun_ok hins
      exact ⟨.refl _ _ _, .append fun e he => by rw [List.mem_singleton.1 he]; rfl⟩
  case promoteRetries =>
    obtain ⟨-, rfl⟩ := h
    exact ⟨.refl _ _ _, .refl _ _ _⟩
  case recoverExpired scan =>
    obtain ⟨-, rfl⟩ := h
    have hattempts : AttemptMoves env db (.recoverExpired scan) (recoverExpired env scan db)
        (fun a => (expiredLeases env scan db).foldl (fun a e => endAttempt env e a) a) [] :=
      recoverExpired_attempts scan
    rw [recoverExpired_eq]
    refine ⟨.map (fun a _ => (hattempts.key a).1) fun a ha => ?_, .append fun e he => ?_⟩
    · refine (hattempts.current a ha).imp_right ?_
      rintro ⟨t, ht, hid, -⟩
      exact ⟨t, ht, hid, t, ht, rfl⟩
    · obtain ⟨⟨⟨t, r⟩, n⟩, hc, rfl⟩ := List.mem_map.1 he
      exact ⟨t, (mem_expiredLeases (List.fst_mem_of_mem_zipIdx hc)).1, rfl⟩
  case dispatchReady scan =>
    obtain ⟨-, rfl⟩ := h
    rw [dispatchReady_eq hk]
    refine ⟨.refl _ _ _, .append fun e he => ?_⟩
    obtain ⟨⟨⟨t, r⟩, n⟩, hc, rfl⟩ := List.mem_map.1 he
    exact ⟨t, (mem_readyTasks (List.fst_mem_of_mem_zipIdx hc)).1, rfl⟩
  case leaseTask =>
    obtain ⟨⟨⟨t', uri⟩, _⟩, hop, -, rfl⟩ := h
    obtain ⟨t, ht, rfl, -, rfl, -, rfl⟩ := leaseTask_ok hk hop
    refine ⟨.append fun a ha => ?_, .append fun e he => ?_⟩
    · rw [List.mem_singleton.1 ha]
      exact ⟨t, ht, rfl, t, ht, rfl, rfl⟩
    · rw [List.mem_singleton.1 he]
      exact ⟨t, ht, rfl, rfl⟩
  case startTask =>
    obtain ⟨⟨t', _⟩, hop, -, rfl⟩ := h
    obtain ⟨t, r, hheld, rfl, -, -, -, rfl⟩ := startTask_ok hk hop
    refine ⟨.update (fun _ => rfl) fun a _ ha => ?_, .refl _ _ _⟩
    exact ⟨t, hheld.mem, (of_decide_eq_true ha).1.symm, t, hheld.mem, rfl, rfl⟩
  case heartbeatTask =>
    obtain ⟨⟨b, _⟩, hop, -, rfl⟩ := h
    obtain ⟨t, r, -, rfl, -, -, rfl⟩ := heartbeatTask_ok hk hop
    exact ⟨.refl _ _ _, .refl _ _ _⟩
  case completeTask =>
    obtain ⟨⟨t', _⟩, hop, -, rfl⟩ := h
    obtain ⟨t, r, hheld, rfl, -, -, o', rfl, rfl⟩ := completeTask_ok hk hop
    refine ⟨.update (fun _ => rfl) fun a _ ha => ?_, .append fun e he => ?_⟩
    · exact ⟨t, hheld.mem, (of_decide_eq_true ha).1.symm, t, hheld.mem, rfl, rfl⟩
    · rcases List.mem_append.1 he with he | he
      · obtain ⟨c, -, rfl⟩ := List.mem_map.1 he
        exact ⟨t, hheld.mem, rfl, rfl⟩
      · rw [List.mem_singleton.1 he]
        exact ⟨t, hheld.mem, rfl, rfl⟩
  case failTask =>
    obtain ⟨⟨t', _⟩, hop, -, rfl⟩ := h
    obtain ⟨t, r, hheld, rfl, -, -, rfl⟩ := failTask_ok hk hop
    refine ⟨.update (fun _ => rfl) fun a _ ha => ?_, .append fun e he => ?_⟩
    · exact ⟨t, hheld.mem, (of_decide_eq_true ha).1.symm, t, hheld.mem, rfl, rfl⟩
    · rw [List.mem_singleton.1 he]
      exact ⟨t, hheld.mem, rfl, rfl⟩
  case cancelRun =>
    obtain ⟨_, hop, -, rfl⟩ := h
    rw [(cancelRun_ok hop).2]
    exact ⟨.refl _ _ _, .refl _ _ _⟩
  case retryRun =>
    obtain ⟨_, hop, -, rfl⟩ := h
    rw [(retryRun_ok hop).2.2]
    exact ⟨.refl _ _ _, .refl _ _ _⟩
  case replayDead =>
    obtain ⟨_, hop, -, rfl⟩ := h
    obtain ⟨t, ht, r, hr, rfl, hrid, rfl, -, rfl⟩ := replayDead_ok hop
    refine ⟨.refl _ _ _, .append fun e he => ?_⟩
    rw [List.mem_singleton.1 he]
    exact ⟨⟨t, ht, rfl, rfl⟩, Db.ownsRun_iff.2 ⟨r, hr, hrid, rfl⟩⟩

/-- A call writes the rows of its runs. -/
theorem exec_writes (hk : db.Keyed) {reply : Reply} (h : op.exec env db = .ok (reply, db')) :
    Writes (op.writes env db) db db' := by
  obtain ⟨hattempts, hevents⟩ := exec_log hk h
  rcases exec_moves hk h with hm | ⟨run, dag, hc⟩
  · obtain ⟨f, htasks, hf⟩ := hm.tasks
    obtain ⟨g, hruns, hg⟩ := hm.runs
    refine ⟨?_, ?_, .of_eq hm.dependencies, hattempts, hevents⟩
    · rw [hruns]
      exact .map (fun r hr => (hg r hr).id) fun r hr => (hg r hr).writes hr
    · rw [htasks]
      exact .map (fun t ht => (hf t ht).workflowRunId) fun t ht => (hf t ht).writes ht
  · obtain ⟨_, _, _, _, _, _, rfl⟩ := hc.isCreate
    refine ⟨?_, ?_, ?_, hattempts, hevents⟩
    · rw [hc.runs]
      exact .append fun r hr => List.mem_singleton.1 hr ▸ hc.id
    · rw [hc.tasks]
      refine .append fun t ht => ?_
      obtain ⟨entry, -, rfl⟩ := List.mem_map.1 ht
      exact hc.id
    · rw [hc.dependencies]
      refine .append fun d hd => ?_
      obtain ⟨entry, -, dep, -, rfl⟩ := mem_newDependencies.1 hd
      exact hc.id

/-- The runs a call writes are there, or it writes nothing. -/
theorem exec_run_of_writes (hw : db.WellFormed) {reply : Reply}
    (h : op.exec env db = .ok (reply, db')) {runId : ℕ} (hX : op.writes env db runId) :
    (∃ r ∈ db'.workflowRuns, r.id = runId) ∨ db' = db := by
  have hkept : (∃ r ∈ db.workflowRuns, r.id = runId) → ∃ r ∈ db'.workflowRuns, r.id = runId := by
    rintro ⟨r, hr, rfl⟩
    obtain ⟨r', hr', hid, -⟩ := exec_run_mem hw.toKeyed h hr
    exact ⟨r', hr', hid⟩
  have howned : ∀ {A}, db.ownsRun A runId = true → ∃ r ∈ db.workflowRuns, r.id = runId :=
    fun hown => (Db.ownsRun_iff.1 hown).imp fun r hr => ⟨hr.1, hr.2.1⟩
  cases op with
  | createWorkflow | createVersion => exact hX.elim
  | createRun =>
    simp only [Op.exec, map_eq_ok, Prod.mk.injEq] at h
    obtain ⟨⟨r, _⟩, hop, -, rfl⟩ := h
    rcases createRun_ok hop with ⟨rfl, -, -⟩ | ⟨d, -, uri, -, hins⟩
    · exact Or.inr rfl
    · obtain ⟨-, -, artifacts, rfl⟩ := insertRun_ok hins
      exact Or.inl ⟨_, List.mem_append_right _ (List.mem_singleton_self _), hX.symm⟩
  | promoteRetries | recoverExpired | dispatchReady =>
    obtain ⟨t, ht, rfl⟩ := hX
    exact Or.inl (hkept (hw.runOf t ht))
  | leaseTask | startTask | heartbeatTask | completeTask | failTask =>
    obtain ⟨t, ht, -, rfl⟩ := hX
    exact Or.inl (hkept (hw.runOf t ht))
  | cancelRun | retryRun | replayDead => exact Or.inl (hkept (howned hX.2))

/-- A call keeps the references. -/
theorem exec_linked (hl : db.Linked) (hf : db.Fresh env) {reply : Reply}
    (h : op.exec env db = .ok (reply, db')) : db'.Linked where
  toWellFormed := exec_wellFormed hl.toWellFormed hf h
  attempt a ha := by
    obtain ⟨f, new, hattempts⟩ := exec_attempts hl.toKeyed h
    rw [hattempts.eq, List.mem_append, List.mem_map] at ha
    have hold : ∃ t ∈ db.taskRuns, t.id = a.taskRunId := by
      rcases ha with ⟨b, hb, rfl⟩ | ha
      · rw [(hattempts.key b).1]
        exact hl.attempt b hb
      · obtain ⟨t, ht, w, d, -, -, rfl⟩ := hattempts.added a ha
        exact ⟨t, ht, rfl⟩
    obtain ⟨t, ht, hid⟩ := hold
    obtain ⟨t', ht', hid', -⟩ := exec_task_mem hl.toKeyed h ht
    exact ⟨t', ht', hid'.trans hid⟩
  event e he := by
    rcases (exec_writes hl.toKeyed h).events.of_mem he with ⟨e₀, he₀, hkey⟩ | hwritten
    · obtain ⟨r, hr, hid⟩ := hl.event e₀ he₀
      obtain ⟨r', hr', hid', -⟩ := exec_run_mem hl.toKeyed h hr
      exact ⟨r', hr', hid'.trans (hid.trans hkey)⟩
    · rcases exec_run_of_writes hl.toWellFormed h hwritten with hrun | rfl
      · exact hrun
      · exact hl.event e he
  about e he := by
    obtain ⟨new, heq, -, hnew⟩ := exec_events hl.toKeyed h
    refine exec_eventOf hl.toKeyed h ?_
    rcases List.mem_append.1 (heq ▸ he) with he | he
    · exact hl.about e he
    · obtain ⟨runId, hrun, habout⟩ := (hnew e he).about
      rwa [OutboxEvent.orderingKey, hrun, Option.getD_some]
  apart := by
    rcases exec_moves hl.toKeyed h with hm | ⟨run, dag, hc⟩
    · exact hm.apart hl.apart
    · exact hc.apart hf hl.apart
  artifacts := by
    obtain ⟨f, heq, hf⟩ := exec_artifacts h
    have hids : db'.artifacts.map Artifact.id = db.artifacts.map Artifact.id := by
      rw [heq, List.map_map]
      exact List.map_congr_left fun a _ => by rw [Function.comp_apply, hf a]
    rw [hids]
    exact hl.artifacts

/-! ## Calls of a tenant -/

/-- The call is one of the tenant. -/
def Op.For (db : Db) (A : ℕ) : Op → Prop
  | .createWorkflow tenantId .. | .createVersion tenantId .. | .createRun tenantId ..
  | .cancelRun tenantId .. | .retryRun tenantId .. | .replayDead tenantId .. => tenantId = A
  | .promoteRetries | .recoverExpired _ | .dispatchReady _ => False
  | .leaseTask id .. | .startTask id _ | .heartbeatTask id .. | .completeTask id ..
  | .failTask id .. => db.ownsTask A id = true

/-- A run has one tenant. -/
theorem Db.Keyed.ownsRun_ne (hk : db.Keyed) {runId : ℕ} (hA : db.ownsRun A runId = true)
    (hAB : B ≠ A) : db.ownsRun B runId = false := by
  rw [← Bool.not_eq_true]
  intro hB
  obtain ⟨r, hr, rfl, rfl⟩ := Db.ownsRun_iff.1 hA
  obtain ⟨s, hs, hid, rfl⟩ := Db.ownsRun_iff.1 hB
  exact hAB (congrArg Run.tenantId (Table.eq_of_key hk.runs hs hr hid))

/-- The task of an id, in a run of the tenant. -/
theorem Db.Keyed.ownsRun_of_ownsTask (hk : db.Keyed) {t : TaskRun} (ht : t ∈ db.taskRuns)
    (hown : db.ownsTask A t.id = true) : db.ownsRun A t.workflowRunId = true := by
  obtain ⟨s, hs, hid, hrun⟩ := Db.ownsTask_iff.1 hown
  rwa [Table.eq_of_key hk.tasks hs ht hid] at hrun

/-- A call of a tenant writes its runs, or a new one. -/
theorem Op.For.writes (hfor : op.For db A) (hk : db.Keyed) {runId : ℕ}
    (hX : op.writes env db runId) : db.ownsRun A runId = true ∨ runId = env.uuid 0 := by
  cases op with
  | createWorkflow | createVersion => exact hX.elim
  | createRun => exact Or.inr hX
  | promoteRetries | recoverExpired | dispatchReady => exact hfor.elim
  | leaseTask | startTask | heartbeatTask | completeTask | failTask =>
    obtain ⟨t, ht, rfl, rfl⟩ := hX
    exact Or.inl (hk.ownsRun_of_ownsTask ht hfor)
  | cancelRun | retryRun | replayDead =>
    obtain rfl := hfor
    exact Or.inl hX.2

/-- The input artifact of a run. -/
theorem selectInputArtifact_ok {id : ℕ} {uri : String}
    (h : selectInputArtifact A (some id) db = .ok uri) : ∃ a ∈ db.artifacts, a.id = id ∧
      a.tenantId = A ∧ a.kind = .input ∧ a.status = .ready ∧ a.objectUri = uri := by
  simp only [selectInputArtifact, orError_eq_ok, Option.map_eq_some_iff] at h
  obtain ⟨a, ha, rfl⟩ := h
  have hp := List.find?_some ha
  simp only [decide_eq_true_eq] at hp
  obtain ⟨hid, htenant, hkind, hstatus⟩ := hp
  exact ⟨a, List.mem_of_find?_eq_some ha, hid, htenant, hkind, hstatus, rfl⟩

/-- The artifact that is attached is one of the tenant. -/
theorem tenantId_of_selectInputArtifact (hids : (db.artifacts.map Artifact.id).Nodup)
    {artifactId : Option ℕ} {uri : String} (h : selectInputArtifact A artifactId db = .ok uri)
    {a : Artifact} (ha : a ∈ db.artifacts) (hid : artifactId = some a.id) : a.tenantId = A := by
  obtain rfl := hid
  obtain ⟨b, hb, hbid, htenant, -⟩ := selectInputArtifact_ok h
  rwa [← Table.eq_of_key hids hb ha hbid]

/-- The rows with a tenant that are written are those of `A`. -/
structure OwnRows (A : ℕ) (db db' : Db) : Prop where
  definitions : Table.Confined (· = A) Definition.tenantId db.workflowDefinitions
    db'.workflowDefinitions
  runs : Table.Confined (· = A) Run.tenantId db.workflowRuns db'.workflowRuns
  artifacts : Table.Confined (· = A) Artifact.tenantId db.artifacts db'.artifacts
  audits : Table.Confined (· = A) AuditEvent.tenantId db.auditEvents db'.auditEvents

theorem Moves.runs_confined (h : Moves env op db db') (hw : db.WellFormed) (hf : db.Fresh env)
    (hfor : op.For db A) :
    Table.Confined (· = A) Run.tenantId db.workflowRuns db'.workflowRuns := by
  obtain ⟨f, hruns, hmove⟩ := h.runs
  rw [hruns]
  refine .map (fun r hr => (hmove r hr).tenantId) fun r hr => ?_
  refine ((hmove r hr).writes hr).imp_right fun hX => ?_
  rcases hfor.writes hw.toKeyed hX with hown | hnew
  · exact ((hw.closed A).run r hr).1 hown
  · exact absurd hnew (hf.run_ne hr 0)

theorem createRun_ownRows (hl : db.Linked) {user artifact : Option ℕ} {definitionId : ℕ}
    {key input : String} {r : Run × Bool}
    (h : createRun env A user definitionId key input artifact db = .ok (r, db')) :
    OwnRows A db db' := by
  simp only [createRun, bind_eq_ok, orError_eq_ok, require_eq_ok] at h
  obtain ⟨-, -, uri, huri, d, -, h⟩ := h
  split at h
  · cases h
    exact ⟨.refl _ _ _, .refl _ _ _, .refl _ _ _, .refl _ _ _⟩
  · simp only [insertRun, bind_eq_ok] at h
    obtain ⟨_, ⟨artifacts, hattach, -, -, -, -, h'⟩, h⟩ := h
    cases h'
    cases h
    refine ⟨.refl _ _ _, .append (by simp [newRun]), ?_, .append (by simp [newAuditEvent, newRun])⟩
    cases artifact with
    | none =>
      cases hattach
      exact .refl _ _ _
    | some id =>
      simp only [attachInputArtifact] at hattach
      split_ifs at hattach
      cases hattach
      refine .update (fun _ => rfl) fun a ha hp => ?_
      exact tenantId_of_selectInputArtifact hl.artifacts huri ha
        (congrArg some (of_decide_eq_true hp).1.symm)

/-- A call of a tenant writes its own rows. -/
theorem exec_ownRows (hl : db.Linked) (hf : db.Fresh env) (hfor : op.For db A) {reply : Reply}
    (h : op.exec env db = .ok (reply, db')) : OwnRows A db db' := by
  have hruns := fun hm : Moves env op db db' => hm.runs_confined hl.toWellFormed hf hfor
  have hk := hl.toKeyed
  cases op <;> simp only [Op.exec, map_eq_ok, Prod.mk.injEq, Except.ok.injEq] at h
  case createWorkflow =>
    obtain ⟨⟨d, _⟩, hop, -, rfl⟩ := h
    obtain rfl := hfor
    simp only [createWorkflow, bind_eq_ok] at hop
    obtain ⟨-, -, -, -, -, -, hop⟩ := hop
    cases hop
    exact ⟨.append (by simp), .refl _ _ _, .refl _ _ _, .append (by simp [newAuditEvent])⟩
  case createVersion =>
    obtain ⟨_, hop, -⟩ := h
    exact absurd hop createVersion_ne_ok
  case createRun =>
    obtain ⟨⟨r, _⟩, hop, -, rfl⟩ := h
    obtain rfl := hfor
    exact createRun_ownRows hl hop
  case promoteRetries | recoverExpired | dispatchReady => exact hfor.elim
  case leaseTask =>
    obtain ⟨⟨⟨t', uri⟩, _⟩, hop, -, rfl⟩ := h
    obtain ⟨t, ht, rfl, hst, rfl, -, rfl⟩ := leaseTask_ok hk hop
    exact ⟨.refl _ _ _, .refl _ _ _, .refl _ _ _, .refl _ _ _⟩
  case startTask =>
    obtain ⟨⟨t', _⟩, hop, -, rfl⟩ := h
    obtain ⟨t, r, -, rfl, -, -, -, rfl⟩ := startTask_ok hk hop
    exact ⟨.refl _ _ _, .refl _ _ _, .refl _ _ _, .refl _ _ _⟩
  case heartbeatTask =>
    obtain ⟨⟨b, _⟩, hop, -, rfl⟩ := h
    obtain ⟨t, r, -, rfl, -, -, rfl⟩ := heartbeatTask_ok hk hop
    exact ⟨.refl _ _ _, .refl _ _ _, .refl _ _ _, .refl _ _ _⟩
  case completeTask =>
    obtain ⟨⟨t', _⟩, hop, -, rfl⟩ := h
    have hruns := hruns (completeTask_moves hk hop)
    obtain ⟨t, r, -, -, -, -, o', -, rfl⟩ := completeTask_ok hk hop
    exact ⟨.refl _ _ _, hruns, .refl _ _ _, .refl _ _ _⟩
  case failTask =>
    obtain ⟨⟨t', _⟩, hop, -, rfl⟩ := h
    have hruns := hruns (failTask_moves hk hop)
    obtain ⟨t, r, -, -, -, -, rfl⟩ := failTask_ok hk hop
    exact ⟨.refl _ _ _, hruns, .refl _ _ _, .refl _ _ _⟩
  case cancelRun =>
    obtain ⟨_, hop, -, rfl⟩ := h
    have hruns := hruns (cancelRun_moves hop)
    obtain rfl := hfor
    rw [(cancelRun_ok hop).2] at hruns ⊢
    exact ⟨.refl _ _ _, hruns, .refl _ _ _, .append (by simp [newAuditEvent])⟩
  case retryRun =>
    obtain ⟨_, hop, -, rfl⟩ := h
    have hruns := hruns (retryRun_moves hk hop)
    obtain rfl := hfor
    rw [(retryRun_ok hop).2.2] at hruns ⊢
    exact ⟨.refl _ _ _, hruns, .refl _ _ _, .append (by simp [newAuditEvent])⟩
  case replayDead =>
    obtain ⟨_, hop, -, rfl⟩ := h
    have hruns := hruns (replayDead_moves hk hop)
    obtain rfl := hfor
    obtain ⟨t, -, r, -, -, -, -, -, rfl⟩ := replayDead_ok hop
    exact ⟨.refl _ _ _, hruns, .refl _ _ _, .append (by simp [newAuditEvent])⟩

/-! ## The other tenants -/

theorem Db.ownsRun_eq_any (db : Db) (A runId : ℕ) :
    db.ownsRun A runId = (db.workflowRuns.filter fun r => r.tenantId = A).any (·.id = runId) := by
  simp [Db.ownsRun, List.any_filter, Bool.and_comm]

theorem Db.ownsTask_eq_any (db : Db) (A taskId : ℕ) : db.ownsTask A taskId =
    (db.taskRuns.filter fun t => db.ownsRun A t.workflowRunId).any (·.id = taskId) := by
  simp [Db.ownsTask, List.any_filter, Bool.and_comm]

/-- A call of a tenant leaves the rows of the others alone. -/
theorem exec_view_ne (hl : db.Linked) (hf : db.Fresh env) (hfor : op.For db A) (hAB : B ≠ A)
    {reply : Reply} (h : op.exec env db = .ok (reply, db')) : db'.view B = db.view B := by
  have hrows := exec_ownRows hl hf hfor h
  have hwrites := exec_writes hl.toKeyed h
  have hforeign : ∀ runId, op.writes env db runId → db.ownsRun B runId = false := by
    intro runId hX
    rcases hfor.writes hl.toKeyed hX with hown | rfl
    · exact hl.toKeyed.ownsRun_ne hown hAB
    · simpa [Db.ownsRun] using fun r hr hid => absurd hid (hf.run_ne hr 0)
  have hruns := hrows.runs.filter_ne hAB
  have hownsRun : db'.ownsRun B = db.ownsRun B := by
    funext runId
    rw [Db.ownsRun_eq_any, Db.ownsRun_eq_any, hruns]
  have htasks := hwrites.tasks.filter_eq hforeign
  have hownsTask : db'.ownsTask B = db.ownsTask B := by
    funext taskId
    rw [Db.ownsTask_eq_any, Db.ownsTask_eq_any, hownsRun, htasks]
  have hattempts := hwrites.attempts.filter_eq (q := db.ownsTask B) (by
    rintro _ ⟨t, ht, rfl, hX⟩
    rw [(hl.closed B).task t ht]
    exact hforeign _ hX)
  simp only [Db.view, Db.only, hownsRun, hownsTask, Db.mk.injEq]
  exact ⟨hrows.definitions.filter_ne hAB, hruns, htasks,
    hwrites.dependencies.filter_eq hforeign, hattempts, hwrites.events.filter_eq hforeign,
    hrows.artifacts.filter_ne hAB, hrows.audits.filter_ne hAB⟩

/-! ## The rows of the tenant -/

theorem attachInputArtifact_filter {artifactId : Option ℕ} {runId : ℕ} {as : List Artifact}
    (h : ∀ a ∈ as, artifactId = some a.id → a.tenantId = A) :
    attachInputArtifact artifactId runId (as.filter fun a => a.tenantId = A) =
      (attachInputArtifact artifactId runId as).map (·.filter fun a => a.tenantId = A) := by
  cases artifactId with
  | none => rfl
  | some id =>
    have hcount : (as.filter fun a => a.tenantId = A).countP
        (fun a => a.id = id ∧ a.workflowRunId = none) =
        as.countP (fun a => a.id = id ∧ a.workflowRunId = none) :=
      Table.countP_filter_of fun a ha hp => decide_eq_true
        (h a ha (congrArg some (of_decide_eq_true hp).1.symm))
    simp only [attachInputArtifact, hcount]
    split_ifs
    · exact congrArg Except.ok (update_filter fun _ => rfl)
    · rfl

/-- A new run of the tenant. -/
theorem Creates.view {run : Run} {dag : DAG} (h : Creates env op db db' run dag)
    (hl : db.Linked) (hf : db.Fresh env) (hA : run.tenantId = A) :
    (db'.view A).taskRuns = (db.view A).taskRuns ++ dag.tasks.map (newTaskRun env run dag) ∧
    (db'.view A).taskDependencies =
      (db.view A).taskDependencies ++ newDependencies env run dag ∧
    (db'.view A).taskAttempts = (db.view A).taskAttempts ∧
    (db'.view A).outboxEvents = (db.view A).outboxEvents ++ [runCreatedEvent env run dag] := by
  have hnew : db'.ownsRun A run.id = true := by rw [h.ownsRun_new hf]; exact decide_eq_true hA
  have hold : ∀ runId, (∃ r ∈ db.workflowRuns, r.id = runId) →
      db'.ownsRun A runId = db.ownsRun A runId := by
    rintro _ ⟨r, hr, rfl⟩
    exact h.ownsRun_old hf hr
  refine ⟨?_, ?_, ?_, ?_⟩
  · have hkept : db.taskRuns.filter (fun t => db'.ownsRun A t.workflowRunId) =
        db.taskRuns.filter fun t => db.ownsRun A t.workflowRunId :=
      List.filter_congr fun t ht => hold _ (hl.runOf t ht)
    simp only [Db.view, Db.only, h.tasks, List.filter_append, hkept]
    refine congrArg _ (List.filter_eq_self.2 fun t ht => ?_)
    obtain ⟨entry, -, rfl⟩ := List.mem_map.1 ht
    exact hnew
  · have hkept : db.taskDependencies.filter (fun d => db'.ownsRun A d.workflowRunId) =
        db.taskDependencies.filter fun d => db.ownsRun A d.workflowRunId := by
      refine List.filter_congr fun d hd => hold _ ?_
      obtain ⟨⟨t, ht, -, hrun⟩, -⟩ := hl.edge d hd
      rw [← hrun]
      exact hl.runOf t ht
    simp only [Db.view, Db.only, h.dependencies, List.filter_append, hkept]
    refine congrArg _ (List.filter_eq_self.2 fun d hd => ?_)
    obtain ⟨entry, -, dep, -, rfl⟩ := mem_newDependencies.1 hd
    exact hnew
  · simp only [Db.view, Db.only, h.attempts]
    refine List.filter_congr fun a ha => ?_
    obtain ⟨t, ht, hid⟩ := hl.attempt a ha
    rw [← hid, h.ownsTask_old hf hl.toWellFormed ht]
  · have hkept : db.outboxEvents.filter (fun e => db'.ownsRun A e.orderingKey) =
        db.outboxEvents.filter fun e => db.ownsRun A e.orderingKey :=
      List.filter_congr fun e he => hold _ (hl.event e he)
    simp only [Db.view, Db.only, h.events, List.filter_append, hkept]
    refine congrArg _ (List.filter_eq_self.2 fun e he => ?_)
    rw [List.mem_singleton.1 he]
    exact hnew

theorem insertRun_view (hl : db.Linked) (hf : db.Fresh env) {d : Definition}
    (hd : d ∈ db.workflowDefinitions) {user artifact : Option ℕ} {key input uri : String}
    (hartifact : ∀ a ∈ db.artifacts, artifact = some a.id → a.tenantId = A) :
    insertRun env user artifact (newRun env A d key input uri) d.dag (db.view A) =
      (insertRun env user artifact (newRun env A d key input uri) d.dag db).map (Db.view A) := by
  have hattach : attachInputArtifact artifact (newRun env A d key input uri).id
      (db.view A).artifacts =
      (attachInputArtifact artifact (newRun env A d key input uri).id db.artifacts).map
        (·.filter fun a => a.tenantId = A) := attachInputArtifact_filter hartifact
  simp only [insertRun, hattach]
  refine map_bind_eq_map_bind fun artifacts _ => bind_eq_map_bind fun _ htasks =>
    bind_eq_map_bind fun _ hdeps => ?_
  have hcreates : Creates env (.createRun A user d.id key input artifact) db { db with
      workflowRuns := db.workflowRuns ++ [newRun env A d key input uri]
      taskRuns := db.taskRuns ++ d.dag.tasks.map
        (newTaskRun env (newRun env A d key input uri) d.dag)
      taskDependencies := db.taskDependencies ++
        newDependencies env (newRun env A d key input uri) d.dag
      outboxEvents := db.outboxEvents ++
        [runCreatedEvent env (newRun env A d key input uri) d.dag]
      artifacts := artifacts
      auditEvents := db.auditEvents ++ [newAuditEvent env A user "run.create" "workflow_run"
        (newRun env A d key input uri).id] } (newRun env A d key input uri) d.dag :=
    ⟨⟨_, _, _, _, _, _, rfl⟩, ⟨d, hd, rfl⟩, rfl, rfl, rfl,
      by simpa using require_eq_ok.1 htasks, require_eq_ok.1 hdeps, rfl, rfl, rfl, rfl, rfl, rfl⟩
  obtain ⟨htasks', hdeps', hattempts', hevents'⟩ := hcreates.view hl hf rfl
  refine congrArg Except.ok (eq_only rfl ?_ htasks'.symm hdeps'.symm hattempts'.symm
    hevents'.symm rfl ?_)
  · simp [Db.view, Db.only, newRun]
  · exact (filter_audit rfl _ _ _).symm

@[simp] theorem selectInputArtifact_view (artifactId : Option ℕ) :
    selectInputArtifact A artifactId (db.view A) = selectInputArtifact A artifactId db := by
  cases artifactId with
  | none => rfl
  | some id =>
    refine congrArg (fun o => orError _ (Option.map Artifact.objectUri o)) ?_
    exact Table.find?_filter_of fun a _ hp => decide_eq_true (of_decide_eq_true hp).2.1

theorem createRun_view (hl : db.Linked) (hf : db.Fresh env) {user artifact : Option ℕ}
    {definitionId : ℕ} {key input : String} :
    createRun env A user definitionId key input artifact (db.view A) =
      (createRun env A user definitionId key input artifact db).map
        fun r => (r.1, r.2.view A) := by
  have hdef : (db.view A).workflowDefinitions.find?
      (fun d => d.id = definitionId ∧ d.tenantId = A) = db.workflowDefinitions.find?
        (fun d => d.id = definitionId ∧ d.tenantId = A) :=
    Table.find?_filter_of fun d _ hp => decide_eq_true (of_decide_eq_true hp).2
  have hrun : (db.view A).workflowRuns.find?
      (fun r => r.tenantId = A ∧ r.idempotencyKey = key) = db.workflowRuns.find?
        (fun r => r.tenantId = A ∧ r.idempotencyKey = key) :=
    Table.find?_filter_of fun r _ hp => decide_eq_true (of_decide_eq_true hp).1
  simp only [createRun, selectInputArtifact_view, hdef, hrun]
  refine bind_eq_map_bind fun _ _ => bind_eq_map_bind fun uri huri =>
    bind_eq_map_bind fun d hd => ?_
  split
  · rfl
  · rw [insertRun_view hl hf (List.mem_of_find?_eq_some (orError_eq_ok.1 hd)) fun a ha hid =>
      tenantId_of_selectInputArtifact hl.artifacts huri ha hid]
    cases insertRun env user artifact (newRun env A d key input uri) d.dag db <;> rfl

/-- A call of a tenant does in the rows of the tenant what it does in the database. -/
theorem exec_view (hl : db.Linked) (hf : db.Fresh env) (hfor : op.For db A) :
    op.exec env (db.view A) = (op.exec env db).map fun r => (r.1, r.2.view A) := by
  have hc := hl.closed A
  have howned : ∀ {id : ℕ}, db.ownsTask A id = true →
      ∀ t ∈ db.taskRuns, t.id = id → db.ownsRun A t.workflowRunId = true := by
    rintro _ hown t ht rfl
    exact hl.toKeyed.ownsRun_of_ownsTask ht hown
  -- a call that adds no run leaves the runs and the tasks of the tenant its own
  have hmoves : (∀ tenantId user definitionId key input artifact,
      op ≠ .createRun tenantId user definitionId key input artifact) →
      op.exec env (db.view A) = (op.exec env db).map
        (fun r => (r.1, r.2.only A (db.ownsRun A) (db.ownsTask A))) →
      op.exec env (db.view A) = (op.exec env db).map fun r => (r.1, r.2.view A) := by
    intro hne heq
    rw [heq]
    cases hr : op.exec env db with
    | error e => rfl
    | ok r =>
      rcases exec_moves hl.toKeyed hr with hm | ⟨run, dag, hcreate⟩
      · refine congrArg Except.ok (congrArg (Prod.mk r.1) ?_)
        rw [Db.view, hm.ownsRun, hm.ownsTask]
      · obtain ⟨_, _, _, _, _, _, heq⟩ := hcreate.isCreate
        exact absurd heq (hne _ _ _ _ _ _)
  cases op with
  | createRun =>
    obtain rfl := hfor
    simp only [Op.exec, createRun_view hl hf, map_map]
  | promoteRetries | recoverExpired | dispatchReady => exact hfor.elim
  | createWorkflow =>
    obtain rfl := hfor
    exact hmoves (by simp) (by simp only [Op.exec, Db.view, createWorkflow_only, map_map])
  | createVersion =>
    obtain rfl := hfor
    exact hmoves (by simp) (by simp only [Op.exec, Db.view, createVersion_only, map_map])
  | leaseTask =>
    refine hmoves (by simp) ?_
    simp only [Op.exec, Db.view, leaseTask_only hc (howned hfor), map_map]
  | startTask =>
    refine hmoves (by simp) ?_
    simp only [Op.exec, Db.view, startTask_only hc (howned hfor), map_map]
  | heartbeatTask =>
    refine hmoves (by simp) ?_
    simp only [Op.exec, Db.view, heartbeatTask_only hc (howned hfor), map_map]
  | completeTask =>
    refine hmoves (by simp) ?_
    simp only [Op.exec, Db.view, completeTask_only hc (howned hfor), map_map]
  | failTask =>
    refine hmoves (by simp) ?_
    simp only [Op.exec, Db.view, failTask_only hc (howned hfor), map_map]
  | cancelRun =>
    obtain rfl := hfor
    exact hmoves (by simp) (by simp only [Op.exec, Db.view, cancelRun_only, map_map])
  | retryRun =>
    obtain rfl := hfor
    exact hmoves (by simp) (by simp only [Op.exec, Db.view, retryRun_only hc, map_map])
  | replayDead =>
    obtain rfl := hfor
    exact hmoves (by simp) (by simp only [Op.exec, Db.view, replayDead_only hc, map_map])

end RunMesh
