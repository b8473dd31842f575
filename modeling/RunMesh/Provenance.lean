import RunMesh.Budget
import RunMesh.Events
import RunMesh.Termination

/-!
# Where a run comes from

A definition is never changed. `CreateVersion` is to insert a row for the next version, though none
is committed (`createVersion_ne_ok`), and a run keeps the id of the row it was created from. So what
a run does is fixed when it is created : its tasks,
what each of them calls and with which input, the dependencies between them, and how often each of
them may fail (`Db.RunsAs`). A retry or a replay can only raise the last.

Who did that is in the audit log. `CreateRun`, `CancelRun`, `RetryRun` and `ReplayDead` insert their
audit row in the transaction that does the work, so the log holds the history of each run as far as
users made it (`Account`). The attempts of a task are the delicate part. They are not bounded by its
own limit, because a replay rebuilds cancelled tasks without raising theirs. But the attempts that
are counted and the leases that are left together (`TaskRun.allowance`) grow by one at most, and
only with a retry of the run or a replay of one of its tasks.
-/

namespace RunMesh

open Fallible

variable {env : Env} {op : Op} {db db' : Db} {r r' : Run} {d : Definition} {run : Run} {dag : DAG}

/-! ## A run and its definition -/

/-- The task does what its entry in the definition says, with the input of the run. -/
structure TaskRun.Performs (t : TaskRun) (input : String) (spec : TaskSpec) : Prop where
  handler : t.handler = (withDefaults spec).handler
  priority : t.priority = (withDefaults spec).priority
  timeoutSeconds : t.timeoutSeconds = (withDefaults spec).timeoutSeconds.toNat
  input : t.input = input
  limit : (withDefaults spec).maximumAttempts.toNat ≤ t.maximumAttempts

/-- The run is one of the definition : it has one task for each entry, in any order, as Go iterates
over the map, and between them the dependencies of the definition and no others. -/
structure Db.RunsAs (db : Db) (r : Run) (d : Definition) : Prop where
  id : r.workflowDefinitionId = d.id
  version : r.workflowVersion = d.version
  tenantId : r.tenantId = d.tenantId
  keys : ((db.tasksOf r.id).map TaskRun.taskKey).Perm d.dag.keys
  performs : ∀ t ∈ db.tasksOf r.id, ∀ spec, (t.taskKey, spec) ∈ d.dag.tasks →
    t.Performs r.input spec
  edges : ∀ t ∈ db.tasksOf r.id, ∀ u ∈ db.tasksOf r.id,
    db.DependsOn u.id t.id ↔ d.dag.DependsOn u.taskKey t.taskKey

/-- An entry of a map is determined by its key. -/
theorem DAG.spec_unique (dag : DAG) {key : String} {spec spec' : TaskSpec}
    (h : (key, spec) ∈ dag.tasks) (h' : (key, spec') ∈ dag.tasks) : spec' = spec := by
  have heq : (key, spec') = (key, spec) := List.inj_on_of_nodup_map dag.nodup h' h rfl
  exact (Prod.mk.inj heq).2

theorem TaskMove.performs {t t' : TaskRun} (h : TaskMove env db op t t') {input : String}
    {spec : TaskSpec} (ht : t.Performs input spec) : t'.Performs input spec where
  handler := h.handler.trans ht.handler
  priority := by
    have hkept : t'.priority = t.priority := by cases h <;> rfl
    exact hkept.trans ht.priority
  timeoutSeconds := by
    have hkept : t'.timeoutSeconds = t.timeoutSeconds := by cases h <;> rfl
    exact hkept.trans ht.timeoutSeconds
  input := h.input.trans ht.input
  limit := by
    have hkept : t.maximumAttempts ≤ t'.maximumAttempts := by
      cases h with
      | retry => exact le_max_left _ _
      | replay => exact le_max_left _ _
      | _ => exact le_rfl
    exact ht.limit.trans hkept

theorem RunMove.definition (h : RunMove env db op r r') :
    r'.workflowDefinitionId = r.workflowDefinitionId ∧ r'.workflowVersion = r.workflowVersion := by
  cases h <;> exact ⟨rfl, rfl⟩

/-- What moves the rows keeps the run one of its definition. -/
theorem Db.RunsAs.moves (h : db.RunsAs r d) (hm : Moves env op db db')
    (hr : RunMove env db op r r') : db'.RunsAs r' d := by
  obtain ⟨f, hf, hmove⟩ := hm.tasksOf r.id
  have hdep : db'.DependsOn = db.DependsOn := by
    unfold Db.DependsOn
    rw [hm.dependencies]
  refine ⟨hr.definition.1.trans h.id, hr.definition.2.trans h.version, hr.tenantId.trans h.tenantId,
    ?_, ?_, ?_⟩
  · rw [hr.id, hf, List.map_map]
    exact (List.Perm.of_eq (List.map_congr_left fun t ht => (hmove t ht).taskKey)).trans h.keys
  · rw [hr.id, hf, hr.input]
    intro t' ht' spec hspec
    obtain ⟨t, ht, rfl⟩ := List.mem_map.1 ht'
    rw [(hmove t ht).taskKey] at hspec
    exact (hmove t ht).performs (h.performs t ht spec hspec)
  · rw [hr.id, hf, hdep]
    intro t' ht' u' hu'
    obtain ⟨t, ht, rfl⟩ := List.mem_map.1 ht'
    obtain ⟨u, hu, rfl⟩ := List.mem_map.1 hu'
    rw [(hmove t ht).id, (hmove t ht).taskKey, (hmove u hu).id, (hmove u hu).taskKey]
    exact h.edges t ht u hu

/-- So does a new run. -/
theorem Db.RunsAs.creates (h : db.RunsAs r d) (hc : Creates env op db db' run dag)
    (hf : db.Fresh env) (hr : r ∈ db.workflowRuns) : db'.RunsAs r d := by
  have hne : run.id ≠ r.id := fun heq => hf.run_ne hr 0 (heq.symm.trans hc.id)
  refine ⟨h.id, h.version, h.tenantId, ?_, ?_, ?_⟩ <;> rw [hc.tasksOf hne]
  · exact h.keys
  · exact h.performs
  · intro t ht u hu
    rw [hc.dependsOn_old hf (Db.mem_tasksOf.1 ht).1]
    exact h.edges t ht u hu

/-- The tasks of a new run. -/
theorem Creates.tasksOf_new (hc : Creates env op db db' run dag) (hf : db.Fresh env)
    (hw : db.WellFormed) : db'.tasksOf run.id = dag.tasks.map (newTaskRun env run dag) := by
  have hold : db.taskRuns.filter (fun t => t.workflowRunId = run.id) = [] := by
    rw [List.filter_eq_nil_iff]
    intro t ht hid
    obtain ⟨q, hq, hqid⟩ := hw.runOf t ht
    exact hf.run_ne hq 0 (hqid.trans ((of_decide_eq_true hid).trans hc.id))
  have hnew : (dag.tasks.map (newTaskRun env run dag)).filter
      (fun t => t.workflowRunId = run.id) = dag.tasks.map (newTaskRun env run dag) := by
    rw [List.filter_eq_self]
    intro t ht
    obtain ⟨entry, -, rfl⟩ := List.mem_map.1 ht
    exact decide_eq_true rfl
  rw [Db.tasksOf, hc.tasks, List.filter_append, hold, hnew, List.nil_append]

/-- The dependencies between the tasks of a new run are those of its definition. -/
theorem Creates.dependsOn_new_iff (hc : Creates env op db db' run dag) (hf : db.Fresh env)
    (hw : db.WellFormed) {entry entry' : String × TaskSpec} (he : entry ∈ dag.tasks)
    (he' : entry' ∈ dag.tasks) :
    db'.DependsOn (taskId env dag entry'.1) (taskId env dag entry.1) ↔
      dag.DependsOn entry'.1 entry.1 := by
  constructor
  · intro h
    obtain ⟨dep, hdep, -, hid⟩ := hc.dependsOn_new hf hw (List.mem_map_of_mem he) h
    rwa [taskId_injective hf (List.mem_map_of_mem he') hid]
  · intro h
    rw [DAG.DependsOn, dag.dependsOn_of_mem he] at h
    refine ⟨⟨run.id, taskId env dag entry.1, taskId env dag entry'.1⟩, ?_, rfl, rfl⟩
    rw [hc.dependencies]
    exact List.mem_append_right _ (mem_newDependencies.2 ⟨entry, he, entry'.1, h, rfl⟩)

/-- A new run is one of the definition it was created from. -/
theorem Creates.runsAs (hc : Creates env op db db' run d.dag) (hf : db.Fresh env)
    (hw : db.WellFormed) (hid : run.workflowDefinitionId = d.id)
    (hversion : run.workflowVersion = d.version) (htenant : run.tenantId = d.tenantId) :
    db'.RunsAs run d := by
  refine ⟨hid, hversion, htenant, ?_, ?_, ?_⟩ <;> rw [hc.tasksOf_new hf hw]
  · rw [List.map_map, DAG.keys]
    rfl
  · intro t ht spec hspec
    obtain ⟨entry, he, rfl⟩ := List.mem_map.1 ht
    obtain rfl := d.dag.spec_unique he hspec
    exact ⟨rfl, rfl, rfl, rfl, le_rfl⟩
  · intro t ht u hu
    obtain ⟨entry, he, rfl⟩ := List.mem_map.1 ht
    obtain ⟨entry', he', rfl⟩ := List.mem_map.1 hu
    exact hc.dependsOn_new_iff hf hw he he'

/-- The call creates a run, unless it finds it. -/
def Op.createsRun : Op → Bool
  | .createRun .. => true
  | _ => false

/-- A successful call finds a run, or moves the rows there are, or adds a run of a definition of the
tenant. -/
theorem exec_runsAs (hk : db.Keyed) {reply : Reply} (h : op.exec env db = .ok (reply, db')) :
    db' = db ∨ Moves env op db db' ∧ op.createsRun = false ∨
      ∃ d ∈ db.workflowDefinitions, ∃ run, Creates env op db db' run d.dag ∧
        run.workflowDefinitionId = d.id ∧ run.workflowVersion = d.version ∧
        run.tenantId = d.tenantId ∧ ∃ user definitionId key input artifact,
          op = .createRun run.tenantId user definitionId key input artifact := by
  cases hop : op.createsRun with
  | false =>
    refine Or.inr (Or.inl ⟨(exec_moves hk h).resolve_right ?_, rfl⟩)
    rintro ⟨run, dag, hc⟩
    obtain ⟨_, _, _, _, _, _, rfl⟩ := hc.isCreate
    cases hop
  | true =>
    cases op <;> simp only [Op.createsRun, Bool.false_eq_true] at hop
    simp only [Op.exec, map_eq_ok, Prod.mk.injEq] at h
    obtain ⟨⟨r, _⟩, hok, rfl, rfl⟩ := h
    simp only [createRun, bind_eq_ok, orError_eq_ok, require_eq_ok] at hok
    obtain ⟨-, -, uri, -, d, hd, hok⟩ := hok
    have htenant := List.find?_some hd
    simp only [decide_eq_true_eq] at htenant
    split at hok
    · cases hok
      exact Or.inl rfl
    · simp only [bind_eq_ok] at hok
      obtain ⟨db₁, hins, hok⟩ := hok
      cases hok
      obtain ⟨htasks, hdeps, artifacts, rfl⟩ := insertRun_ok hins
      have hmem := List.mem_of_find?_eq_some hd
      exact Or.inr (Or.inr ⟨d, hmem, _, ⟨⟨_, _, _, _, _, _, rfl⟩, ⟨d, hmem, rfl⟩, rfl, rfl, rfl,
        htasks, hdeps, rfl, rfl, rfl, rfl, rfl, rfl⟩, rfl, rfl, htenant.2.symm, _, _, _, _, _, rfl⟩)

/-! ## The audit log -/

namespace AuditEvent

/-- The row says that this was done to the resource. -/
def records (action resourceType : String) (resourceId : ℕ) (a : AuditEvent) : Bool :=
  a.action = action ∧ a.resourceType = resourceType ∧ a.resourceId = resourceId

/-- The run was created. -/
def creates (runId : ℕ) : AuditEvent → Bool :=
  records "run.create" "workflow_run" runId

/-- The run was cancelled. -/
def cancels (runId : ℕ) : AuditEvent → Bool :=
  records "run.cancel" "workflow_run" runId

/-- The run was retried. -/
def retries (runId : ℕ) : AuditEvent → Bool :=
  records "run.retry" "workflow_run" runId

/-- The task was replayed. -/
def replays (taskId : ℕ) : AuditEvent → Bool :=
  records "task.replay" "task_run" taskId

end AuditEvent

/-- The audit rows of an operation that does its work. -/
def Op.audits (env : Env) : Op → List AuditEvent
  | .createWorkflow tenantId userId _ _ =>
    [newAuditEvent env tenantId userId "workflow.create" "workflow" (env.uuid 0)]
  | .createRun tenantId userId _ _ _ _ =>
    [newAuditEvent env tenantId userId "run.create" "workflow_run" (env.uuid 0)]
  | .cancelRun tenantId userId id =>
    [newAuditEvent env tenantId userId "run.cancel" "workflow_run" id]
  | .retryRun tenantId userId id =>
    [newAuditEvent env tenantId userId "run.retry" "workflow_run" id]
  | .replayDead tenantId userId taskId =>
    [newAuditEvent env tenantId userId "task.replay" "task_run" taskId]
  | _ => []

/-- The audit log is appended to, and the rows of a call say what it did. A run that a repeated
`CreateRun` finds has its row already. -/
theorem exec_audits (hk : db.Keyed) {reply : Reply} (h : op.exec env db = .ok (reply, db')) :
    db' = db ∨ db'.auditEvents = db.auditEvents ++ op.audits env := by
  cases op <;> simp only [Op.exec, map_eq_ok, Prod.mk.injEq, Except.ok.injEq] at h
  case createWorkflow =>
    obtain ⟨⟨d, _⟩, hok, rfl, rfl⟩ := h
    simp only [createWorkflow, bind_eq_ok, require_eq_ok, mapError_eq_ok] at hok
    obtain ⟨⟨⟩, -, -, -, -, -, hok⟩ := hok
    cases hok
    exact Or.inr rfl
  case createVersion =>
    obtain ⟨_, hop, -⟩ := h
    exact absurd hop createVersion_ne_ok
  case createRun =>
    obtain ⟨⟨r, _⟩, hok, rfl, rfl⟩ := h
    rcases createRun_ok hok with ⟨rfl, -, -⟩ | ⟨d, hd, uri, -, hins⟩
    · exact Or.inl rfl
    · obtain ⟨-, -, artifacts, rfl⟩ := insertRun_ok hins
      exact Or.inr rfl
  case promoteRetries =>
    obtain ⟨-, rfl⟩ := h
    exact Or.inr (List.append_nil _).symm
  case recoverExpired scan =>
    obtain ⟨-, rfl⟩ := h
    rw [recoverExpired_eq]
    exact Or.inr (List.append_nil _).symm
  case dispatchReady scan =>
    obtain ⟨-, rfl⟩ := h
    rw [dispatchReady_eq hk]
    exact Or.inr (List.append_nil _).symm
  case leaseTask =>
    obtain ⟨⟨⟨t', uri⟩, _⟩, hok, -, rfl⟩ := h
    obtain ⟨t, -, -, -, -, -, rfl⟩ := leaseTask_ok hk hok
    exact Or.inr (List.append_nil _).symm
  case startTask =>
    obtain ⟨⟨t', _⟩, hok, -, rfl⟩ := h
    obtain ⟨t, r, -, -, -, -, -, rfl⟩ := startTask_ok hk hok
    exact Or.inr (List.append_nil _).symm
  case heartbeatTask =>
    obtain ⟨⟨e, _⟩, hok, -, rfl⟩ := h
    obtain ⟨t, r, -, -, -, -, rfl⟩ := heartbeatTask_ok hk hok
    exact Or.inr (List.append_nil _).symm
  case completeTask =>
    obtain ⟨⟨t', _⟩, hok, -, rfl⟩ := h
    obtain ⟨t, r, -, -, -, -, o', -, rfl⟩ := completeTask_ok hk hok
    exact Or.inr (List.append_nil _).symm
  case failTask =>
    obtain ⟨⟨t', _⟩, hok, -, rfl⟩ := h
    obtain ⟨t, r, -, -, -, -, rfl⟩ := failTask_ok hk hok
    exact Or.inr (List.append_nil _).symm
  case cancelRun =>
    obtain ⟨db₁, hok, -, rfl⟩ := h
    rw [(cancelRun_ok hok).2]
    exact Or.inr rfl
  case retryRun =>
    obtain ⟨db₁, hok, -, rfl⟩ := h
    rw [(retryRun_ok hok).2.2]
    exact Or.inr rfl
  case replayDead =>
    obtain ⟨db₁, hok, -, rfl⟩ := h
    obtain ⟨t, -, r, -, -, -, -, -, rfl⟩ := replayDead_ok hok
    exact Or.inr rfl

/-- What the audit rows of an operation are about. -/
theorem Op.mem_audits {a : AuditEvent} (ha : a ∈ op.audits env) (id : ℕ) :
    (a.creates id = true → id = env.uuid 0) ∧
    (a.cancels id = true → ∃ user, op = .cancelRun a.tenantId user id) ∧
    (a.retries id = true → ∃ user, op = .retryRun a.tenantId user id) ∧
    (a.replays id = true → ∃ user, op = .replayDead a.tenantId user id) := by
  cases op <;> simp only [Op.audits, List.not_mem_nil, List.mem_singleton] at ha
  all_goals
    subst ha
    simp [AuditEvent.creates, AuditEvent.cancels, AuditEvent.retries, AuditEvent.replays,
      AuditEvent.records, newAuditEvent, eq_comm]

/-- The row says that the run was retried, or a task of it replayed. -/
def Db.revives (db : Db) (runId : ℕ) (a : AuditEvent) : Bool :=
  a.retries runId || ((db.tasksOf runId).map TaskRun.id).any fun id => a.replays id

/-- The row says that something was done to the run. -/
def Db.concerns (db : Db) (runId : ℕ) (a : AuditEvent) : Bool :=
  a.creates runId || a.cancels runId || db.revives runId a

/-- Whether the run is cancelled, from the log alone : it is from a cancellation to a retry. -/
def logCancelled (runId : ℕ) (log : List AuditEvent) : Bool :=
  log.foldl (fun c a => if a.cancels runId then true else if a.retries runId then false else c)
    false

/-- The attempts counted, and the leases left if nobody intervenes. -/
def TaskRun.allowance (t : TaskRun) : ℕ :=
  t.attemptCount + t.leasesLeft

/-- What the log says of a run of the definition. -/
structure Account (log : List AuditEvent) (db : Db) (r : Run) (d : Definition) : Prop where
  created : log.countP (AuditEvent.creates r.id) = 1
  tenantId : ∀ a ∈ log, db.concerns r.id a = true → a.tenantId = r.tenantId
  cancelled : r.status = .cancelled ↔ logCancelled r.id log = true
  allowance : ∀ t ∈ db.tasksOf r.id, ∀ spec, (t.taskKey, spec) ∈ d.dag.tasks →
    t.allowance ≤ (withDefaults spec).maximumAttempts.toNat + log.countP (db.revives r.id)

/-! ## One call -/

theorem logCancelled_append_of_forall {runId : ℕ} {log new : List AuditEvent}
    (h : ∀ a ∈ new, a.cancels runId = false ∧ a.retries runId = false) :
    logCancelled runId (log ++ new) = logCancelled runId log := by
  rw [logCancelled, List.foldl_append, ← logCancelled]
  generalize logCancelled runId log = c
  induction new with
  | nil => rfl
  | cons a new ih =>
    have ha := h a List.mem_cons_self
    rw [List.foldl_cons, ha.1, ha.2]
    exact ih fun b hb => h b (List.mem_cons_of_mem a hb)

/-- The rows of tasks that move are about the same runs. -/
theorem Moves.revives (hm : Moves env op db db') (runId : ℕ) :
    db'.revives runId = db.revives runId := by
  obtain ⟨f, hf, hmove⟩ := hm.tasksOf runId
  have hids : (db'.tasksOf runId).map TaskRun.id = (db.tasksOf runId).map TaskRun.id := by
    rw [hf, List.map_map]
    exact List.map_congr_left fun t ht => (hmove t ht).id
  funext a
  rw [Db.revives, hids, Db.revives]

theorem TaskRun.allowance_of_waiting {t : TaskRun} (h : t.status.waiting = true) :
    t.allowance = max t.maximumAttempts (t.attemptCount + 1) := by
  rw [allowance, leasesLeft, if_pos h]
  omega

theorem TaskRun.allowance_of_not_waiting {t : TaskRun} (h : t.status.waiting = false) :
    t.allowance = max t.maximumAttempts t.attemptCount := by
  rw [allowance, leasesLeft, if_neg (by rw [h]; exact Bool.false_ne_true)]
  omega

theorem TaskRun.le_allowance (t : TaskRun) :
    max t.maximumAttempts t.attemptCount ≤ t.allowance := by
  cases h : t.status.waiting with
  | true => rw [allowance_of_waiting h]; omega
  | false => rw [allowance_of_not_waiting h]

/-- A task with the same attempts and the same limit, of which the first waits or the second does
not, has no larger allowance. -/
theorem TaskRun.allowance_le {t t' : TaskRun} (hcount : t'.attemptCount = t.attemptCount)
    (hmax : t'.maximumAttempts = t.maximumAttempts)
    (hwait : t.status.waiting = true ∨ t'.status.waiting = false) : t'.allowance ≤ t.allowance := by
  rcases hwait with hwait | hwait
  · cases h : t'.status.waiting with
    | true => rw [allowance_of_waiting h, allowance_of_waiting hwait, hcount, hmax]
    | false => rw [allowance_of_not_waiting h, allowance_of_waiting hwait, hcount, hmax]; omega
  · rw [allowance_of_not_waiting hwait, hcount, hmax]
    exact t.le_allowance

/-- The end of a lease leaves no attempt that was not left before. -/
theorem TaskRun.allowance_endLease {t : TaskRun} {st : TaskStatus} {avail : ℤ}
    (hst : st = .cancelled ∨ st = .retryWait ∧ t.attemptCount < t.maximumAttempts ∨ st = .dead) :
    (endLease env st avail t).allowance ≤ t.allowance := by
  rcases hst with rfl | ⟨rfl, hlt⟩ | rfl
  · exact allowance_le rfl rfl (Or.inr rfl)
  · have hle := t.le_allowance
    have hretry : (endLease env .retryWait avail t).allowance =
        max t.maximumAttempts (t.attemptCount + 1) := allowance_of_waiting rfl
    omega
  · exact allowance_le rfl rfl (Or.inr rfl)

/-- A task that is revived, or rebuilt, has one attempt more at most. -/
theorem TaskRun.allowance_le_succ {t t' : TaskRun} (hcount : t'.attemptCount = t.attemptCount)
    (hmax : t'.maximumAttempts ≤ max t.maximumAttempts (t.attemptCount + 1)) :
    t'.allowance ≤ t.allowance + 1 := by
  have hle := t.le_allowance
  cases h : t'.status.waiting with
  | true => rw [allowance_of_waiting h]; omega
  | false => rw [allowance_of_not_waiting h]; omega

/-- A task gets an attempt more at most, and only if its run is reopened. -/
theorem TaskMove.allowance {t t' : TaskRun} (h : TaskMove env db op t t') (ht : t ∈ db.taskRuns) :
    t'.allowance ≤ t.allowance + (reopens t.workflowRunId db op).toNat := by
  have hkeep : ∀ {n}, t'.allowance ≤ t.allowance → t'.allowance ≤ t.allowance + n :=
    fun hle => hle.trans (Nat.le_add_right _ _)
  have hreopen : reopens t.workflowRunId db op = true → t'.allowance ≤ t.allowance + 1 →
      t'.allowance ≤ t.allowance + (reopens t.workflowRunId db op).toNat :=
    fun hop hle => by rwa [hop]
  cases h with
  | keep | renew => exact Nat.le_add_right _ _
  | promote hst => exact hkeep (TaskRun.allowance_le rfl rfl (Or.inl (by rw [hst]; rfl)))
  | @expire _ _ r h =>
    refine hkeep (TaskRun.allowance_endLease ?_)
    exact (expiryStatus_cases (t, r)).imp And.left (Or.imp (fun hc => ⟨hc.1, hc.2.2⟩) And.left)
  | dispatch h =>
    have hst : t.status = .ready := (mem_readyTasks h).2.2.2.1
    exact hkeep (TaskRun.allowance_le rfl rfl (Or.inl (by rw [hst]; rfl)))
  | lease hst =>
    -- the attempt it counts is one of those that were left
    rw [t.allowance_of_waiting (by rw [hst]; rfl), TaskRun.allowance_of_not_waiting rfl]
    exact Nat.le_add_right _ _
  | start | succeed | failSibling | cancel =>
    exact hkeep (TaskRun.allowance_le rfl rfl (Or.inr rfl))
  | wake _ _ _ hwake =>
    have hst : t.status = .blocked := hwake.2.1
    exact hkeep (TaskRun.allowance_le rfl rfl (Or.inl (by rw [hst]; rfl)))
  | @fail _ f _ r =>
    refine hkeep (TaskRun.allowance_endLease ?_)
    exact (reportStatus_cases f t r).imp And.left (Or.imp (fun hc => ⟨hc.1, hc.2.2.2⟩) And.left)
  | retry => exact hreopen (decide_eq_true rfl) (TaskRun.allowance_le_succ rfl le_rfl)
  | replay =>
    refine hreopen (List.any_eq_true.2 ⟨t, ht, by simp⟩) (TaskRun.allowance_le_succ rfl le_rfl)
  | @rebuild _ _ u _ _ _ _ _ hu _ hrun =>
    refine hreopen (List.any_eq_true.2 ⟨u, hu, by simp [hrun]⟩) ?_
    exact TaskRun.allowance_le_succ rfl (le_max_left _ _)

/-- The rows of a call say of no run there is that it was created. -/
theorem countP_creates_audits (hf : db.Fresh env) (hr : r ∈ db.workflowRuns) :
    (op.audits env).countP (AuditEvent.creates r.id) = 0 := by
  rw [List.countP_eq_zero]
  exact fun a ha hc => hf.run_ne hr 0 ((Op.mem_audits ha _).1 hc)

/-- The log has a row for each reopening of a run. -/
theorem countP_revives_audits (hop : reopens r.id db op = true) :
    1 ≤ (op.audits env).countP (db.revives r.id) := by
  rw [Nat.one_le_iff_ne_zero, ← Nat.pos_iff_ne_zero, List.countP_pos_iff]
  cases op <;> try exact absurd hop Bool.false_ne_true
  case retryRun tenantId userId id =>
    obtain rfl : id = r.id := of_decide_eq_true hop
    refine ⟨_, List.mem_singleton_self _, ?_⟩
    simp [Db.revives, AuditEvent.retries, AuditEvent.records, newAuditEvent]
  case replayDead tenantId userId taskId =>
    obtain ⟨t, ht, hid⟩ := List.any_eq_true.1 hop
    simp only [decide_eq_true_eq] at hid
    refine ⟨_, List.mem_singleton_self _, ?_⟩
    rw [Db.revives, Bool.or_eq_true]
    have hmem : t.id ∈ (db.tasksOf r.id).map TaskRun.id :=
      List.mem_map_of_mem (Db.mem_tasksOf.2 ⟨ht, hid.2⟩)
    refine Or.inr (List.any_eq_true.2 ⟨t.id, hmem, ?_⟩)
    simp [AuditEvent.replays, AuditEvent.records, newAuditEvent, hid.1]

/-- A move that neither cancels nor retries the run leaves it cancelled or not. -/
theorem RunMove.cancelled_iff (h : RunMove env db op r r')
    (hcancel : ∀ tenant user, op ≠ .cancelRun tenant user r.id)
    (hretry : ∀ tenant user, op ≠ .retryRun tenant user r.id) :
    r'.status = .cancelled ↔ r.status = .cancelled := by
  cases h with
  | keep => exact Iff.rfl
  | expire _ _ _ hrun => simp [hrun]
  | complete _ _ hrun => simp [hrun]
  | fail _ _ _ hrun => simp [hrun]
  | cancel => exact absurd rfl (hcancel _ _)
  | retry => exact absurd rfl (hretry _ _)
  | reopen _ _ _ _ hfailed => simp [hfailed]

section Step

variable {log : List AuditEvent} {reply : Reply} (hw : db.WellFormed) (hf : db.Fresh env)
  (h : op.exec env db = .ok (reply, db'))

include hw hf h

/-- The rows of a call are of the tenant of the run they are about. -/
theorem tenantId_of_concerns (hr : r ∈ db.workflowRuns) {a : AuditEvent} (ha : a ∈ op.audits env)
    (hc : db.concerns r.id a = true) : a.tenantId = r.tenantId := by
  obtain ⟨hcreate, hcancel, hretry, -⟩ := Op.mem_audits ha r.id
  simp only [Db.concerns, Db.revives, Bool.or_eq_true, List.any_eq_true] at hc
  rcases hc with (hc | hc) | hc | ⟨id, hid, hc⟩
  · exact absurd (hcreate hc) (hf.run_ne hr 0)
  · obtain ⟨user, rfl⟩ := hcancel hc
    obtain ⟨⟨q, hq, hqid, htenant, -⟩, -⟩ := cancelRun_ok (of_map_done h)
    rw [← htenant, Table.eq_of_key hw.runs hq hr hqid]
  · obtain ⟨user, rfl⟩ := hretry hc
    obtain ⟨⟨q, hq, hqid, htenant⟩, -⟩ := retryRun_ok (of_map_done h)
    rw [← htenant, Table.eq_of_key hw.runs hq hr hqid]
  · obtain ⟨t, ht, rfl⟩ := List.mem_map.1 hid
    obtain ⟨ht, htid⟩ := Db.mem_tasksOf.1 ht
    obtain ⟨user, rfl⟩ := (Op.mem_audits ha _).2.2.2 hc
    obtain ⟨u, hu, q, hq, huid, hqid, htenant, -⟩ := replayDead_ok (of_map_done h)
    obtain rfl := Table.eq_of_key hw.tasks hu ht huid
    rw [← htenant, Table.eq_of_key hw.runs hq hr (hqid.trans htid)]

omit hf in
/-- The log says of a run that it is cancelled if a call has left it so. -/
theorem cancelled_iff_logCancelled (hr : r ∈ db.workflowRuns) (hm : RunMove env db op r r')
    (hr' : r' ∈ db'.workflowRuns)
    (hlog : r.status = .cancelled ↔ logCancelled r.id log = true) :
    r'.status = .cancelled ↔ logCancelled r'.id (log ++ op.audits env) = true := by
  rw [hm.id]
  by_cases hcancel : ∃ tenant user, op = .cancelRun tenant user r.id
  · obtain ⟨tenant, user, rfl⟩ := hcancel
    obtain ⟨⟨q, hq, hqid, htenant, hopen⟩, rfl⟩ := cancelRun_ok (of_map_done h)
    obtain rfl := Table.eq_of_key hw.runs hq hr hqid
    have hst : r'.status = .cancelled := by
      obtain ⟨p, hp, rfl⟩ := Table.mem_update.1 hr'
      have hpid : p.id = q.id := by
        have hid := hm.id
        split_ifs at hid <;> exact hid
      obtain rfl := Table.eq_of_key hw.runs hp hq hpid
      rw [if_pos (decide_eq_true ⟨rfl, htenant, hopen⟩)]
    refine iff_of_true hst ?_
    rw [logCancelled, List.foldl_append]
    simp [Op.audits, newAuditEvent, AuditEvent.cancels, AuditEvent.records]
  by_cases hretry : ∃ tenant user, op = .retryRun tenant user r.id
  · obtain ⟨tenant, user, rfl⟩ := hretry
    have hst : r'.status = .running := retryRun_status (of_map_done h) hr' hm.id
    refine iff_of_false (by rw [hst]; decide) ?_
    rw [logCancelled, List.foldl_append]
    simp [Op.audits, newAuditEvent, AuditEvent.cancels, AuditEvent.retries, AuditEvent.records]
  rw [hm.cancelled_iff (fun tenant user hop => hcancel ⟨tenant, user, hop⟩)
    (fun tenant user hop => hretry ⟨tenant, user, hop⟩), hlog, logCancelled_append_of_forall]
  intro a ha
  obtain ⟨-, hc, ht, -⟩ := Op.mem_audits ha r.id
  refine ⟨Bool.eq_false_iff.2 fun hac => ?_, Bool.eq_false_iff.2 fun hat => ?_⟩
  · exact hcancel ⟨_, hc hac⟩
  · exact hretry ⟨_, ht hat⟩

/-- The account of a run stays right when its rows move. -/
theorem Account.moves (hacc : Account log db r d) (hm : Moves env op db db')
    (hr : r ∈ db.workflowRuns) (hmove : RunMove env db op r r') (hr' : r' ∈ db'.workflowRuns) :
    Account (log ++ op.audits env) db' r' d where
  created := by
    rw [hmove.id, List.countP_append, countP_creates_audits hf hr, hacc.created]
  tenantId a ha hc := by
    rw [hmove.id, Db.concerns, hm.revives, ← Db.concerns] at hc
    rw [hmove.tenantId]
    rcases List.mem_append.1 ha with ha | ha
    · exact hacc.tenantId a ha hc
    · exact tenantId_of_concerns hw hf h hr ha hc
  cancelled := cancelled_iff_logCancelled hw h hr hmove hr' hacc.cancelled
  allowance := by
    obtain ⟨f, htasks, htask⟩ := hm.tasksOf r.id
    rw [hmove.id, htasks, hm.revives, List.countP_append]
    intro t' ht' spec hspec
    obtain ⟨t, ht, rfl⟩ := List.mem_map.1 ht'
    rw [(htask t ht).taskKey] at hspec
    have hold := hacc.allowance t ht spec hspec
    obtain ⟨hmem, hrun⟩ := Db.mem_tasksOf.1 ht
    have hmoved := (htask t ht).allowance hmem
    rw [hrun] at hmoved
    cases hop : reopens r.id db op with
    | false =>
      rw [hop, Bool.toNat_false] at hmoved
      omega
    | true =>
      have hrow : 1 ≤ (op.audits env).countP (db.revives r.id) := countP_revives_audits hop
      rw [hop, Bool.toNat_true] at hmoved
      omega

/-- So does that of an old run when there is a new one. -/
theorem Account.creates (hacc : Account log db r d) (hc : Creates env op db db' run dag)
    (hr : r ∈ db.workflowRuns) : Account (log ++ op.audits env) db' r d := by
  have hne : run.id ≠ r.id := fun heq => hf.run_ne hr 0 (heq.symm.trans hc.id)
  have hrevives : db'.revives r.id = db.revives r.id := by
    funext a
    rw [Db.revives, hc.tasksOf hne, Db.revives]
  obtain ⟨_, _, _, _, _, _, hop⟩ := hc.isCreate
  refine ⟨?_, fun a ha hca => ?_, ?_, fun t ht spec hspec => ?_⟩
  · rw [List.countP_append, countP_creates_audits hf hr, hacc.created]
  · rw [Db.concerns, hrevives, ← Db.concerns] at hca
    rcases List.mem_append.1 ha with ha | ha
    · exact hacc.tenantId a ha hca
    · exact tenantId_of_concerns hw hf h hr ha hca
  · rw [hacc.cancelled, logCancelled_append_of_forall]
    intro a ha
    rw [hop, Op.audits, List.mem_singleton] at ha
    subst ha
    simp [newAuditEvent, AuditEvent.cancels, AuditEvent.retries, AuditEvent.records]
  · rw [hc.tasksOf hne] at ht
    rw [hrevives, List.countP_append]
    have hold := hacc.allowance t ht spec hspec
    omega

end Step

/-- The rows about runs and tasks are about those there are. -/
structure Named (log : List AuditEvent) (db : Db) : Prop where
  runs : ∀ a ∈ log, a.resourceType = "workflow_run" → ∃ r ∈ db.workflowRuns, r.id = a.resourceId
  tasks : ∀ a ∈ log, a.resourceType = "task_run" → ∃ t ∈ db.taskRuns, t.id = a.resourceId

/-- No row is about a run that is not there yet. -/
theorem Named.not_concerns {log : List AuditEvent} (hn : Named log db)
    (hc : Creates env op db db' run dag) (hf : db.Fresh env) (hw : db.WellFormed) :
    ∀ a ∈ log, db'.concerns run.id a = false := by
  intro a ha
  have hrun : ∀ action, a.records action "workflow_run" run.id = false := by
    refine fun action => Bool.eq_false_iff.2 fun hrec => ?_
    simp only [AuditEvent.records, decide_eq_true_eq] at hrec
    obtain ⟨r, hr, hid⟩ := hn.runs a ha hrec.2.1
    exact hf.run_ne hr 0 ((hid.trans hrec.2.2).trans hc.id)
  have htask : ((db'.tasksOf run.id).map TaskRun.id).any (fun id => a.replays id) = false := by
    refine Bool.eq_false_iff.2 fun hany => ?_
    obtain ⟨id, hid, hrec⟩ := List.any_eq_true.1 hany
    rw [hc.tasksOf_new hf hw, List.map_map] at hid
    obtain ⟨entry, -, rfl⟩ := List.mem_map.1 hid
    simp only [AuditEvent.replays, AuditEvent.records, decide_eq_true_eq] at hrec
    obtain ⟨t, ht, hid⟩ := hn.tasks a ha hrec.2.1
    exact hf.task_ne ht _ (hid.trans hrec.2.2)
  simp only [Db.concerns, Db.revives, AuditEvent.creates, AuditEvent.cancels, AuditEvent.retries,
    hrun, htask, Bool.or_false]

/-- The account of a new run. -/
theorem Creates.account {log : List AuditEvent} (hc : Creates env op db db' run d.dag)
    (hn : Named log db) (hf : db.Fresh env) (hw : db.WellFormed)
    (hop : ∃ user definitionId key input artifact,
      op = .createRun run.tenantId user definitionId key input artifact) :
    Account (log ++ op.audits env) db' run d := by
  obtain ⟨user, definitionId, key, input, artifact, rfl⟩ := hop
  have hold := hn.not_concerns hc hf hw
  simp only [Db.concerns, Db.revives, Bool.or_eq_false_iff] at hold
  refine ⟨?_, fun a ha hca => ?_, ?_, ?_⟩
  · have hnone : log.countP (AuditEvent.creates run.id) = 0 := by
      rw [List.countP_eq_zero]
      exact fun a ha => Bool.eq_false_iff.1 (hold a ha).1.1
    rw [List.countP_append, hnone]
    simp [Op.audits, newAuditEvent, AuditEvent.creates, AuditEvent.records, hc.id]
  · rcases List.mem_append.1 ha with ha | ha
    · rw [hn.not_concerns hc hf hw a ha] at hca
      cases hca
    · rw [Op.audits, List.mem_singleton] at ha
      rw [ha]
      rfl
  · have hlog : logCancelled run.id ([] ++ (log ++
        (Op.createRun run.tenantId user definitionId key input artifact).audits env)) = false := by
      rw [logCancelled_append_of_forall fun a ha => ?_]
      · rfl
      rcases List.mem_append.1 ha with ha | ha
      · exact ⟨(hold a ha).1.2, (hold a ha).2.1⟩
      · rw [Op.audits, List.mem_singleton] at ha
        subst ha
        simp [newAuditEvent, AuditEvent.cancels, AuditEvent.retries, AuditEvent.records]
    rw [List.nil_append] at hlog
    rw [hlog, hc.status]
    exact iff_of_false (by decide) Bool.false_ne_true
  · rw [hc.tasksOf_new hf hw]
    intro t ht spec hspec
    obtain ⟨entry, he, rfl⟩ := List.mem_map.1 ht
    obtain rfl := d.dag.spec_unique he hspec
    have hwait : (newTaskRun env run d.dag entry).status.waiting = true := by
      rcases newTaskRun_status env run d.dag entry with hst | hst <;> rw [hst] <;> rfl
    have hleft : 0 < (newTaskRun env run d.dag entry).maximumAttempts :=
      (newTaskRun_budgeted (hc.insertable entry he)).left hwait
    rw [TaskRun.allowance_of_waiting hwait]
    refine le_trans (max_le le_rfl hleft) (Nat.le_add_right _ _)

theorem named_run {tenantId : ℕ} {userId : Option ℕ} {action : String} {id : ℕ}
    (hr : r ∈ db.workflowRuns) (hid : r.id = id) :
    Named [newAuditEvent env tenantId userId action "workflow_run" id] db := by
  constructor <;> simp only [newAuditEvent, List.mem_singleton, forall_eq]
  · exact fun _ => ⟨r, hr, hid⟩
  · exact fun hne => absurd hne (by decide)

/-- The rows of a call are about runs and tasks there are. -/
theorem named_audits {reply : Reply} (h : op.exec env db = .ok (reply, db'))
    (hop : op.createsRun = false) : Named (op.audits env) db := by
  cases op <;> simp only [Op.createsRun, Bool.true_eq_false] at hop
  case cancelRun tenantId userId id =>
    obtain ⟨⟨r, hr, hid, -⟩, -⟩ := cancelRun_ok (of_map_done h)
    exact named_run hr hid
  case retryRun tenantId userId id =>
    obtain ⟨⟨r, hr, hid, -⟩, -⟩ := retryRun_ok (of_map_done h)
    exact named_run hr hid
  case replayDead tenantId userId taskId =>
    obtain ⟨t, ht, -, -, hid, -⟩ := replayDead_ok (of_map_done h)
    constructor <;> simp only [Op.audits, newAuditEvent, List.mem_singleton, forall_eq]
    · exact fun hne => absurd hne (by decide)
    · exact fun _ => ⟨t, ht, hid⟩
  all_goals
    constructor <;> simp [Op.audits, newAuditEvent]

/-- The log accounts for the runs. -/
structure Books (log : List AuditEvent) (db : Db) : Prop where
  named : Named log db
  accounts : ∀ r ∈ db.workflowRuns, ∃ d ∈ db.workflowDefinitions,
    db.RunsAs r d ∧ Account log db r d

theorem Named.append {log new : List AuditEvent} (h : Named log db) (h' : Named new db) :
    Named (log ++ new) db where
  runs a ha := (List.mem_append.1 ha).elim (h.runs a) (h'.runs a)
  tasks a ha := (List.mem_append.1 ha).elim (h.tasks a) (h'.tasks a)

theorem Named.mono {log : List AuditEvent} (h : Named log db)
    (hruns : ∀ r ∈ db.workflowRuns, ∃ r' ∈ db'.workflowRuns, r'.id = r.id)
    (htasks : ∀ t ∈ db.taskRuns, ∃ t' ∈ db'.taskRuns, t'.id = t.id) : Named log db' where
  runs a ha htype := by
    obtain ⟨r, hr, hid⟩ := h.runs a ha htype
    obtain ⟨r', hr', hid'⟩ := hruns r hr
    exact ⟨r', hr', hid'.trans hid⟩
  tasks a ha htype := by
    obtain ⟨t, ht, hid⟩ := h.tasks a ha htype
    obtain ⟨t', ht', hid'⟩ := htasks t ht
    exact ⟨t', ht', hid'.trans hid⟩

/-- A call appends to the log what accounts for it. -/
theorem exec_books {log : List AuditEvent} (hw : db.WellFormed) (hf : db.Fresh env) {reply : Reply}
    (h : op.exec env db = .ok (reply, db')) (hb : Books log db) :
    ∃ new, db'.auditEvents = db.auditEvents ++ new ∧ Books (log ++ new) db' := by
  have hgrows := (exec_grows hw.toKeyed h).definitions
  rcases exec_audits hw.toKeyed h with rfl | haudits
  · exact ⟨[], (List.append_nil _).symm, by rwa [List.append_nil]⟩
  refine ⟨op.audits env, haudits, ?_⟩
  rcases exec_runsAs hw.toKeyed h with
    rfl | ⟨hm, hop⟩ | ⟨d, hd, run, hc, hid, hversion, htenant, hop⟩
  · -- nothing was done, so nothing was appended
    rw [List.self_eq_append_right] at haudits
    rwa [haudits, List.append_nil]
  · refine ⟨(hb.named.append (named_audits h hop)).mono ?_ ?_, fun r' hr' => ?_⟩
    · exact fun r hr => (hm.mem_run hr).imp fun _ hr' => ⟨hr'.1, hr'.2.id⟩
    · exact fun t ht => (hm.mem_task ht).imp fun _ ht' => ⟨ht'.1, ht'.2.id⟩
    · obtain ⟨r, hr, hmove⟩ := hm.of_mem_run hr'
      obtain ⟨d, hd, hruns, hacc⟩ := hb.accounts r hr
      exact ⟨d, hgrows d hd, hruns.moves hm hmove, hacc.moves hw hf h hm hr hmove hr'⟩
  · have hold : Named log db' := hb.named.mono
      (fun r hr => ⟨r, hc.run_mem hr, rfl⟩)
      fun t ht => ⟨t, hc.task_mem ht, rfl⟩
    have hrun : run ∈ db'.workflowRuns := by
      rw [hc.runs]
      exact List.mem_append_right _ (List.mem_singleton_self run)
    refine ⟨hold.append ?_, fun r' hr' => ?_⟩
    · obtain ⟨_, _, _, _, _, rfl⟩ := hop
      exact named_run hrun hc.id
    · rw [hc.runs, List.mem_append, List.mem_singleton] at hr'
      rcases hr' with hr | rfl
      · obtain ⟨e, he, hruns, hacc⟩ := hb.accounts r' hr
        exact ⟨e, hgrows e he, hruns.creates hc hf hr, hacc.creates hw hf h hc hr⟩
      · exact ⟨d, hgrows d hd, hc.runsAs hf hw hid hversion htenant,
          hc.account hb.named hf hw hop⟩

/-! ## Whole histories -/

/-- After every history the log is the one at the start with rows appended that account for the
runs. -/
theorem exists_books {s : State} (h0 : Init s) {cs : List Call} (hv : controlPlane.Valid s cs) :
    ∃ log, (controlPlane.run s cs).db.auditEvents = s.db.auditEvents ++ log ∧
      Books log (controlPlane.run s cs).db := by
  refine (controlPlane.invariant (P := fun q => q.db.WellFormed ∧ ∃ log,
    q.db.auditEvents = s.db.auditEvents ++ log ∧ Books log q.db) (fun q c hq hc => ?_)
    ⟨h0.wellFormed, [], (List.append_nil _).symm, ⟨by simp, by simp⟩,
      by simp [h0.workflowRuns]⟩ hv).2
  refine controlPlane_step (P := fun db => db.WellFormed ∧ ∃ log,
    db.auditEvents = s.db.auditEvents ++ log ∧ Books log db) hq fun reply db' hok => ?_
  obtain ⟨hw, log, haudits, hbooks⟩ := hq
  obtain ⟨new, hnew, hbooks'⟩ := exec_books hw hc.2 hok hbooks
  exact ⟨exec_wellFormed hw hc.2 hok, log ++ new, by rw [hnew, haudits, List.append_assoc],
    hbooks'⟩

/-- The run with this id stays one of the definition, which stays in its table. -/
def Db.KeepsVersion (db : Db) (r : Run) (d : Definition) : Prop :=
  d ∈ db.workflowDefinitions ∧
    ∃ r' ∈ db.workflowRuns, r'.id = r.id ∧ r'.input = r.input ∧ db.RunsAs r' d

theorem exec_keepsVersion (hw : db.WellFormed) (hf : db.Fresh env) {reply : Reply}
    (h : op.exec env db = .ok (reply, db')) (hkeeps : db.KeepsVersion r d) :
    db'.KeepsVersion r d := by
  obtain ⟨hd, q, hq, hid, hinput, hruns⟩ := hkeeps
  refine ⟨(exec_grows hw.toKeyed h).definitions d hd, ?_⟩
  rcases exec_moves hw.toKeyed h with hm | ⟨run, dag, hc⟩
  · obtain ⟨q', hq', hmove⟩ := hm.mem_run hq
    exact ⟨q', hq', hmove.id.trans hid, hmove.input.trans hinput, hruns.moves hm hmove⟩
  · exact ⟨q, hc.run_mem hq, hid, hinput, hruns.creates hc hf hq⟩

/-- Runs keep their version. In every reachable state a run is one of a definition of its tenant,
with a task for each entry and the dependencies of the definition, and it is still one of this
definition after any further calls. -/
theorem runs_keep_their_version {s : State} (h : Reachable s) {r : Run}
    (hr : r ∈ s.db.workflowRuns) :
    ∃ d, s.db.RunsAs r d ∧ ∀ cs, controlPlane.Valid s cs →
      (controlPlane.run s cs).db.KeepsVersion r d := by
  obtain ⟨d, hd, hruns⟩ : ∃ d ∈ s.db.workflowDefinitions, s.db.RunsAs r d := by
    obtain ⟨s₀, cs, h0, hv, rfl⟩ := h
    obtain ⟨log, -, hbooks⟩ := exists_books h0 hv
    obtain ⟨d, hd, hruns, -⟩ := hbooks.accounts r hr
    exact ⟨d, hd, hruns⟩
  refine ⟨d, hruns, fun cs hv => ?_⟩
  refine (controlPlane.invariant (P := fun s => s.db.WellFormed ∧ s.db.KeepsVersion r d)
    (fun s c hs hc => ?_) ⟨h.wellFormed, hd, r, hr, rfl, rfl, hruns⟩ hv).2
  exact controlPlane_step (P := fun db => db.WellFormed ∧ db.KeepsVersion r d) hs
    fun reply db' hok => ⟨exec_wellFormed hs.1 hc.2 hok, exec_keepsVersion hs.1 hc.2 hok hs.2⟩

/-- Another workflow from a graph of two tasks that do not wait for each other, and a call for a
version of the chain from it. -/
def pairSubmitted : List (ℤ × Op) :=
  [(2, .createWorkflow 1 none "twins" pairDag), (3, .createVersion 1 none 1 pairDag)]

/-- The run stays a chain, and there is no second version of it. -/
theorem runs_keep_their_version_chain :
    ∃ r ∈ chainStarted.db.workflowRuns, ∃ d, d.version = 1 ∧
      (chainStarted.after pairSubmitted).db.KeepsVersion r d ∧
      (chainStarted.after pairSubmitted).db.workflowDefinitions.map Definition.version =
        [1, 1, 1] := by
  have hreach : Reachable chainStarted := reachable_after init_twoDefinitions (by decide)
  obtain ⟨r, hr, hversion⟩ : ∃ r ∈ chainStarted.db.workflowRuns, r.workflowVersion = 1 := by decide
  obtain ⟨d, hruns, hkeeps⟩ := runs_keep_their_version hreach hr
  exact ⟨r, hr, d, hruns.version.symm.trans hversion,
    hkeeps _ (valid_play pairSubmitted _ (by decide)), by decide⟩

/-- What users did is in the audit log. After every history the log is the one at the start with
rows appended that account for the runs : one row for its creation, the run is cancelled exactly if
they say so, all of its tenant, and no task was attempted more often than its definition says and
one time more for each retry of the run or replay of a task of it. -/
theorem interventions_accounted {s : State} (h0 : Init s) {cs : List Call}
    (hv : controlPlane.Valid s cs) {db : Db} (hdb : db = (controlPlane.run s cs).db) :
    ∃ log, db.auditEvents = s.db.auditEvents ++ log ∧
      ∀ r ∈ db.workflowRuns, ∃ d ∈ db.workflowDefinitions, db.RunsAs r d ∧
        log.countP (AuditEvent.creates r.id) = 1 ∧
        (∀ a ∈ log, db.concerns r.id a = true → a.tenantId = r.tenantId) ∧
        (r.status = .cancelled ↔ logCancelled r.id log = true) ∧
        ∀ t ∈ db.tasksOf r.id, ∀ spec, (t.taskKey, spec) ∈ d.dag.tasks →
          (db.attemptsOf t.id).length ≤
            (withDefaults spec).maximumAttempts.toNat + log.countP (db.revives r.id) := by
  have hreach : Reachable (controlPlane.run s cs) := ⟨s, cs, h0, hv, rfl⟩
  obtain ⟨log, haudits, hbooks⟩ := exists_books h0 hv
  rw [← hdb] at haudits hbooks
  refine ⟨log, haudits, fun r hr => ?_⟩
  obtain ⟨d, hd, hruns, hacc⟩ := hbooks.accounts r hr
  refine ⟨d, hd, hruns, hacc.created, hacc.tenantId, hacc.cancelled, fun t ht spec hspec => ?_⟩
  have hcount : (db.attemptsOf t.id).length = t.attemptCount := by
    have hbook := hreach.bookkept t (hdb ▸ (Db.mem_tasksOf.1 ht).1)
    have hnumbered := congrArg List.length hbook.numbered
    rw [List.length_map, List.length_range'] at hnumbered
    rw [hdb]
    exact hnumbered
  have hle := hacc.allowance t ht spec hspec
  rw [TaskRun.allowance] at hle
  omega

/-- A task of one attempt is leased three times, because it was replayed, and after its second lease
was cancelled another task of the run was. -/
def leasedPastLimit : List (ℤ × Op) :=
  cancelledInLastAttempt ++ [(13, .replayDead 1 none 6), (14, .dispatchReady (.ofList [5])),
    (15, .leaseTask 5 "w" 100)]

theorem interventions_accounted_leasedPastLimit :
    ∃ t ∈ (twoDefinitions.after leasedPastLimit).db.taskRuns, t.maximumAttempts < t.attemptCount ∧
      ∃ log, (twoDefinitions.after leasedPastLimit).db.auditEvents = [] ++ log ∧
        2 ≤ log.countP ((twoDefinitions.after leasedPastLimit).db.revives t.workflowRunId) := by
  obtain ⟨log, hlog, haccounts⟩ := interventions_accounted init_twoDefinitions
    (valid_play leasedPastLimit twoDefinitions (by decide)) rfl
  change (twoDefinitions.after leasedPastLimit).db.auditEvents = _ at hlog
  change ∀ r ∈ (twoDefinitions.after leasedPastLimit).db.workflowRuns, _ at haccounts
  obtain ⟨t, ht, hcount, hlimit, hname, r, hr, hrun, hid⟩ :
      ∃ t ∈ (twoDefinitions.after leasedPastLimit).db.taskRuns,
        ((twoDefinitions.after leasedPastLimit).db.attemptsOf t.id).length = 3 ∧
          t.maximumAttempts < t.attemptCount ∧ t.taskKey = "a" ∧
          ∃ r ∈ (twoDefinitions.after leasedPastLimit).db.workflowRuns,
            t.workflowRunId = r.id ∧ r.workflowDefinitionId = 3 := by decide +kernel
  obtain ⟨d, hd, hruns, -, -, -, hattempts⟩ := haccounts r hr
  have hsingle : ∀ d ∈ (twoDefinitions.after leasedPastLimit).db.workflowDefinitions, d.id = 3 →
      ∀ entry ∈ d.dag.tasks, entry.1 = "a" → (withDefaults entry.2).maximumAttempts.toNat = 1 := by
    decide +kernel
  have hmem : t ∈ (twoDefinitions.after leasedPastLimit).db.tasksOf r.id :=
    Db.mem_tasksOf.2 ⟨ht, hrun⟩
  have hkey : t.taskKey ∈ d.dag.keys := hruns.keys.mem_iff.1 (List.mem_map_of_mem hmem)
  obtain ⟨⟨key, spec⟩, hentry, rfl⟩ := List.mem_map.1 hkey
  have hle := hattempts t hmem spec hentry
  rw [hsingle d hd (hruns.id.symm.trans hid) _ hentry hname] at hle
  refine ⟨t, ht, hlimit, log, hlog, ?_⟩
  rw [hrun]
  change ((twoDefinitions.after leasedPastLimit).db.attemptsOf t.id).length ≤ _ at hle
  rw [hcount] at hle
  exact (Nat.add_le_add_iff_left (n := 1)).1 hle

end RunMesh
