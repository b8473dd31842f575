import RunMesh.Integrity
import RunMesh.Validation

/-!
# Which definitions can be run

`ValidateDAG` bounds the attempts and the timeout of a task and checks its dependencies, so
in an accepted definition these columns can be inserted, and so can the dependency rows.
It does not look at the priority, an `int` that has to fit a 32-bit column. So a run of an
accepted definition can be created exactly if every priority fits
(`createRun_creates_iff`).

`RowsConform` says of the rows themselves what `001_initial.up.sql` asks of `task_runs` and
`task_dependencies`.
-/

namespace RunMesh

open Fallible

variable {env : Env} {db : Db} {dag : DAG}

/-- What `ValidateDAG` has checked of an entry. -/
structure CheckedEntry (entry : String × TaskSpec) : Prop where
  attempts : 0 ≤ entry.2.maximumAttempts ∧ entry.2.maximumAttempts ≤ 100
  timeout : 0 ≤ entry.2.timeoutSeconds ∧ entry.2.timeoutSeconds ≤ 86400
  dependencies : entry.2.dependsOn.Nodup

theorem checkedEntry_of_validateDAG (h : validateDAG dag = .ok ()) {entry : String × TaskSpec}
    (hentry : entry ∈ dag.tasks) : CheckedEntry entry := by
  have hvalid := (valid_of_validateDAG h).entries entry hentry
  exact ⟨hvalid.attempts, hvalid.timeout, hvalid.distinct⟩

theorem isInteger_of_pos {n : ℤ} (h0 : 0 < n) (hn : n ≤ 86400) : isInteger n = true := by
  simp only [isInteger, decide_eq_true_eq]
  omega

/-- The row of a checked entry can be inserted exactly if its priority fits. -/
theorem taskRunInsertable_iff {entry : String × TaskSpec} (h : CheckedEntry entry) :
    taskRunInsertable (withDefaults entry.2) = true ↔ isInteger entry.2.priority = true := by
  obtain ⟨hattempts, htimeout, -⟩ := h
  have hmax : 0 < (withDefaults entry.2).maximumAttempts ∧
      (withDefaults entry.2).maximumAttempts ≤ 86400 := by
    unfold withDefaults
    dsimp only
    split_ifs <;> omega
  have htime : 0 < (withDefaults entry.2).timeoutSeconds ∧
      (withDefaults entry.2).timeoutSeconds ≤ 86400 := by
    unfold withDefaults
    dsimp only
    split_ifs <;> omega
  simp [taskRunInsertable, isInteger_of_pos hmax.1 hmax.2, isInteger_of_pos htime.1 htime.2,
    hmax.1, htime.1, show (withDefaults entry.2).priority = entry.2.priority from rfl]

/-- The dependencies of an accepted definition are keys of it. -/
theorem dependsOn_mem_keys (h : validateDAG dag = .ok ()) {key dep : String}
    (hkey : key ∈ dag.keys) (hdep : dag.DependsOn dep key) : dep ∈ dag.keys := by
  obtain ⟨entry, hentry, rfl⟩ := List.mem_map.1 hkey
  rw [DAG.DependsOn, dag.dependsOn_of_mem hentry] at hdep
  exact (dependency_mem_keys h hentry hdep).2

/-- The dependency rows of an accepted definition can be inserted. -/
theorem dependenciesInsertable_of_validateDAG (h : validateDAG dag = .ok ()) (hf : db.Fresh env)
    (run : Run) : dependenciesInsertable env run dag = true := by
  have hdep : ∀ entry ∈ dag.tasks, ∀ dep ∈ entry.2.dependsOn, dep ≠ entry.1 ∧ dep ∈ dag.keys :=
    fun entry hentry dep hdep => dependency_mem_keys h hentry hdep
  simp only [dependenciesInsertable, Bool.and_eq_true, List.all_eq_true, decide_eq_true_eq]
  refine ⟨⟨fun entry hentry dep hd => (hdep entry hentry dep hd).2, ?_⟩, fun d hd => ?_⟩
  · -- rows of one task differ in the dependency, rows of two tasks in the task
    rw [newDependencies, List.nodup_flatMap]
    constructor
    · intro entry hentry
      refine List.Nodup.map_on (fun a ha b _ hab => ?_)
        (checkedEntry_of_validateDAG h hentry).dependencies
      exact taskId_injective hf (hdep entry hentry a ha).2 (Dependency.mk.inj hab).2.2
    · have hkeys : dag.tasks.Pairwise fun e e' => e.1 ≠ e'.1 := List.pairwise_map.1 dag.nodup
      refine hkeys.imp_of_mem fun {e e'} he _ hne d hd hd' => ?_
      obtain ⟨a, -, rfl⟩ := List.mem_map.1 hd
      obtain ⟨b, -, hb⟩ := List.mem_map.1 hd'
      exact hne (taskId_injective hf (List.mem_map_of_mem he) (Dependency.mk.inj hb).2.1.symm)
  · obtain ⟨entry, hentry, dep, hdd, rfl⟩ := mem_newDependencies.1 hd
    obtain ⟨hne, hmem⟩ := hdep entry hentry dep hdd
    exact fun heq => hne (taskId_injective hf hmem heq.symm)

/-- A run of an accepted definition, without an input artifact and under a new key, is
created exactly if every priority fits its column. -/
theorem createRun_creates_iff (hf : db.Fresh env) {d : Definition}
    (hvalid : validateDAG d.dag = .ok ())
    (hfind : db.workflowDefinitions.find? (fun x => x.id = d.id ∧ x.tenantId = d.tenantId) =
      some d)
    {key : String} (hkey : key ≠ "")
    (hnew : db.workflowRuns.find? (fun r => r.tenantId = d.tenantId ∧ r.idempotencyKey = key) =
      none) (user : Option ℕ) (input : String) :
    (∃ r db', createRun env d.tenantId user d.id key input none db = .ok ((r, true), db')) ↔
      ∀ entry ∈ d.dag.tasks, isInteger entry.2.priority = true := by
  constructor
  · rintro ⟨r, db', h⟩
    simp only [createRun, bind_eq_ok, orError_eq_ok, require_eq_ok, hfind, hnew,
      Option.some.injEq] at h
    obtain ⟨-, -, uri, -, _, rfl, db₁, hins, -⟩ := h
    intro entry hentry
    exact (taskRunInsertable_iff (checkedEntry_of_validateDAG hvalid hentry)).1
      ((insertRun_ok hins).1 entry hentry)
  · intro hfits
    have hrows : (d.dag.tasks.all fun entry => taskRunInsertable (withDefaults entry.2)) = true :=
      List.all_eq_true.2 fun entry hentry =>
        (taskRunInsertable_iff (checkedEntry_of_validateDAG hvalid hentry)).2 (hfits entry hentry)
    obtain ⟨db', hins⟩ : ∃ db', insertRun env user none (newRun env d.tenantId d key input "")
        d.dag db = .ok db' := by
      simp only [insertRun, bind_eq_ok, require_eq_ok]
      exact ⟨_, _, rfl, (), hrows, (), dependenciesInsertable_of_validateDAG hvalid hf _, rfl⟩
    refine ⟨newRun env d.tenantId d key input "", db', ?_⟩
    simp only [createRun, bind_eq_ok, orError_eq_ok, require_eq_ok, hfind, hnew]
    exact ⟨(), decide_eq_true hkey, "", rfl, d, rfl, db', hins, rfl⟩

/-- One task, with a priority that does not fit an `INTEGER`. -/
def urgentDag : DAG where
  name := "urgent"
  tasks := [("a", ⟨"examples.greet", [], 0, 0, 2147483648⟩)]
  nodup := by decide

/-! ## The rows of an accepted definition -/

/-- A table may take the rows `new` beside its rows `old` under `UNIQUE (key)`. -/
def UniqueKey {α κ : Type*} (key : α → κ) (old new : List α) : Prop :=
  (new.map key).Nodup ∧ ∀ r ∈ new, ∀ r' ∈ old, key r ≠ key r'

/-- The column types and constraints of `task_runs` and `task_dependencies`, for the rows
`CreateRun` inserts. -/
structure RowsConform (env : Env) (db : Db) (run : Run) (dag : DAG) : Prop where
  /-- `priority`, `maximum_attempts` and `timeout_seconds` are `INTEGER`. -/
  integers : ∀ entry ∈ dag.tasks, isInteger (withDefaults entry.2).priority = true ∧
    isInteger (withDefaults entry.2).maximumAttempts = true ∧
    isInteger (withDefaults entry.2).timeoutSeconds = true
  /-- `CHECK (maximum_attempts > 0)` and `CHECK (timeout_seconds > 0)`. -/
  positive : ∀ entry ∈ dag.tasks,
    0 < (withDefaults entry.2).maximumAttempts ∧ 0 < (withDefaults entry.2).timeoutSeconds
  /-- `id UUID PRIMARY KEY`. -/
  ids : UniqueKey TaskRun.id db.taskRuns (dag.tasks.map (newTaskRun env run dag))
  /-- `UNIQUE (workflow_run_id, task_key)`. -/
  taskKeys : UniqueKey (fun t : TaskRun => (t.workflowRunId, t.taskKey)) db.taskRuns
    (dag.tasks.map (newTaskRun env run dag))
  /-- `PRIMARY KEY (task_run_id, depends_on_task_run_id)`. -/
  pairs : UniqueKey (fun d : Dependency => (d.taskRunId, d.dependsOnTaskRunId))
    db.taskDependencies (newDependencies env run dag)
  /-- `CHECK (task_run_id <> depends_on_task_run_id)`. -/
  apart : ∀ d ∈ newDependencies env run dag, d.taskRunId ≠ d.dependsOnTaskRunId
  /-- Both columns `REFERENCES task_runs(id)`. -/
  existing : ∀ d ∈ newDependencies env run dag,
    (∃ t ∈ db.taskRuns ++ dag.tasks.map (newTaskRun env run dag), t.id = d.taskRunId) ∧
    ∃ t ∈ db.taskRuns ++ dag.tasks.map (newTaskRun env run dag), t.id = d.dependsOnTaskRunId

section

variable {run : Run}

theorem newTaskRun_ids (env : Env) (run : Run) (dag : DAG) :
    (dag.tasks.map (newTaskRun env run dag)).map TaskRun.id = dag.keys.map (taskId env dag) := by
  rw [DAG.keys, List.map_map, List.map_map]
  rfl

/-- The key of a map gets an id, and a row with it. -/
theorem exists_newTaskRun (env : Env) (run : Run) {key : String} (hkey : key ∈ dag.keys) :
    ∃ t ∈ dag.tasks.map (newTaskRun env run dag), t.id = taskId env dag key := by
  obtain ⟨entry, hentry, rfl⟩ := List.mem_map.1 hkey
  exact ⟨_, List.mem_map_of_mem hentry, rfl⟩

theorem uniqueKey_id (hf : db.Fresh env) (run : Run) (dag : DAG) :
    UniqueKey TaskRun.id db.taskRuns (dag.tasks.map (newTaskRun env run dag)) := by
  constructor
  · rw [newTaskRun_ids]
    exact List.Nodup.map_on (fun _ hkey _ _ => taskId_injective hf hkey) dag.nodup
  · intro t ht t' ht' heq
    obtain ⟨entry, -, rfl⟩ := List.mem_map.1 ht
    exact hf.task_ne ht' _ heq.symm

/-- The tasks of a new run have the keys of a map, and no old task is in the run. -/
theorem uniqueKey_taskKey (hw : db.WellFormed) (hf : db.Fresh env) (hrun : run.id = env.uuid 0)
    (dag : DAG) : UniqueKey (fun t : TaskRun => (t.workflowRunId, t.taskKey)) db.taskRuns
      (dag.tasks.map (newTaskRun env run dag)) := by
  constructor
  · rw [List.map_map]
    refine List.Nodup.of_map Prod.snd ?_
    rw [List.map_map]
    exact dag.nodup
  · intro t ht t' ht' heq
    obtain ⟨entry, -, rfl⟩ := List.mem_map.1 ht
    obtain ⟨r, hr, hid⟩ := hw.runOf t' ht'
    have hold : run.id = r.id := (Prod.mk.inj heq).1.trans hid.symm
    exact hf.run_ne hr 0 (hold.symm.trans hrun)

theorem uniqueKey_pair (hvalid : validateDAG dag = .ok ()) (hw : db.WellFormed)
    (hf : db.Fresh env) (run : Run) :
    UniqueKey (fun d : Dependency => (d.taskRunId, d.dependsOnTaskRunId)) db.taskDependencies
      (newDependencies env run dag) := by
  constructor
  · have hins := dependenciesInsertable_of_validateDAG hvalid hf run
    simp only [dependenciesInsertable, Bool.and_eq_true, decide_eq_true_eq] at hins
    refine hins.1.2.map_on fun d hd d' hd' heq => ?_
    obtain ⟨_, -, _, -, rfl⟩ := mem_newDependencies.1 hd
    obtain ⟨_, -, _, -, rfl⟩ := mem_newDependencies.1 hd'
    obtain ⟨htask, hdep⟩ := Prod.mk.inj heq
    exact congrArg₂ (Dependency.mk run.id) htask hdep
  · intro d hd d' hd' heq
    obtain ⟨_, -, _, -, rfl⟩ := mem_newDependencies.1 hd
    obtain ⟨t, ht, hid, -⟩ := (hw.edge d' hd').1
    exact hf.task_ne ht _ (hid.trans (Prod.mk.inj heq).1.symm)

/-- The rows of an accepted definition conform exactly if every priority fits its column. -/
theorem rowsConform_iff (hw : db.WellFormed) (hf : db.Fresh env)
    (hvalid : validateDAG dag = .ok ()) (hrun : run.id = env.uuid 0) :
    RowsConform env db run dag ↔ ∀ entry ∈ dag.tasks, isInteger entry.2.priority = true := by
  refine ⟨fun h entry hentry => (h.integers entry hentry).1, fun hfits => ?_⟩
  have hrow : ∀ entry ∈ dag.tasks, taskRunInsertable (withDefaults entry.2) = true :=
    fun entry hentry => (taskRunInsertable_iff (checkedEntry_of_validateDAG hvalid hentry)).2
      (hfits entry hentry)
  simp only [taskRunInsertable, Bool.and_eq_true, decide_eq_true_eq, and_assoc] at hrow
  refine ⟨fun entry hentry => ?_, fun entry hentry => (hrow entry hentry).2.2.2,
    uniqueKey_id hf run dag, uniqueKey_taskKey hw hf hrun dag, uniqueKey_pair hvalid hw hf run,
    fun d hd => ?_, fun d hd => ?_⟩
  · obtain ⟨hpriority, hattempts, htimeout, -⟩ := hrow entry hentry
    exact ⟨hpriority, hattempts, htimeout⟩
  · obtain ⟨entry, hentry, dep, hdep, rfl⟩ := mem_newDependencies.1 hd
    obtain ⟨hne, hmem⟩ := dependency_mem_keys hvalid hentry hdep
    exact fun heq => hne (taskId_injective hf hmem heq.symm)
  · obtain ⟨entry, hentry, dep, hdep, rfl⟩ := mem_newDependencies.1 hd
    have hkey : entry.1 ∈ dag.keys := List.mem_map_of_mem hentry
    obtain ⟨t, ht, hid⟩ := exists_newTaskRun env run hkey
    obtain ⟨u, hu, hid'⟩ := exists_newTaskRun env run (dependency_mem_keys hvalid hentry hdep).2
    exact ⟨⟨t, List.mem_append_right _ ht, hid⟩, u, List.mem_append_right _ hu, hid'⟩

end

/-- With rows that can be inserted, the inserts fail on the artifact or not at all. -/
theorem insertRun_ne_database {run : Run}
    (hrows : ∀ entry ∈ dag.tasks, taskRunInsertable (withDefaults entry.2) = true)
    (hdeps : dependenciesInsertable env run dag = true) (user artifact : Option ℕ) :
    insertRun env user artifact run dag db ≠ .error .database := by
  have hattach : attachInputArtifact artifact run.id db.artifacts ≠ .error .database := by
    unfold attachInputArtifact
    split
    · exact nofun
    · dsimp only
      split <;> exact nofun
  intro h
  simp only [insertRun, List.all_eq_true.2 hrows, hdeps] at h
  cases hartifacts : attachInputArtifact artifact run.id db.artifacts with
  | ok artifacts => rw [hartifacts] at h; cases h
  | error e =>
    rw [hartifacts] at h
    cases h
    exact hattach hartifacts

theorem createRun_ne_database {d : Definition}
    (hfind : db.workflowDefinitions.find? (fun x => x.id = d.id ∧ x.tenantId = d.tenantId) =
      some d)
    (hrows : ∀ entry ∈ d.dag.tasks, taskRunInsertable (withDefaults entry.2) = true)
    (hdeps : ∀ run, dependenciesInsertable env run d.dag = true) (user artifact : Option ℕ)
    (key input : String) :
    createRun env d.tenantId user d.id key input artifact db ≠ .error .database := by
  intro h
  simp only [createRun, bind_eq_error, require_eq_error, orError_eq_error, hfind,
    reduceCtorEq, and_false, false_or, require_eq_ok, orError_eq_ok, Option.some.injEq] at h
  obtain ⟨-, -, hselect | ⟨uri, -, _, rfl, hinsert⟩⟩ := h
  · cases artifact with
    | none => cases hselect
    | some id =>
      simp only [selectInputArtifact, orError_eq_error, reduceCtorEq, and_false] at hselect
  · split at hinsert
    · cases hinsert
    rcases bind_eq_error.1 hinsert with hfail | ⟨db', -, hdone⟩
    · exact insertRun_ne_database hrows (hdeps _) user artifact hfail
    · cases hdone

/-- A run of an accepted definition has rows that conform to the tables, and `CreateRun` does not
fail on them, exactly if every priority fits its column. -/
theorem accepted_runnable_iff (hw : db.WellFormed) (hf : db.Fresh env) {d : Definition}
    (hvalid : validateDAG d.dag = .ok ())
    (hfind : db.workflowDefinitions.find? (fun x => x.id = d.id ∧ x.tenantId = d.tenantId) =
      some d)
    {key : String} (hkey : key ≠ "")
    (hnew : db.workflowRuns.find? (fun r => r.tenantId = d.tenantId ∧ r.idempotencyKey = key) =
      none) (user : Option ℕ) (input uri : String) :
    (RowsConform env db (newRun env d.tenantId d key input uri) d.dag ∧
      (∃ r db', createRun env d.tenantId user d.id key input none db = .ok ((r, true), db')) ∧
      ∀ artifact, createRun env d.tenantId user d.id key input artifact db ≠ .error .database) ↔
      ∀ entry ∈ d.dag.tasks, isInteger entry.2.priority = true := by
  have hrows := rowsConform_iff hw hf hvalid
    (rfl : (newRun env d.tenantId d key input uri).id = env.uuid 0)
  refine ⟨fun h => hrows.1 h.1, fun hfits => ⟨hrows.2 hfits, ?_, fun artifact => ?_⟩⟩
  · exact (createRun_creates_iff hf hvalid hfind hkey hnew user input).2 hfits
  · refine createRun_ne_database hfind (fun entry hentry => ?_)
      (dependenciesInsertable_of_validateDAG hvalid hf) user artifact key input
    exact (taskRunInsertable_iff (checkedEntry_of_validateDAG hvalid hentry)).2
      (hfits entry hentry)

/-- A database with one definition and nothing else. -/
def Db.ofDefinition (d : Definition) : Db :=
  ⟨[d], [], [], [], [], [], [], []⟩

theorem Db.wellFormed_ofDefinition {d : Definition} (h : validateDAG d.dag = .ok ()) :
    (Db.ofDefinition d).WellFormed where
  runs := List.nodup_nil
  tasks := List.nodup_nil
  runOf := List.forall_mem_nil _
  nonempty := List.forall_mem_nil _
  edge := List.forall_mem_nil _
  acyclic := List.forall_mem_nil _
  accepted d' hd' := by rwa [List.mem_singleton.1 hd']
  opened := List.forall_mem_nil _

/-- The task of `urgentDag` with a priority of one, and another after it. -/
def calmDag : DAG where
  name := "calm"
  tasks := [("a", ⟨"examples.greet", [], 0, 0, 1⟩), ("b", ⟨"examples.upper", ["a"], 0, 0, 1⟩)]
  nodup := by decide

/-- A definition of it. -/
def calmDefinition : Definition :=
  ⟨1, 1, "calm", 1, calmDag, none, 0⟩

theorem accepted_runnable_iff_calm :
    RowsConform (Env.at 0 2) (.ofDefinition calmDefinition)
      (newRun (Env.at 0 2) 1 calmDefinition "k" "" "") calmDag := by
  have hvalid : validateDAG calmDefinition.dag = .ok () := by decide
  have hkey : "k" ≠ "" := by decide
  exact ((accepted_runnable_iff (Db.wellFormed_ofDefinition hvalid) (Db.fresh_at (by decide) 0)
    hvalid (by decide) hkey rfl none "" "").2 (by decide)).1

/-- `ValidateDAG` accepts the definition, its row does not fit, and `CreateRun` fails. -/
theorem urgent_accepted_not_runnable :
    validateDAG urgentDag = .ok () ∧
      (¬RowsConform (Env.at 0 2) (.ofDefinition ⟨1, 1, "urgent", 1, urgentDag, none, 0⟩)
        (newRun (Env.at 0 2) 1 ⟨1, 1, "urgent", 1, urgentDag, none, 0⟩ "k" "" "") urgentDag) ∧
      createRun (Env.at 0 2) 1 none 1 "k" "" none
        (.ofDefinition ⟨1, 1, "urgent", 1, urgentDag, none, 0⟩) = .error .database := by
  refine ⟨by decide, fun h => ?_, by decide +kernel⟩
  have hpriority := (h.integers _ (List.mem_singleton_self _)).1
  revert hpriority
  decide

end RunMesh
