import RunMesh.Readiness
import Mathlib.Data.List.Perm.Basic

/-!
# Concurrent submissions

`Store.CreateRun` statement by statement, any number of calls being under way at the same time.
A call locks its input artifact, reads the definition, and inserts its run. The unique constraint
on `(tenant_id, idempotency_key)` makes an insert wait while another transaction has inserted
the same key and has not ended, and skips it if such a run is committed. The call that inserts
goes on to attach the artifact and to copy the graph, one row at a time, in two passes over a map
that may visit the entries in different orders. Nothing of it is seen by others before it
commits. The call that does not insert reads the run there is, and rolls back.

While a call has inserted its run, no run with its key is committed, and no other call has
inserted the key (`Submitting`). So a key is committed once, and what is committed with it is a
copy of the graph (`CopyOf`, `submissions_idempotent`).
-/

namespace RunMesh

open Fallible

/-! ## Calls -/

/-- The order in which a `range` over a map visits its entries. -/
structure RangeOrder where
  visit : List (String × TaskSpec) → List (String × TaskSpec)
  perm : ∀ entries, (visit entries).Perm entries

/-- A call of `CreateRun`, with the orders of its two loops. -/
structure Submission where
  env : Env
  tenantId : ℕ
  userId : Option ℕ
  definitionId : ℕ
  idempotencyKey : String
  input : String
  inputArtifactId : Option ℕ
  taskOrder : RangeOrder
  dependencyOrder : RangeOrder

/-- The key the constraint is on. -/
def Submission.key (c : Submission) : ℕ × String :=
  (c.tenantId, c.idempotencyKey)

/-- The columns of the constraint. -/
def Run.submissionKey (r : Run) : ℕ × String :=
  (r.tenantId, r.idempotencyKey)

/-- An `INSERT` after the one of the run. -/
inductive RowInsert
  | task (entry : String × TaskSpec)
  | dependency (key dep : String)
  | event
  | audit

/-- The entries of the `depends_on` lists, each with the key of its list. -/
def dependsOnEntries (entries : List (String × TaskSpec)) : List (String × String) :=
  entries.flatMap fun entry => entry.2.dependsOn.map (Prod.mk entry.1)

/-- The inserts of the two loops, the event and the audit row. -/
def Submission.inserts (c : Submission) (dag : DAG) : List RowInsert :=
  (c.taskOrder.visit dag.tasks).map .task ++
    ((dependsOnEntries (c.dependencyOrder.visit dag.tasks)).map fun e =>
      .dependency e.1 e.2) ++ [.event, .audit]

/-- The rows a call has inserted for its run. -/
structure NewRows where
  tasks : List TaskRun
  dependencies : List Dependency
  events : List OutboxEvent
  audits : List AuditEvent

/-- The dependency row of an entry of a `depends_on` list. -/
def Submission.dependencyRow (c : Submission) (run : Run) (dag : DAG) (key dep : String) :
    Dependency :=
  ⟨run.id, taskId c.env dag key, taskId c.env dag dep⟩

/-- The rows with one more. -/
def NewRows.add (c : Submission) (run : Run) (dag : DAG) (rows : NewRows) : RowInsert → NewRows
  | .task entry => { rows with tasks := rows.tasks ++ [newTaskRun c.env run dag entry] }
  | .dependency key dep =>
    { rows with dependencies := rows.dependencies ++ [c.dependencyRow run dag key dep] }
  | .event => { rows with events := rows.events ++ [runCreatedEvent c.env run dag] }
  | .audit => { rows with audits := rows.audits ++
      [newAuditEvent c.env run.tenantId c.userId "run.create" "workflow_run" run.id] }

/-- The row can be inserted : of a dependency, `ids[dep]` is a UUID, and the primary key and the
`CHECK` hold. -/
def NewRows.accepts (c : Submission) (run : Run) (dag : DAG) (rows : NewRows) : RowInsert → Bool
  | .task entry => taskRunInsertable (withDefaults entry.2)
  | .dependency key dep =>
    dep ∈ dag.keys ∧ c.dependencyRow run dag key dep ∉ rows.dependencies ∧
      taskId c.env dag key ≠ taskId c.env dag dep
  | .event | .audit => true

/-- What a call returns. -/
inductive Submitted
  | created (r : Run)
  | existing (r : Run)
  | failed (e : StoreError)

/-- The statement a call is at. -/
inductive SubmitStage
  | selectArtifact
  | selectDefinition (uri : String)
  | insertRun (uri : String) (d : Definition)
  | selectExisting
  | attach (run : Run) (dag : DAG)
  | insertRows (run : Run) (dag : DAG) (todo : List RowInsert) (rows : NewRows)
  | ended (outcome : Submitted)

/-- The run the call has inserted and not committed. -/
def SubmitStage.inserted : SubmitStage → Option Run
  | attach run _ | insertRows run _ _ _ => some run
  | _ => none

/-- The call is past its `SELECT ... FOR UPDATE` and has not ended. -/
def SubmitStage.locking : SubmitStage → Bool
  | selectArtifact | ended _ => false
  | _ => true

/-! ## Steps -/

/-- The committed database, and where each call is. -/
structure Submissions (ι : Type*) where
  db : Db
  stage : ι → SubmitStage

/-- The artifact with the run it is attached to. -/
def attachRow (artifactId : Option ℕ) (runId : ℕ) (artifacts : List Artifact) : List Artifact :=
  Table.update (fun a => artifactId = some a.id)
    (fun a => { a with workflowRunId := some runId }) artifacts

/-- The database with what the call has written. -/
def Submission.commit (c : Submission) (run : Run) (rows : NewRows) (db : Db) : Db :=
  { db with
    workflowRuns := db.workflowRuns ++ [run]
    taskRuns := db.taskRuns ++ rows.tasks
    taskDependencies := db.taskDependencies ++ rows.dependencies
    outboxEvents := db.outboxEvents ++ rows.events
    artifacts := attachRow c.inputArtifactId run.id db.artifacts
    auditEvents := db.auditEvents ++ rows.audits }

/-- The committed run with the key of the call. -/
def Submission.find (c : Submission) (db : Db) : Option Run :=
  db.workflowRuns.find? fun r => r.tenantId = c.tenantId ∧ r.idempotencyKey = c.idempotencyKey

/-- The next statement of a call : the database, and where the call is then. -/
def Submission.step (c : Submission) (db : Db) : SubmitStage → Db × SubmitStage
  | .selectArtifact =>
    if c.idempotencyKey = "" then (db, .ended (.failed .idempotencyKeyRequired))
    else
      match selectInputArtifact c.tenantId c.inputArtifactId db with
      | .ok uri => (db, .selectDefinition uri)
      | .error e => (db, .ended (.failed e))
  | .selectDefinition uri =>
    match db.workflowDefinitions.find? fun d =>
        d.id = c.definitionId ∧ d.tenantId = c.tenantId with
    | some d => (db, .insertRun uri d)
    | none => (db, .ended (.failed .notFound))
  | .insertRun uri d =>
    match c.find db with
    | some _ => (db, .selectExisting)
    | none => (db, .attach (newRun c.env c.tenantId d c.idempotencyKey c.input uri) d.dag)
  | .selectExisting =>
    match c.find db with
    | some r => (db, .ended (.existing r))
    | none => (db, .ended (.failed .noRows))
  | .attach run dag =>
    match attachInputArtifact c.inputArtifactId run.id db.artifacts with
    | .ok _ => (db, .insertRows run dag (c.inserts dag) ⟨[], [], [], []⟩)
    | .error e => (db, .ended (.failed e))
  | .insertRows run dag (x :: todo) rows =>
    if rows.accepts c run dag x then (db, .insertRows run dag todo (rows.add c run dag x))
    else (db, .ended (.failed .database))
  | .insertRows run _ [] rows => (c.commit run rows db, .ended (.created run))
  | .ended outcome => (db, .ended outcome)

section Machine

variable {ι : Type*} [DecidableEq ι] (calls : ι → Submission)

/-- A call can go on : its artifact is not locked by another call, and no other call that is
under way has inserted its key. -/
def Submissions.Enabled (s : Submissions ι) (i : ι) : Prop :=
  match s.stage i with
  | .selectArtifact => ∀ id, (calls i).inputArtifactId = some id →
      (∃ uri, selectInputArtifact (calls i).tenantId (some id) s.db = .ok uri) →
      ∀ j, j ≠ i → (s.stage j).locking = true → (calls j).inputArtifactId ≠ some id
  | .insertRun .. => ∀ j, j ≠ i → ∀ r, (s.stage j).inserted = some r →
      r.submissionKey ≠ (calls i).key
  | .ended _ => False
  | _ => True

/-- What happens next : a statement of a call, or its failure, which rolls the call back. -/
inductive SubmitLabel (ι : Type*)
  | statement (i : ι)
  | failure (i : ι)

/-- The call a label is about. -/
def SubmitLabel.call {ι : Type*} : SubmitLabel ι → ι
  | statement i | failure i => i

/-- Any number of submissions, statement by statement. -/
def submissions : Machine (Submissions ι) (SubmitLabel ι) where
  next s
    | .statement i => ⟨((calls i).step s.db (s.stage i)).1,
        Function.update s.stage i ((calls i).step s.db (s.stage i)).2⟩
    | .failure i => ⟨s.db, Function.update s.stage i (.ended (.failed .database))⟩
  allowed s
    | .statement i => s.Enabled calls i
    | .failure i => ∀ outcome, s.stage i ≠ .ended outcome

/-- No call has begun. -/
def Submissions.init (ι : Type*) (db : Db) : Submissions ι :=
  ⟨db, fun _ => .selectArtifact⟩

/-- The UUIDs of the rows, and those the rows of a run refer to it by. -/
def Db.named (db : Db) : List ℕ :=
  db.ids ++ db.taskRuns.map TaskRun.workflowRunId ++
    db.taskDependencies.map Dependency.workflowRunId ++
    db.outboxEvents.map OutboxEvent.aggregateId

/-- What is assumed of the start : the unique constraint holds, and the UUIDs the calls draw
are new and differ from each other. -/
structure SubmitInit (db : Db) : Prop where
  keys : (db.workflowRuns.map Run.submissionKey).Nodup
  fresh : ∀ i n, (calls i).env.uuid n ∉ db.named
  injective : ∀ i, Function.Injective (calls i).env.uuid
  apart : ∀ i j, i ≠ j → ∀ m n, (calls i).env.uuid m ≠ (calls j).env.uuid n

end Machine

/-! ## The rows of a run -/

section Rows

variable {c : Submission} {run : Run} {dag : DAG}

theorem foldl_add_tasks (entries : List (String × TaskSpec)) (rows : NewRows) :
    (entries.map RowInsert.task).foldl (NewRows.add c run dag) rows =
      { rows with tasks := rows.tasks ++ entries.map (newTaskRun c.env run dag) } := by
  induction entries generalizing rows with
  | nil => simp
  | cons entry entries ih => simp [ih, NewRows.add]

theorem foldl_add_dependencies (es : List (String × String)) (rows : NewRows) :
    (es.map fun e => RowInsert.dependency e.1 e.2).foldl (NewRows.add c run dag) rows =
      { rows with dependencies := rows.dependencies ++
          (es.map fun e => c.dependencyRow run dag e.1 e.2) } := by
  induction es generalizing rows with
  | nil => simp
  | cons e es ih => simp [ih, NewRows.add]

/-- The rows of a call that gets to its end. -/
def Submission.newRows (c : Submission) (run : Run) (dag : DAG) : NewRows where
  tasks := (c.taskOrder.visit dag.tasks).map (newTaskRun c.env run dag)
  dependencies := (dependsOnEntries (c.dependencyOrder.visit dag.tasks)).map fun e =>
    c.dependencyRow run dag e.1 e.2
  events := [runCreatedEvent c.env run dag]
  audits := [newAuditEvent c.env run.tenantId c.userId "run.create" "workflow_run" run.id]

theorem foldl_add_inserts :
    (c.inserts dag).foldl (NewRows.add c run dag) ⟨[], [], [], []⟩ = c.newRows run dag := by
  rw [Submission.inserts, List.foldl_append, List.foldl_append, foldl_add_tasks,
    foldl_add_dependencies]
  simp [NewRows.add, Submission.newRows]

end Rows

/-! ## Copies of a graph -/

/-- The key of the task of the run with the id. -/
def Db.keyOf (db : Db) (run : Run) (id : ℕ) : Option String :=
  (db.taskRuns.find? fun t => t.id = id ∧ t.workflowRunId = run.id).map TaskRun.taskKey

/-- The rows of the run copy the graph. -/
structure CopyOf (db : Db) (run : Run) (dag : DAG) : Prop where
  /-- One task per key, under its own id. -/
  tasks : ((db.taskRuns.filter fun t => t.workflowRunId = run.id).map TaskRun.taskKey).Perm
    dag.keys
  ids : ((db.taskRuns.filter fun t => t.workflowRunId = run.id).map TaskRun.id).Nodup
  /-- One row per entry of a `depends_on` list, between the tasks with the keys. -/
  dependencies : ((db.taskDependencies.filter fun d => d.workflowRunId = run.id).map fun d =>
    (db.keyOf run d.taskRunId, db.keyOf run d.dependsOnTaskRunId)).Perm
      ((dependsOnEntries dag.tasks).map fun e => (some e.1, some e.2))
  status : ∀ t ∈ db.taskRuns, t.workflowRunId = run.id →
    t.status = if dag.dependsOn t.taskKey = [] then .ready else .blocked
  event : (db.outboxEvents.filter fun e =>
    e.eventType = .runCreated ∧ e.aggregateId = run.id).length = 1

section Copy

variable {c : Submission} {run : Run} {dag : DAG} {db : Db}

/-- An id of the graph is drawn for one key. -/
theorem eq_of_taskId (hinj : Function.Injective c.env.uuid) {key key' : String}
    (hkey : key ∈ dag.keys) (h : taskId c.env dag key = taskId c.env dag key') : key = key' := by
  have := hinj h
  exact (List.idxOf_inj hkey).1 (by omega)

theorem mem_taskOrder {entry : String × TaskSpec} :
    entry ∈ c.taskOrder.visit dag.tasks ↔ entry ∈ dag.tasks :=
  (c.taskOrder.perm dag.tasks).mem_iff

theorem workflowRunId_newRows {t : TaskRun} (ht : t ∈ (c.newRows run dag).tasks) :
    t.workflowRunId = run.id := by
  obtain ⟨entry, -, rfl⟩ := List.mem_map.1 ht
  rfl

theorem workflowRunId_newRows_dependencies {d : Dependency}
    (hd : d ∈ (c.newRows run dag).dependencies) : d.workflowRunId = run.id := by
  obtain ⟨e, -, rfl⟩ := List.mem_map.1 hd
  rfl

variable (c dag) in
/-- The tasks of the run are the new ones. -/
theorem filter_commit_tasks (hnew : run.id ∉ db.named) :
    (c.commit run (c.newRows run dag) db).taskRuns.filter (fun t => t.workflowRunId = run.id) =
      (c.newRows run dag).tasks := by
  have hold : ∀ t ∈ db.taskRuns, ¬t.workflowRunId = run.id := by
    intro t ht h
    refine hnew ?_
    simp only [Db.named, List.mem_append, List.mem_map]
    exact .inl (.inl (.inr ⟨t, ht, h⟩))
  rw [Submission.commit, List.filter_append, List.filter_eq_nil_iff.2 (by simpa using hold),
    List.nil_append, List.filter_eq_self]
  exact fun t ht => decide_eq_true (workflowRunId_newRows ht)

theorem filter_commit_dependencies (hnew : run.id ∉ db.named) :
    (c.commit run (c.newRows run dag) db).taskDependencies.filter
      (fun d => d.workflowRunId = run.id) = (c.newRows run dag).dependencies := by
  have hold : ∀ d ∈ db.taskDependencies, ¬d.workflowRunId = run.id := by
    intro d hd h
    refine hnew ?_
    simp only [Db.named, List.mem_append, List.mem_map]
    exact .inl (.inr ⟨d, hd, h⟩)
  rw [Submission.commit, List.filter_append, List.filter_eq_nil_iff.2 (by simpa using hold),
    List.nil_append, List.filter_eq_self]
  exact fun d hd => decide_eq_true (workflowRunId_newRows_dependencies hd)

theorem length_filter_commit_events (hnew : run.id ∉ db.named) :
    ((c.commit run (c.newRows run dag) db).outboxEvents.filter fun e =>
      e.eventType = .runCreated ∧ e.aggregateId = run.id).length = 1 := by
  have hold : ∀ e ∈ db.outboxEvents, ¬(e.eventType = .runCreated ∧ e.aggregateId = run.id) := by
    intro e he h
    refine hnew ?_
    simp only [Db.named, List.mem_append, List.mem_map]
    exact .inr ⟨e, he, h.2⟩
  simp only [Submission.commit, List.filter_append, Submission.newRows]
  rw [List.filter_eq_nil_iff.2 (by simpa using hold), List.nil_append]
  simp [runCreatedEvent, newEvent]

/-- In the new rows, the id of a key is found at the task with the key. -/
theorem keyOf_commit (hnew : run.id ∉ db.named) (hinj : Function.Injective c.env.uuid)
    {key : String} (hkey : key ∈ dag.keys) :
    (c.commit run (c.newRows run dag) db).keyOf run (taskId c.env dag key) = some key := by
  obtain ⟨entry, hentry, rfl⟩ := List.mem_map.1 hkey
  have hrow := mem_taskOrder (c := c).2 hentry
  have hfound : ((c.commit run (c.newRows run dag) db).taskRuns.find? fun t =>
      t.id = taskId c.env dag entry.1 ∧ t.workflowRunId = run.id).isSome := by
    refine List.find?_isSome.2 ⟨newTaskRun c.env run dag entry, ?_, by simp [newTaskRun]⟩
    exact List.mem_append_right _ (List.mem_map_of_mem hrow)
  obtain ⟨t, ht⟩ := Option.isSome_iff_exists.1 hfound
  have hp : t.id = taskId c.env dag entry.1 ∧ t.workflowRunId = run.id := by
    simpa using List.find?_some ht
  have hmem : t ∈ (c.newRows run dag).tasks := by
    rw [← filter_commit_tasks c dag hnew]
    exact List.mem_filter.2 ⟨List.mem_of_find?_eq_some ht, decide_eq_true hp.2⟩
  obtain ⟨entry', hentry', rfl⟩ := List.mem_map.1 hmem
  have hkeys : entry'.1 = entry.1 :=
    eq_of_taskId hinj (List.mem_map_of_mem (mem_taskOrder.1 hentry')) hp.1
  rw [Db.keyOf, ht]
  exact congrArg some hkeys

/-- What a call commits copies its graph. -/
theorem copyOf_commit (hnew : run.id ∉ db.named) (hinj : Function.Injective c.env.uuid)
    (hdeps : ∀ e ∈ dependsOnEntries dag.tasks, e.2 ∈ dag.keys) :
    CopyOf (c.commit run (c.newRows run dag) db) run dag where
  tasks := by
    rw [filter_commit_tasks c dag hnew, Submission.newRows, List.map_map]
    exact (c.taskOrder.perm dag.tasks).map Prod.fst
  ids := by
    rw [filter_commit_tasks c dag hnew, Submission.newRows, List.map_map]
    refine ((c.taskOrder.perm dag.tasks).map _).nodup_iff.2 ?_
    have hids : dag.tasks.map (TaskRun.id ∘ newTaskRun c.env run dag) =
        dag.keys.map (taskId c.env dag) := by simp [DAG.keys, newTaskRun]
    rw [hids]
    exact dag.nodup.map_on fun key hkey key' _ h => eq_of_taskId hinj hkey h
  dependencies := by
    have hperm : (dependsOnEntries (c.dependencyOrder.visit dag.tasks)).Perm
        (dependsOnEntries dag.tasks) := (c.dependencyOrder.perm dag.tasks).flatMap_right _
    rw [filter_commit_dependencies hnew, Submission.newRows, List.map_map]
    refine List.Perm.trans (.of_eq (List.map_congr_left fun e he => ?_)) (hperm.map _)
    have hmem := hperm.mem_iff.1 he
    have hkey : e.1 ∈ dag.keys := by
      obtain ⟨entry, hentry, hdep⟩ := List.mem_flatMap.1 hmem
      obtain ⟨dep, -, rfl⟩ := List.mem_map.1 hdep
      exact List.mem_map_of_mem hentry
    exact Prod.ext (keyOf_commit hnew hinj hkey) (keyOf_commit hnew hinj (hdeps e hmem))
  status := by
    intro t ht hrun
    have hmem : t ∈ (c.newRows run dag).tasks := by
      rw [← filter_commit_tasks c dag hnew]
      exact List.mem_filter.2 ⟨ht, decide_eq_true hrun⟩
    obtain ⟨entry, hentry, rfl⟩ := List.mem_map.1 hmem
    have hdep : dag.dependsOn entry.1 = entry.2.dependsOn :=
      dag.dependsOn_of_mem (mem_taskOrder.1 hentry)
    simp only [newTaskRun, hdep, List.length_eq_zero_iff]
    rfl
  event := length_filter_commit_events hnew

/-- The commit of another run leaves a copy. -/
theorem CopyOf.commit {r : Run} {dag' : DAG} (h : CopyOf db r dag') (hne : run.id ≠ r.id) :
    CopyOf (c.commit run (c.newRows run dag) db) r dag' := by
  have htasks : (c.commit run (c.newRows run dag) db).taskRuns.filter
      (fun t => t.workflowRunId = r.id) = db.taskRuns.filter (fun t => t.workflowRunId = r.id) := by
    rw [Submission.commit, List.filter_append, List.append_right_eq_self, List.filter_eq_nil_iff]
    intro t ht
    simpa [workflowRunId_newRows ht] using hne
  have hdeps : (c.commit run (c.newRows run dag) db).taskDependencies.filter
      (fun d => d.workflowRunId = r.id) =
        db.taskDependencies.filter (fun d => d.workflowRunId = r.id) := by
    rw [Submission.commit, List.filter_append, List.append_right_eq_self, List.filter_eq_nil_iff]
    intro d hd
    simpa [workflowRunId_newRows_dependencies hd] using hne
  have hkey : ∀ id, (c.commit run (c.newRows run dag) db).keyOf r id = db.keyOf r id := by
    intro id
    have hnone : (c.newRows run dag).tasks.find?
        (fun t => t.id = id ∧ t.workflowRunId = r.id) = none := by
      simp [Submission.newRows, newTaskRun, hne]
    simp only [Db.keyOf, Submission.commit, List.find?_append, hnone, Option.or_none]
  refine ⟨by rw [htasks]; exact h.tasks, by rw [htasks]; exact h.ids, ?_, ?_, ?_⟩
  · rw [hdeps]
    simpa only [hkey] using h.dependencies
  · intro t ht hrun
    rcases List.mem_append.1 ht with ht | ht
    · exact h.status t ht hrun
    · obtain ⟨entry, -, rfl⟩ := List.mem_map.1 ht
      exact absurd hrun hne
  · simp only [Submission.commit, List.filter_append, Submission.newRows]
    rw [List.length_append, h.event]
    simp [runCreatedEvent, newEvent, hne]

end Copy

/-! ## Runs of submissions -/

/-- The definition the call reads. -/
def Submission.Names (c : Submission) (db : Db) (d : Definition) : Prop :=
  d ∈ db.workflowDefinitions ∧ d.id = c.definitionId ∧ d.tenantId = c.tenantId

/-- The run the call inserts, for the definition it has read. -/
def Submission.Inserts (c : Submission) (db : Db) (run : Run) (dag : DAG) : Prop :=
  ∃ d uri, c.Names db d ∧ d.dag = dag ∧
    run = newRun c.env c.tenantId d c.idempotencyKey c.input uri

/-- What a call knows at a statement, `db` being committed. -/
def Submission.Knows (c : Submission) (db : Db) : SubmitStage → Prop
  | .insertRun _ d => c.Names db d
  | .attach run dag => c.Inserts db run dag ∧ ∀ r ∈ db.workflowRuns, r.submissionKey ≠ c.key
  | .insertRows run dag todo rows =>
    (c.Inserts db run dag ∧ ∀ r ∈ db.workflowRuns, r.submissionKey ≠ c.key) ∧
    todo.foldl (NewRows.add c run dag) rows = c.newRows run dag ∧
    ∀ e ∈ dependsOnEntries dag.tasks, .dependency e.1 e.2 ∈ todo ∨ e.2 ∈ dag.keys
  | .ended (.created r) => r ∈ db.workflowRuns ∧ ∃ dag, c.Inserts db r dag ∧ CopyOf db r dag
  | .ended (.existing r) => r ∈ db.workflowRuns ∧ r.submissionKey = c.key
  | _ => True

theorem Submission.Inserts.key {c : Submission} {db : Db} {run : Run} {dag : DAG}
    (h : c.Inserts db run dag) : run.submissionKey = c.key := by
  obtain ⟨d, uri, -, -, rfl⟩ := h
  rfl

theorem Submission.Inserts.id {c : Submission} {db : Db} {run : Run} {dag : DAG}
    (h : c.Inserts db run dag) : run.id = c.env.uuid 0 := by
  obtain ⟨d, uri, -, -, rfl⟩ := h
  rfl

/-- A call that has inserted its run, and not ended, is the only one with its key. -/
theorem Submission.Knows.inserted {c : Submission} {db : Db} {stage : SubmitStage} {run : Run}
    (h : c.Knows db stage) (hrun : stage.inserted = some run) :
    (∃ dag, c.Inserts db run dag) ∧ ∀ r ∈ db.workflowRuns, r.submissionKey ≠ c.key := by
  cases stage with
  | attach run' dag =>
    obtain rfl : run' = run := Option.some.inj hrun
    exact ⟨⟨dag, h.1⟩, h.2⟩
  | insertRows run' dag todo rows =>
    obtain rfl : run' = run := Option.some.inj hrun
    exact ⟨⟨dag, h.1.1⟩, h.1.2⟩
  | _ => exact nomatch hrun

/-- What a call knows survives the commit of another, unless that takes its key. -/
theorem Submission.Knows.commit {c c' : Submission} {db : Db} {stage : SubmitStage} {run : Run}
    {dag : DAG} (h : c.Knows db stage)
    (hkey : ∀ r, stage.inserted = some r → run.submissionKey ≠ c.key)
    (hid : run.id ≠ c.env.uuid 0) :
    c.Knows (c'.commit run (c'.newRows run dag) db) stage := by
  have hfree : ∀ r, stage.inserted = some r →
      ∀ r' ∈ (c'.commit run (c'.newRows run dag) db).workflowRuns, r'.submissionKey ≠ c.key := by
    intro r hr r' hr'
    rcases List.mem_append.1 hr' with hr' | hr'
    · exact (h.inserted hr).2 r' hr'
    · rw [List.mem_singleton.1 hr']
      exact hkey r hr
  cases stage with
  | selectArtifact => trivial
  | selectDefinition uri => trivial
  | insertRun uri d => exact h
  | selectExisting => trivial
  | attach r g => exact ⟨h.1, hfree r rfl⟩
  | insertRows r g todo rows => exact ⟨⟨h.1.1, hfree r rfl⟩, h.2⟩
  | ended outcome =>
    cases outcome with
    | failed e => trivial
    | existing r => exact ⟨List.mem_append_left _ h.1, h.2⟩
    | created r =>
      obtain ⟨hr, g, hins, hcopy⟩ := h
      exact ⟨List.mem_append_left _ hr, g, hins, hcopy.commit (hins.id ▸ hid)⟩

section Run

variable {ι : Type*} [DecidableEq ι] {calls : ι → Submission} {db₀ : Db}

variable (calls db₀) in
/-- What holds of the calls together. -/
structure Submitting (s : Submissions ι) : Prop where
  definitions : s.db.workflowDefinitions = db₀.workflowDefinitions
  keys : (s.db.workflowRuns.map Run.submissionKey).Nodup
  knows : ∀ i, (calls i).Knows s.db (s.stage i)
  /-- One call at a time has inserted a key. -/
  alone : ∀ i j r r', i ≠ j → (s.stage i).inserted = some r → (s.stage j).inserted = some r' →
    r.submissionKey ≠ r'.submissionKey
  /-- One call commits a key. -/
  once : ∀ i j r r', i ≠ j → s.stage i = .ended (.created r) → s.stage j = .ended (.created r') →
    (calls i).key ≠ (calls j).key
  /-- The new UUIDs are those of the calls that have committed. -/
  named : ∀ x ∈ s.db.named, x ∈ db₀.named ∨
    ∃ i r n, s.stage i = .ended (.created r) ∧ x = (calls i).env.uuid n

omit [DecidableEq ι] in
theorem Submitting.init (h : SubmitInit calls db₀) :
    Submitting calls db₀ (Submissions.init ι db₀) where
  definitions := rfl
  keys := h.keys
  knows _ := trivial
  alone _ _ _ _ _ hi := nomatch hi
  once _ _ _ _ _ hi := nomatch hi
  named _ hx := .inl hx

variable {s : Submissions ι} {i : ι}

/-- A statement that writes nothing others can see. -/
theorem Submitting.move (h : Submitting calls db₀ s) {stage : SubmitStage}
    (hknows : (calls i).Knows s.db stage) (hold : ∀ r, s.stage i ≠ .ended (.created r))
    (hnew : ∀ r, stage ≠ .ended (.created r))
    (halone : ∀ r, stage.inserted = some r → ∀ j, j ≠ i → ∀ r', (s.stage j).inserted = some r' →
      r'.submissionKey ≠ r.submissionKey) :
    Submitting calls db₀ ⟨s.db, Function.update s.stage i stage⟩ where
  definitions := h.definitions
  keys := h.keys
  knows j := by
    by_cases hj : j = i
    · subst hj
      simpa using hknows
    · simpa [Function.update_of_ne hj] using h.knows j
  alone j k r r' hjk hj hk := by
    simp only [Function.update_apply] at hj hk
    split_ifs at hj hk with hji hki hki
    · exact absurd (hji.trans hki.symm) hjk
    · exact (halone r hj k hki r' hk).symm
    · exact halone r' hk j hji r hj
    · exact h.alone j k r r' hjk hj hk
  once j k r r' hjk hj hk := by
    simp only [Function.update_apply] at hj hk
    split_ifs at hj hk with hji hki hki
    · exact absurd hj (hnew r)
    · exact absurd hj (hnew r)
    · exact absurd hk (hnew r')
    · exact h.once j k r r' hjk hj hk
  named x hx := by
    rcases h.named x hx with hx | ⟨j, r, n, hj, hn⟩
    · exact .inl hx
    · refine .inr ⟨j, r, n, ?_, hn⟩
      have hji : j ≠ i := by
        rintro rfl
        exact hold r hj
      simpa [Function.update_of_ne hji] using hj

/-- A statement of a call that has inserted its run, or has not, and then does not. -/
theorem Submitting.move_same (h : Submitting calls db₀ s) {stage : SubmitStage}
    (hknows : (calls i).Knows s.db stage) (hold : ∀ r, s.stage i ≠ .ended (.created r))
    (hnew : ∀ r, stage ≠ .ended (.created r))
    (hsame : ∀ r, stage.inserted = some r → (s.stage i).inserted = some r) :
    Submitting calls db₀ ⟨s.db, Function.update s.stage i stage⟩ := by
  refine h.move hknows hold hnew fun r hr j hj r' hr' => ?_
  exact h.alone j i r' r hj hr' (hsame r hr)

/-- A statement after which the call has not inserted a run. -/
theorem Submitting.move_idle (h : Submitting calls db₀ s) {stage : SubmitStage}
    (hknows : (calls i).Knows s.db stage) (hold : ∀ r, s.stage i ≠ .ended (.created r))
    (hnew : ∀ r, stage ≠ .ended (.created r)) (hnone : stage.inserted = none) :
    Submitting calls db₀ ⟨s.db, Function.update s.stage i stage⟩ :=
  h.move_same hknows hold hnew (by simp [hnone])

theorem mem_named_commit {c : Submission} {run : Run} {dag : DAG} {db : Db}
    (hrun : run.id = c.env.uuid 0) {x : ℕ} (hx : x ∈ (c.commit run (c.newRows run dag) db).named) :
    x ∈ db.named ∨ ∃ n, x = c.env.uuid n := by
  simp only [Db.named, Db.ids, Submission.commit, List.map_append, List.mem_append,
    Submission.newRows, List.map_map, List.map_cons, List.map_nil, List.mem_singleton] at hx ⊢
  have htask : ∀ {g : TaskRun → ℕ}, (∀ entry, ∃ n, g (newTaskRun c.env run dag entry) =
      c.env.uuid n) → ∀ {entries : List (String × TaskSpec)},
      x ∈ entries.map (g ∘ newTaskRun c.env run dag) → ∃ n, x = c.env.uuid n := by
    intro g hg entries hx
    obtain ⟨entry, -, rfl⟩ := List.mem_map.1 hx
    exact hg entry
  rcases hx with (((((hx | hx | hx) | hx | hx) | hx | hx) | hx | hx) | hx | hx) | hx | hx
  · tauto
  · tauto
  · exact .inr ⟨0, hx.trans hrun⟩
  · tauto
  · exact .inr (htask (fun entry => ⟨_, rfl⟩) hx)
  · tauto
  · exact .inr ⟨_, hx⟩
  · tauto
  · exact .inr (htask (fun entry => ⟨0, hrun⟩) hx)
  · tauto
  · obtain ⟨e, -, rfl⟩ := List.mem_map.1 hx
    exact .inr ⟨0, hrun⟩
  · tauto
  · exact .inr ⟨0, hx.trans hrun⟩

/-- A commit. -/
theorem Submitting.commit (hinit : SubmitInit calls db₀) (h : Submitting calls db₀ s) {run : Run}
    {dag : DAG} {rows : NewRows} (hstage : s.stage i = .insertRows run dag [] rows) :
    Submitting calls db₀ ⟨(calls i).commit run rows s.db,
      Function.update s.stage i (.ended (.created run))⟩ := by
  have hknows := h.knows i
  rw [hstage] at hknows
  obtain ⟨⟨hins, hfree⟩, hrows, hchecked⟩ := hknows
  obtain rfl : rows = (calls i).newRows run dag := hrows
  have hinserted : (s.stage i).inserted = some run := by rw [hstage]; rfl
  have hnotEnded : ∀ r, s.stage i ≠ .ended (.created r) := by simp [hstage]
  have hnew : run.id ∉ s.db.named := by
    intro hmem
    rcases h.named _ hmem with hmem | ⟨j, r, n, hj, hn⟩
    · exact hinit.fresh i 0 (hins.id ▸ hmem)
    · refine hinit.apart i j ?_ 0 n (hins.id ▸ hn)
      rintro rfl
      exact hnotEnded r hj
  refine ⟨h.definitions, ?_, fun j => ?_, ?_, ?_, ?_⟩
  · have : ((calls i).commit run ((calls i).newRows run dag) s.db).workflowRuns.map
        Run.submissionKey = s.db.workflowRuns.map Run.submissionKey ++ [(calls i).key] := by
      simp [Submission.commit, hins.key]
    rw [this]
    refine List.nodup_append.2 ⟨h.keys, by simp, ?_⟩
    intro key hkey key' hkey' heq
    obtain ⟨r, hr, rfl⟩ := List.mem_map.1 hkey
    exact hfree r hr (heq.trans (List.mem_singleton.1 hkey'))
  · by_cases hj : j = i
    · subst hj
      simp only [Function.update_self]
      refine ⟨List.mem_append_right _ (by simp), dag, hins, ?_⟩
      exact copyOf_commit hnew (hinit.injective j) fun e he =>
        (hchecked e he).resolve_left (by simp)
    · simp only [Function.update_of_ne hj]
      refine (h.knows j).commit (fun r hr => ?_) (hins.id ▸ hinit.apart i j (Ne.symm hj) 0 0)
      obtain ⟨⟨g, hinsj⟩, -⟩ := (h.knows j).inserted hr
      exact hinsj.key ▸ h.alone i j run r (Ne.symm hj) hinserted hr
  · intro j k r r' hjk hj hk
    simp only [Function.update_apply] at hj hk
    split_ifs at hj hk with hji hki hki
    · exact nomatch hj
    · exact nomatch hj
    · exact nomatch hk
    · exact h.alone j k r r' hjk hj hk
  · have hne : ∀ j r, j ≠ i → s.stage j = .ended (.created r) → (calls j).key ≠ (calls i).key := by
      intro j r _ hj
      have hj' := h.knows j
      rw [hj] at hj'
      obtain ⟨hr, g, hinsj, -⟩ := hj'
      exact hinsj.key ▸ hfree r hr
    intro j k r r' hjk hj hk
    simp only [Function.update_apply] at hj hk
    split_ifs at hj hk with hji hki hki
    · exact absurd (hji.trans hki.symm) hjk
    · rw [hji]
      exact (hne k r' hki hk).symm
    · rw [hki]
      exact hne j r hji hj
    · exact h.once j k r r' hjk hj hk
  · intro x hx
    rcases mem_named_commit hins.id hx with hx | ⟨n, hn⟩
    · rcases h.named x hx with hx | ⟨j, r, n, hj, hn⟩
      · exact .inl hx
      · have hji : j ≠ i := by
          rintro rfl
          exact hnotEnded r hj
        exact .inr ⟨j, r, n, by simpa [Function.update_of_ne hji] using hj, hn⟩
    · exact .inr ⟨i, run, n, by simp, hn⟩

/-- A search for the key of the call that finds nothing. -/
theorem Submission.find_eq_none {c : Submission} {db : Db} (h : c.find db = none) :
    ∀ r ∈ db.workflowRuns, r.submissionKey ≠ c.key := by
  intro r hr heq
  have := List.find?_eq_none.1 h r hr
  simp only [decide_eq_true_eq] at this
  exact this (Prod.ext_iff.1 heq)

theorem Submission.find_eq_some {c : Submission} {db : Db} {r : Run} (h : c.find db = some r) :
    r ∈ db.workflowRuns ∧ r.submissionKey = c.key := by
  have hp : r.tenantId = c.tenantId ∧ r.idempotencyKey = c.idempotencyKey := by
    simpa using List.find?_some h
  exact ⟨List.mem_of_find?_eq_some h, Prod.ext hp.1 hp.2⟩

theorem dependency_mem_inserts {c : Submission} {dag : DAG} {e : String × String}
    (he : e ∈ dependsOnEntries dag.tasks) : .dependency e.1 e.2 ∈ c.inserts dag := by
  have hperm : (dependsOnEntries (c.dependencyOrder.visit dag.tasks)).Perm
      (dependsOnEntries dag.tasks) := (c.dependencyOrder.perm dag.tasks).flatMap_right _
  refine List.mem_append_left _ (List.mem_append_right _ (List.mem_map.2 ⟨e, ?_, rfl⟩))
  exact hperm.mem_iff.2 he

/-- A statement of a call, when it is not to wait. -/
theorem Submitting.statement (hinit : SubmitInit calls db₀) (h : Submitting calls db₀ s)
    (henabled : s.Enabled calls i) :
    Submitting calls db₀ ((submissions calls).next s (.statement i)) := by
  have hknows := h.knows i
  have hold : ∀ r, s.stage i ≠ .ended (.created r) := fun r hr => by
    simp only [Submissions.Enabled, hr] at henabled
  simp only [submissions]
  generalize hstage : s.stage i = stage at hknows
  cases stage with
  | selectArtifact =>
    simp only [Submission.step]
    split_ifs
    · exact h.move_idle trivial hold (by simp) rfl
    · split
      · exact h.move_idle trivial hold (by simp) rfl
      · exact h.move_idle trivial hold (by simp) rfl
  | selectDefinition uri =>
    simp only [Submission.step]
    split
    · next d hd =>
      have hp : d.id = (calls i).definitionId ∧ d.tenantId = (calls i).tenantId := by
        simpa using List.find?_some hd
      exact h.move_idle ⟨List.mem_of_find?_eq_some hd, hp⟩ hold (by simp) rfl
    · exact h.move_idle trivial hold (by simp) rfl
  | insertRun uri d =>
    simp only [Submission.step]
    split
    · exact h.move_idle trivial hold (by simp) rfl
    · next hnone =>
      have hins : (calls i).Inserts s.db (newRun (calls i).env (calls i).tenantId d
          (calls i).idempotencyKey (calls i).input uri) d.dag := ⟨d, uri, hknows, rfl, rfl⟩
      refine h.move ⟨hins, Submission.find_eq_none hnone⟩ hold (by simp) ?_
      rintro r hr j hj r' hr'
      obtain rfl := Option.some.inj hr
      simp only [Submissions.Enabled, hstage] at henabled
      exact hins.key ▸ henabled j hj r' hr'
  | selectExisting =>
    simp only [Submission.step]
    split
    · next r hr =>
      exact h.move_idle (Submission.find_eq_some hr) hold (by simp) rfl
    · exact h.move_idle trivial hold (by simp) rfl
  | attach run dag =>
    simp only [Submission.step]
    split
    · refine h.move_same ⟨hknows, foldl_add_inserts, fun e he => ?_⟩ hold (by simp)
        fun r hr => by rw [hstage]; exact hr
      exact .inl (dependency_mem_inserts he)
    · exact h.move_idle trivial hold (by simp) rfl
  | insertRows run dag todo rows =>
    cases todo with
    | nil => exact h.commit hinit hstage
    | cons x todo =>
      simp only [Submission.step]
      split_ifs with hx
      · refine h.move_same ⟨hknows.1, hknows.2.1, fun e he => ?_⟩ hold (by simp)
          fun r hr => by rw [hstage]; exact hr
        rcases hknows.2.2 e he with hmem | hmem
        · rcases List.mem_cons.1 hmem with rfl | hmem
          · simp only [NewRows.accepts, decide_eq_true_eq] at hx
            exact .inr hx.1
          · exact .inl hmem
        · exact .inr hmem
      · exact h.move_idle trivial hold (by simp) rfl
  | ended outcome =>
    simp only [Submissions.Enabled, hstage] at henabled

theorem Submitting.next (hinit : SubmitInit calls db₀) (s : Submissions ι) (a : SubmitLabel ι)
    (h : Submitting calls db₀ s) (ha : (submissions calls).allowed s a) :
    Submitting calls db₀ ((submissions calls).next s a) := by
  cases a with
  | statement i => exact h.statement hinit ha
  | failure i => exact h.move_idle trivial (fun r => ha _) (by simp) rfl

/-- A step that is not a commit writes nothing others can see. -/
theorem db_next_or_created (s : Submissions ι) (a : SubmitLabel ι) :
    ((submissions calls).next s a).db = s.db ∨
      ∃ r, ((submissions calls).next s a).stage a.call = .ended (.created r) := by
  cases a with
  | failure i => exact .inl rfl
  | statement i =>
    simp only [submissions, SubmitLabel.call, Function.update_self]
    unfold Submission.step
    split
    any_goals exact .inl rfl
    all_goals first | exact .inr ⟨_, rfl⟩ | (split <;> try split) <;> exact .inl rfl

/-- A call that has ended takes no further step. -/
theorem stage_of_ended {outcome : Submitted} {as : List (SubmitLabel ι)}
    (hended : s.stage i = .ended outcome) (has : (submissions calls).Valid s as) :
    ((submissions calls).run s as).stage i = .ended outcome := by
  refine (submissions calls).invariant (P := fun s => s.stage i = .ended outcome)
    (fun s a h ha => ?_) hended has
  cases a with
  | statement j =>
    have hij : i ≠ j := by
      rintro rfl
      simp [submissions, Submissions.Enabled, h] at ha
    exact (Function.update_of_ne hij _ _).trans h
  | failure j =>
    have hij : i ≠ j := by
      rintro rfl
      exact ha _ h
    exact (Function.update_of_ne hij _ _).trans h

/-- However submissions interleave, a key has one run, one call creates it and the others get
it, a call that does not create leaves the tables alone, and what is created is a copy of the
graph. -/
theorem submissions_idempotent (hinit : SubmitInit calls db₀) {as : List (SubmitLabel ι)}
    (has : (submissions calls).Valid (Submissions.init ι db₀) as) :
    let s := (submissions calls).run (Submissions.init ι db₀) as
    (s.db.workflowRuns.map Run.submissionKey).Nodup ∧
    (∀ i j r r', s.stage i = .ended (.created r) → s.stage j = .ended (.created r') →
      (calls i).key = (calls j).key → i = j) ∧
    (∀ i r, s.stage i = .ended (.existing r) →
      r ∈ s.db.workflowRuns ∧ r.submissionKey = (calls i).key) ∧
    (∀ i, (∀ r, s.stage i ≠ .ended (.created r)) →
      (submissions calls).Along (fun s a => a.call = i → ((submissions calls).next s a).db = s.db)
        (Submissions.init ι db₀) as) ∧
    ∀ i r, s.stage i = .ended (.created r) →
      r ∈ s.db.workflowRuns ∧ r.submissionKey = (calls i).key ∧
        ∃ d, (calls i).Names s.db d ∧ CopyOf s.db r d.dag := by
  intro s
  have h : Submitting calls db₀ s :=
    (submissions calls).invariant (Submitting.next hinit) (.init hinit) has
  refine ⟨h.keys, fun i j r r' hi hj hkey => ?_, fun i r hi => ?_, fun i hi => ?_,
    fun i r hi => ?_⟩
  · by_contra hij
    exact h.once i j r r' hij hi hj hkey
  · have hknows := h.knows i
    rwa [hi] at hknows
  · rw [Machine.along_iff_prefix]
    rintro bs a ⟨cs, rfl⟩ rfl
    rcases db_next_or_created ((submissions calls).run (Submissions.init ι db₀) bs) a with
      hdb | ⟨r, hr⟩
    · exact hdb
    · refine absurd ?_ (hi r)
      rw [← Machine.run_snoc] at hr
      have hcs := ((submissions calls).along_append _ _ _ _).1 has
      simpa [s, Machine.run_append] using stage_of_ended hr hcs.2
  · have hknows := h.knows i
    rw [hi] at hknows
    obtain ⟨hr, dag, hins, hcopy⟩ := hknows
    obtain ⟨d, uri, hd, rfl, rfl⟩ := hins
    exact ⟨hr, rfl, d, hd, hcopy⟩

end Run

/-- The entries in the order of the map, or backwards. -/
def RangeOrder.ofBool : Bool → RangeOrder
  | false => ⟨id, fun _ => .refl _⟩
  | true => ⟨List.reverse, List.reverse_perm⟩

/-- Two submissions of the chain under one key. -/
def submittedTwice (i : Bool) : Submission where
  env := ⟨0, 0, fun n => 10 + 2 * n + i.toNat, ""⟩
  tenantId := 1
  userId := none
  definitionId := 1
  idempotencyKey := "k"
  input := ""
  inputArtifactId := none
  taskOrder := .ofBool i
  dependencyOrder := .ofBool !i

/-- The first inserts its run, the second has to wait for it to commit. -/
def waitForCommit : List (SubmitLabel Bool) :=
  [.statement false, .statement true, .statement true, .statement false, .statement false] ++
    .replicate 7 (.statement false) ++ [.statement true, .statement true]

theorem submissions_idempotent_submittedTwice :
    let s := (submissions submittedTwice).run (Submissions.init Bool twoDefinitions.db)
      waitForCommit
    ∃ (r : Run) (d : Definition), s.stage false = .ended (.created r) ∧
      s.stage true = .ended (.existing r) ∧
      d.id = 1 ∧ CopyOf s.db r d.dag := by
  have hinit : SubmitInit submittedTwice twoDefinitions.db := by
    refine ⟨by decide, fun i n => ?_, fun i m n h => ?_, fun i j hij m n h => ?_⟩
    · have hnamed : twoDefinitions.db.named = [1, 2] := rfl
      simp only [hnamed, submittedTwice, List.mem_cons, List.not_mem_nil, or_false]
      omega
    · simp only [submittedTwice] at h
      omega
    · cases i <;> cases j <;> simp [submittedTwice] at h hij <;> omega
  have hwait : ∀ j, j ≠ true → ∀ r, (((submissions submittedTwice).run
      (Submissions.init Bool twoDefinitions.db) (waitForCommit.take 12)).stage j).inserted =
        some r → r.submissionKey ≠ (submittedTwice true).key := by
    intro j hj r hr
    cases j with
    | false => exact nomatch hr
    | true => exact absurd rfl hj
  have hfirst : ∀ j, j ≠ false → ∀ r, (((submissions submittedTwice).run
      (Submissions.init Bool twoDefinitions.db) (waitForCommit.take 4)).stage j).inserted =
        some r → r.submissionKey ≠ (submittedTwice false).key := by
    intro j hj r hr
    cases j with
    | false => exact absurd rfl hj
    | true => exact nomatch hr
  have hvalid : (submissions submittedTwice).Valid (Submissions.init Bool twoDefinitions.db)
      waitForCommit :=
    ⟨nofun, nofun, trivial, trivial, hfirst, trivial, trivial, trivial, trivial, trivial, trivial,
      trivial, hwait, trivial, trivial⟩
  obtain ⟨-, -, -, -, hcreated⟩ := submissions_idempotent hinit hvalid
  obtain ⟨-, -, d, hd, hcopy⟩ := hcreated false _ rfl
  exact ⟨_, d, rfl, rfl, hd.2.1, hcopy⟩

end RunMesh
