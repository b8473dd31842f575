import RunMesh.FailurePath
import RunMesh.Serialisation

/-!
# A failure against a cancellation

`CancelRun` leaves the tasks with a lease alone : their failure is to make them `CANCELLED`.
`FailTask` and `recoverExpired` decide that on the status of the run, which they read
without a lock. Let one of them be interleaved with `CancelRun` statement by statement under
READ COMMITTED. If neither has begun what matters to it when the other ends, the statuses
are those of one of the two orders. If the failure has read the run before the cancellation
ends, or the cancellation has read the tasks before the failure ends, the run is cancelled
and its task waits for a retry or is dead, as in neither order.
-/

namespace RunMesh

open ReadCommitted Fallible

/-! ## The cancellation -/

/-- The runs `CancelRun` cancels. -/
def cancellable (tenantId runId : ℕ) (r : Run) : Bool :=
  r.id = runId ∧ r.tenantId = tenantId ∧ r.status.open = true

/-- The tasks it cancels. -/
def waitingOf (runId : ℕ) (t : TaskRun) : Bool :=
  t.workflowRunId = runId ∧ t.status.waiting

/-- Its first statement. -/
def cancelRuns (env : Env) (tenantId runId : ℕ) : Stmt Db RowKey Result :=
  updateRuns (cancellable tenantId runId)
    fun r => { r with status := .cancelled, completedAt := some env.now }

/-- Its last statement. -/
def auditCancel (env : Env) (tenantId : ℕ) (userId : Option ℕ) (runId : ℕ) :
    Stmt Db RowKey Result :=
  insertAudit (newAuditEvent env tenantId userId "run.cancel" "workflow_run" runId)

/-- The statements after the first. -/
def cancelRest (env : Env) (tenantId : ℕ) (userId : Option ℕ) (runId : ℕ) (cancelled : Result) :
    SqlProgram :=
  if cancelled.count = 0 then
    .stmt (countRuns fun r => r.id = runId ∧ r.tenantId = tenantId) fun existing =>
      .rollback (if existing.count = 0 then .notFound else .conflict)
  else
    .stmt (cancelTasks env runId) fun _ =>
      .stmt (auditCancel env tenantId userId runId) fun _ => .commit

section Cancel

variable {env : Env} {tenantId runId : ℕ} {userId : Option ℕ} {db₀ db : Db}
  {t : SqlTx}

theorem cancelRunTx_eq : cancelRunTx env tenantId userId runId =
    .stmt (cancelRuns env tenantId runId) (cancelRest env tenantId userId runId) :=
  rfl

theorem cancelRun_of_none (env : Env) (userId : Option ℕ)
    (h : ∀ r ∈ db.workflowRuns, ¬cancellable tenantId runId r = true) :
    ∃ e, cancelRun env tenantId userId runId db = .error e := by
  cases hok : cancelRun env tenantId userId runId db with
  | error e => exact ⟨e, rfl⟩
  | ok db' =>
    obtain ⟨⟨r, hr, hopen⟩, -⟩ := cancelRun_ok hok
    exact absurd (decide_eq_true hopen) (h r hr)

/-- A cancellation that finds no run to cancel, before or after, fails. -/
theorem cancelRunTx_resume_of_none
    (h₀ : ∀ r ∈ db₀.workflowRuns, ¬cancellable tenantId runId r = true)
    (h : ∀ r ∈ db.workflowRuns, ¬cancellable tenantId runId r = true)
    (hal : (cancelRunTx env tenantId userId runId).Reaches db₀ t) :
    ∃ e, t.resume db = .error e := by
  have hzero : ∀ d, cancelRest env tenantId userId runId
      ((cancelRuns env tenantId runId).result db₀ d) =
      .stmt (countRuns fun r => r.id = runId ∧ r.tenantId = tenantId) fun existing =>
        .rollback (if existing.count = 0 then .notFound else .conflict) := fun d =>
    if_pos (List.countP_eq_zero.2 fun r _ => Table.not_requalifies h₀ r)
  rcases hal.peel cancelRunTx_eq rfl with hat | ⟨t₁, hpast, hal⟩
  · rcases hat.resume cancelRunTx_eq db with ⟨-, hres⟩ | ⟨-, hres⟩
    · obtain ⟨e, he⟩ := cancelRun_of_none env userId h
      exact ⟨e, hres.trans ((cancelRunTx_exec ..).trans he)⟩
    · exact ⟨_, hres.trans (congrArg (Program.exec · _) (hzero db))⟩
  · have hrest := hpast.rest.trans (hzero db₀)
    rcases hal.peel hrest hpast.running with hat | ⟨t₂, hpast₂, hal⟩
    · rcases hat.resume hrest db with ⟨-, hres⟩ | ⟨-, hres⟩ <;> exact ⟨_, hres⟩
    · have hend := (hal.of_isStmt (by rw [hpast₂.rest]; rfl)).1
      exact ⟨_, ReadCommitted.Tx.resume_of_rollback (hend.trans hpast₂.rest)⟩

section Open

variable (hopen : ∃ r ∈ db₀.workflowRuns, cancellable tenantId runId r = true)

include hopen

/-- If there is a run to cancel, it is found on any state. -/
theorem requalifies_cancellable :
    Table.requalifies Run.id (cancellable tenantId runId) db₀.workflowRuns =
      cancellable tenantId runId := by
  obtain ⟨o, ho, hp⟩ := hopen
  funext r
  refine Table.requalifies_of_mem ho hp fun hr => ?_
  exact (of_decide_eq_true hp).1.trans (of_decide_eq_true hr).1.symm

/-- Its first statement does on any state what it would do if it started there. -/
theorem cancelRuns_agrees (d : Db) :
    (cancelRuns env tenantId runId).result db₀ d = (cancelRuns env tenantId runId).result d d ∧
      (cancelRuns env tenantId runId).write db₀ d =
        (cancelRuns env tenantId runId).write d d := by
  simp only [cancelRuns, updateRuns, requalifies_cancellable hopen, Table.countP_requalifies,
    Table.update_requalifies, and_self]

theorem cancelRest_of_open :
    cancelRest env tenantId userId runId ((cancelRuns env tenantId runId).result db₀ db₀) =
      .stmt (cancelTasks env runId) fun _ =>
        .stmt (auditCancel env tenantId userId runId) fun _ => .commit := by
  refine if_neg ?_
  simp only [cancelRuns, updateRuns, Table.countP_requalifies]
  exact (List.countP_pos_iff.2 hopen).ne'

theorem mem_locks_cancelRuns : .run runId ∈ (cancelRuns env tenantId runId).locks db₀ := by
  obtain ⟨o, ho, hp⟩ := hopen
  refine List.mem_map.2 ⟨o, List.mem_filter.2 ⟨ho, hp⟩, ?_⟩
  rw [(of_decide_eq_true hp).1]

/-- A cancellation that has not begun to cancel tasks does what it would do from here on, if
the run it has locked has not changed. -/
theorem cancelRunTx_resume_of_not_begun
    (hal : (cancelRunTx env tenantId userId runId).Reaches db₀ t) (hnot : ¬t.Begun 1)
    (hrows : .run runId ∈ t.held → db.workflowRuns.filter (fun r => r.id = runId) =
      db₀.workflowRuns.filter fun r => r.id = runId) :
    t.resume db = (cancelRunTx env tenantId userId runId).exec db := by
  rw [cancelRunTx_eq, Program.exec]
  rcases hal.peel cancelRunTx_eq rfl with hat | ⟨t₁, hpast, hal⟩
  · rcases hat.resume cancelRunTx_eq db with ⟨-, hres⟩ | ⟨-, hres⟩
    · exact hres
    · rw [hres]
      exact congrArg₂ (fun r d => (cancelRest env tenantId userId runId r).exec d)
        (cancelRuns_agrees hopen db).1 (cancelRuns_agrees hopen db).2
  · have hrest := hpast.rest.trans (cancelRest_of_open hopen)
    have hcount : (cancelRuns env tenantId runId).result db₀ db₀ =
        (cancelRuns env tenantId runId).result db db := by
      have hfilter : ∀ d : Db, d.workflowRuns.countP (cancellable tenantId runId) =
          (d.workflowRuns.filter fun r => r.id = runId).countP (cancellable tenantId runId) := by
        intro d
        rw [List.countP_filter]
        refine List.countP_congr fun r _ => ?_
        rw [Bool.and_eq_true]
        exact ⟨fun hp => ⟨hp, decide_eq_true (of_decide_eq_true hp).1⟩, And.left⟩
      simp only [cancelRuns, updateRuns, Table.countP_requalifies]
      rw [hfilter, hfilter db, hrows (hal.held_subset (hpast.held _ (mem_locks_cancelRuns hopen)))]
    rcases hal.peel hrest hpast.running with hat | ⟨t₂, hpast₂, hal⟩
    · rcases hat.resume hrest db with ⟨-, hres⟩ | ⟨hsome, -⟩
      · rw [hres, hpast.writes, ← hcount, cancelRest_of_open hopen]
        exact congrArg _ (cancelRuns_agrees hopen db).2
      · refine absurd (.inr ⟨?_, hsome⟩) hnot
        rw [hat.finished, hpast.finished]
        rfl
    · refine absurd (.inl ?_) hnot
      have hle := hal.finished_le
      rw [hpast₂.finished, hpast.finished] at hle
      exact hle

/-- A cancellation that has begun to cancel tasks cancels the run, and those tasks that
waited when it began and still do. -/
theorem cancelRunTx_resume_of_begun
    (hal : (cancelRunTx env tenantId userId runId).Reaches db₀ t) (hbegun : t.Begun 1)
    (db : Db) :
    .run runId ∈ t.held ∧ ∃ db', t.resume db = .ok db' ∧
      db'.workflowRuns = Table.update (cancellable tenantId runId)
        (fun r => { r with status := .cancelled, completedAt := some env.now }) db.workflowRuns ∧
      db'.taskRuns = Table.update (Table.requalifies TaskRun.id (waitingOf runId) db₀.taskRuns)
        (fun t => { t with status := .cancelled, updatedAt := env.now }) db.taskRuns := by
  rcases hal.peel cancelRunTx_eq rfl with hat | ⟨t₁, hpast, hal⟩
  · rcases hbegun with hlt | ⟨heq, -⟩
    · simp [hat.finished, ReadCommitted.Tx.init] at hlt
    · simp [hat.finished, ReadCommitted.Tx.init] at heq
  refine ⟨hal.held_subset (hpast.held _ (mem_locks_cancelRuns hopen)), ?_⟩
  have hrest := hpast.rest.trans (cancelRest_of_open hopen)
  have hwrites : t₁.writes = (cancelRuns env tenantId runId).write db₀ := hpast.writes
  have hruns : ∀ d, ((cancelRuns env tenantId runId).write db₀ d).workflowRuns =
      Table.update (cancellable tenantId runId)
        (fun r => { r with status := .cancelled, completedAt := some env.now })
        d.workflowRuns := by
    intro d
    simp only [cancelRuns, updateRuns, requalifies_cancellable hopen]
  rcases hal.peel hrest hpast.running with hat | ⟨t₂, hpast₂, hal⟩
  · rcases hat.resume hrest db with ⟨hnone, -⟩ | ⟨-, hres⟩
    · rcases hbegun with hlt | ⟨-, hsome⟩
      · rw [hat.finished, hpast.finished] at hlt
        exact absurd hlt (lt_irrefl 1)
      · simp [hnone] at hsome
    · rw [hwrites] at hres
      exact ⟨_, hres, hruns db, rfl⟩
  · have hwrites₂ : t₂.writes = (cancelTasks env runId).write (t₁.writes db₀) ∘ t₁.writes :=
      hpast₂.writes
    rw [hwrites] at hwrites₂
    rcases hal.peel hpast₂.rest hpast₂.running with hat | ⟨t₃, hpast₃, hal⟩
    · rcases hat.resume hpast₂.rest db with ⟨-, hres⟩ | ⟨-, hres⟩ <;>
      · rw [hwrites₂] at hres
        exact ⟨_, hres, hruns db, rfl⟩
    · obtain ⟨hend, hwrites₃⟩ := hal.of_isStmt (by rw [hpast₃.rest]; rfl)
      rw [hpast₃.writes, hwrites₂] at hwrites₃
      refine ⟨_, ReadCommitted.Tx.resume_of_commit (hend.trans hpast₃.rest), ?_, ?_⟩
      · rw [hwrites₃]
        exact hruns db
      · rw [hwrites₃]
        rfl

end Open

end Cancel

/-! ## What a cancellation leaves -/

section Cancelled

variable {env : Env} {tenantId runId : ℕ} {userId : Option ℕ} {db : Db}

theorem cancelRun_of_open (env : Env) (userId : Option ℕ)
    (hopen : ∃ r ∈ db.workflowRuns, cancellable tenantId runId r = true) :
    ∃ db', cancelRun env tenantId userId runId db = .ok db' ∧
      db'.workflowRuns = Table.update (cancellable tenantId runId)
        (fun r => { r with status := .cancelled, completedAt := some env.now }) db.workflowRuns ∧
      db'.taskRuns = db.taskRuns.map (cancelWaiting env runId) :=
  ⟨_, if_pos (List.any_eq_true.2 hopen), rfl, rfl⟩

theorem not_active_of_waiting {st : TaskStatus} (h : st.waiting = true) : st.active = false := by
  cases st <;> simp_all [TaskStatus.waiting, TaskStatus.active]

theorem cancelWaiting_id (env : Env) (runId : ℕ) (t : TaskRun) :
    (cancelWaiting env runId t).id = t.id := by
  unfold cancelWaiting
  split_ifs <;> rfl

theorem map_cancelWaiting (env : Env) (runId : ℕ) (ts : List TaskRun) :
    ts.map (cancelWaiting env runId) = Table.update (waitingOf runId)
      (fun t => { t with status := .cancelled, updatedAt := env.now }) ts := by
  simp [Table.update, waitingOf, cancelWaiting]

theorem cancelWaiting_eq_self_or (env : Env) (runId : ℕ) (t : TaskRun) :
    cancelWaiting env runId t = t ∨
      t.status.active = false ∧ (cancelWaiting env runId t).status.active = false := by
  unfold cancelWaiting
  split_ifs with h
  · exact .inr ⟨not_active_of_waiting h.2, rfl⟩
  · exact .inl rfl

/-- A cancellation leaves the tasks with a lease as they are. -/
theorem sameLeases_cancelRun {db' : Db}
    (h : cancelRun env tenantId userId runId db = .ok db') : SameLeases db db' := by
  obtain ⟨-, rfl⟩ := cancelRun_ok h
  exact ⟨⟨cancelWaiting env runId, rfl, cancelWaiting_id env runId,
    cancelWaiting_eq_self_or env runId⟩, Table.map_update (fun _ => by rfl) _⟩

end Cancelled

/-! ## The statuses -/

/-- The statuses of a run and of its tasks. -/
def Db.statuses (runId : ℕ) (db : Db) : List RunStatus × List (ℕ × TaskStatus) :=
  ((db.ofRun runId).1.map Run.status, (db.ofRun runId).2.map fun t => (t.id, t.status))

/-- The run is cancelled, and the task of it waits for a retry or is dead. -/
def Stranded (taskId : ℕ) (statuses : List RunStatus × List (ℕ × TaskStatus)) : Prop :=
  .cancelled ∈ statuses.1 ∧
    ((taskId, .retryWait) ∈ statuses.2 ∨ (taskId, .dead) ∈ statuses.2)

theorem mem_statuses_run {runId : ℕ} {st : RunStatus} {db : Db} :
    st ∈ (db.statuses runId).1 ↔ ∃ r ∈ db.workflowRuns, r.id = runId ∧ r.status = st := by
  simp [Db.statuses, Db.ofRun, and_assoc]

theorem mem_statuses_task {runId id : ℕ} {st : TaskStatus} {db : Db} :
    (id, st) ∈ (db.statuses runId).2 ↔
      ∃ t ∈ db.taskRuns, t.workflowRunId = runId ∧ t.id = id ∧ t.status = st := by
  simp [Db.statuses, Db.ofRun, and_assoc]

/-- If the task has one row, its status is the one that is listed. -/
theorem status_of_taskRows {runId id : ℕ} {st : TaskStatus} {db : Db} {t : TaskRun}
    (hrows : db.taskRows id = [t]) (h : (id, st) ∈ (db.statuses runId).2) : t.status = st := by
  obtain ⟨u, hu, -, hid, rfl⟩ := mem_statuses_task.1 h
  have hmem : u ∈ db.taskRows id := List.mem_filter.2 ⟨hu, decide_eq_true hid⟩
  rw [hrows, List.mem_singleton] at hmem
  rw [hmem]

/-! ## The race -/

/-- The two transactions. -/
inductive Side
  | failure
  | cancel
  deriving DecidableEq

instance : Fintype Side where
  elems := {.failure, .cancel}
  complete i := by cases i <;> simp

namespace Side

/-- The other transaction. -/
def other : Side → Side
  | failure => cancel
  | cancel => failure

/-- The statement by which the transaction reads what the other is about to change : the
failure reads the run by its first, the cancellation the tasks by its second. -/
def decisive : Side → ℕ
  | failure => 0
  | cancel => 1

end Side

/-- A failure and a cancellation, each with its time and UUIDs. -/
structure Race where
  failureEnv : Env
  failure : FailureTx
  cancelEnv : Env
  tenantId : ℕ
  userId : Option ℕ
  runId : ℕ

namespace Race

/-- The statements of each. -/
def program (c : Race) : Side → SqlProgram
  | .failure => c.failure.program c.failureEnv
  | .cancel => cancelRunTx c.cancelEnv c.tenantId c.userId c.runId

/-- Each as one step. -/
def call (c : Race) : Side → Call
  | .failure => ⟨c.failureEnv, c.failure.op⟩
  | .cancel => ⟨c.cancelEnv, .cancelRun c.tenantId c.userId c.runId⟩

/-- The transactions under READ COMMITTED, after the steps `as` from `db`. -/
def after (c : Race) (db : Db) (as : List (Action Side)) :
    System Side Db RowKey Result StoreError :=
  (readCommitted Side Db RowKey Result StoreError).run (.init db c.program) as

/-- The steps are possible one after the other from `db`. -/
def Steps (c : Race) (db : Db) (as : List (Action Side)) : Prop :=
  (readCommitted Side Db RowKey Result StoreError).Valid (.init db c.program) as

instance (c : Race) (db : Db) (as : List (Action Side)) : Decidable (c.Steps db as) :=
  inferInstanceAs (Decidable (Machine.Valid _ _ as))

/-- The cancellation finds a run to cancel, and the failure a task of it. -/
def Contested (c : Race) (db : Db) : Prop :=
  (∃ r ∈ db.workflowRuns, cancellable c.tenantId c.runId r = true) ∧
    ∃ e ∈ c.failure.finds c.failureEnv db, e.1.workflowRunId = c.runId

instance (c : Race) (db : Db) : Decidable (c.Contested db) :=
  inferInstanceAs (Decidable (_ ∧ _))

/-- When the first of the transactions ends, the other has begun its decisive statement. -/
def Crossed (c : Race) (db : Db) (as : List (Action Side)) : Prop :=
  ∃ i, as.find? Action.isClose = some (.close i) ∧
    ((c.after db (as.takeWhile fun a => !a.isClose)).tx i.other).Begun i.other.decisive

instance (c : Race) (db : Db) (as : List (Action Side)) : Decidable (c.Crossed db as) :=
  inferInstanceAs (Decidable (∃ _, _ ∧ _))

variable {c : Race} {db : Db}

theorem call_after (hk : db.Keyed) (i : Side) :
    (c.call i).after db = outcomeOn db ((c.program i).exec db) := by
  cases i with
  | failure =>
    rw [program, FailureTx.program_exec hk]
    unfold Call.after
    cases hexec : (c.call .failure).exec db <;> simp only [call] at hexec <;> rw [hexec] <;> rfl
  | cancel =>
    rw [program, cancelRunTx_exec]
    unfold Call.after
    simp only [call, Call.exec, Op.exec]
    cases cancelRun c.cancelEnv c.tenantId c.userId c.runId db <;> rfl

theorem cancel_after (hk : db.Keyed) : (c.call .cancel).after db =
    outcomeOn db (cancelRun c.cancelEnv c.tenantId c.userId c.runId db) := by
  rw [call_after hk, program, cancelRunTx_exec]

theorem keyed_after (hk : db.Keyed) (i : Side) : ((c.call i).after db).Keyed := by
  cases i with
  | failure =>
    rw [call_after hk]
    cases hok : (c.program .failure).exec db with
    | error e => exact hk
    | ok db' => exact (FailureTx.moves hk hok).keyed hk
  | cancel =>
    rw [cancel_after hk]
    cases hok : cancelRun c.cancelEnv c.tenantId c.userId c.runId db with
    | error e => exact hk
    | ok db' => exact (sameLeases_cancelRun hok).keyed hk

/-- The run is to be cancelled, and the failure finds the task of it. -/
structure Found (c : Race) (db : Db) (t : TaskRun) (r : Run) : Prop where
  finds : (t, r) ∈ c.failure.finds c.failureEnv db
  runId : t.workflowRunId = c.runId
  cancellable : cancellable c.tenantId c.runId r = true

theorem Contested.exists_found (hk : db.Keyed) (h : c.Contested db) : ∃ t r, c.Found db t r := by
  obtain ⟨⟨r, hr, hopen⟩, ⟨t, r'⟩, hfound, hwf⟩ := h
  obtain ⟨-, hr', hid', -⟩ := FailureTx.mem_finds hfound
  have hid := (of_decide_eq_true hopen).1
  obtain rfl := Table.eq_of_key hk.runs hr hr' (hid.trans (hwf.symm.trans hid'.symm))
  exact ⟨t, r, hfound, hwf, hopen⟩

namespace Found

variable {t : TaskRun} {r : Run}

theorem exists_cancellable (h : c.Found db t r) :
    ∃ r ∈ db.workflowRuns, RunMesh.cancellable c.tenantId c.runId r = true :=
  ⟨r, (FailureTx.mem_finds h.finds).2.1, h.cancellable⟩

/-- The failure makes the task wait for a retry, or dead. -/
theorem status (h : c.Found db t r) :
    c.failure.status (t, r) = .retryWait ∨ c.failure.status (t, r) = .dead := by
  rcases c.failure.status_cases (t, r) with ⟨-, hr⟩ | ⟨hst, -⟩
  · have hopen := (of_decide_eq_true h.cancellable).2.2
    rw [show r.status = .cancelled from hr] at hopen
    cases hopen
  · exact hst

theorem taskRows (hk : db.Keyed) (h : c.Found db t r) : db.taskRows t.id = [t] :=
  Table.filter_key hk.tasks (FailureTx.mem_finds h.finds).1

/-- The failure commits. -/
theorem failure_exec (hk : db.Keyed) (h : c.Found db t r) :
    ∃ db', (c.program .failure).exec db = .ok db' ∧
      db'.taskRows t.id = [c.failure.ended c.failureEnv (t, r)] := by
  rw [program, FailureTx.exec_eq_body hk]
  exact (FailureTx.body_leads hk h.finds).exec (h.taskRows hk)

/-- With the run cancelled and the row as the failure left it, the task is stranded. -/
theorem stranded (h : c.Found db t r) {d : Db}
    (hrun : { r with status := .cancelled, completedAt := some c.cancelEnv.now } ∈ d.workflowRuns)
    (htask : c.failure.ended c.failureEnv (t, r) ∈ d.taskRuns) :
    Stranded t.id (d.statuses c.runId) := by
  have hid := (FailureTx.mem_finds h.finds).2.2.1.trans h.runId
  refine ⟨mem_statuses_run.2 ⟨_, hrun, hid, rfl⟩, ?_⟩
  exact h.status.imp (fun hst => mem_statuses_task.2 ⟨_, htask, h.runId, rfl, hst⟩)
    fun hst => mem_statuses_task.2 ⟨_, htask, h.runId, rfl, hst⟩

end Found

/-- What holds of every run, and of a run that has failed, the failure alone keeps. -/
theorem failure_exec_forall (hk : db.Keyed) {P : Run → Prop}
    (hP : ∀ r : Run, r.status = .running → P r →
      P { r with status := .failed, completedAt := some c.failureEnv.now }) {db' : Db}
    (hok : (c.program .failure).exec db = .ok db') (h : ∀ r ∈ db.workflowRuns, P r) :
    ∀ r ∈ db'.workflowRuns, P r := by
  rw [program, FailureTx.exec_eq_body hk] at hok
  exact (FailureTx.body_keeps_forall hP).exec_keeps h hok

/-- The failure, then the cancellation. -/
theorem not_stranded_failure_cancel (hw : db.WellFormed) {t : TaskRun} {r : Run}
    (h : c.Found db t r) :
    ¬Stranded t.id (((c.call .cancel).after ((c.call .failure).after db)).statuses c.runId) := by
  obtain ⟨d, hok, hrows⟩ := h.failure_exec hw.toKeyed
  have hwd : d.WellFormed := (FailureTx.moves hw.toKeyed hok).wellFormed hw
  obtain ⟨-, hr, hrid, -⟩ := FailureTx.mem_finds h.finds
  rw [call_after hw.toKeyed, hok, outcomeOn, cancel_after hwd.toKeyed]
  rintro ⟨hcan, hst⟩
  by_cases hopen : ∃ q ∈ d.workflowRuns, cancellable c.tenantId c.runId q = true
  · obtain ⟨d', hcancel, -, htasks⟩ := cancelRun_of_open c.cancelEnv c.userId hopen
    rw [hcancel, outcomeOn] at hst
    rcases h.status with hretry | hdead
    · have hrows' := taskRows_map (cancelWaiting_id c.cancelEnv c.runId) htasks t.id
      rw [hrows, List.map_singleton, cancelWaiting, if_pos ⟨h.runId, by
        simp [FailureTx.ended, endLease, hretry, TaskStatus.waiting]⟩] at hrows'
      rcases hst with hst | hst <;> cases status_of_taskRows hrows' hst
    · obtain ⟨q, hq, hopen⟩ := hopen
      obtain ⟨hid, -, hopen⟩ := of_decide_eq_true hopen
      have hrun := FailureTx.not_running_of_dead hw.toKeyed h.finds hdead hok q hq
        (hid.trans h.runId.symm)
      have hpend := hwd.opened q hq
      cases hs : q.status <;> simp_all [RunStatus.open]
  · obtain ⟨e, he⟩ := cancelRun_of_none c.cancelEnv c.userId fun q hq hp => hopen ⟨q, hq, hp⟩
    rw [he] at hcan
    obtain ⟨q, hq, hid, hcancelled⟩ := mem_statuses_run.1 hcan
    have hnone : ∀ q ∈ db.workflowRuns, q.id = c.runId → q.status ≠ .cancelled := by
      intro q hq hid
      obtain rfl := Table.eq_of_key hw.runs hq hr (hid.trans (h.runId.symm.trans hrid.symm))
      have hopen := (of_decide_eq_true h.cancellable).2.2
      intro hcancelled
      rw [hcancelled] at hopen
      cases hopen
    exact failure_exec_forall (P := fun q => q.id = c.runId → q.status ≠ .cancelled) hw.toKeyed
      (fun _ _ _ _ => by simp) hok hnone q hq hid hcancelled

/-- The cancellation, then the failure. -/
theorem not_stranded_cancel_failure (hk : db.Keyed) {t : TaskRun} {r : Run}
    (h : c.Found db t r) :
    ¬Stranded t.id (((c.call .failure).after ((c.call .cancel).after db)).statuses c.runId) := by
  obtain ⟨d, hcancel, -⟩ := cancelRun_of_open c.cancelEnv c.userId h.exists_cancellable
  have hsame := sameLeases_cancelRun hcancel
  have hkd := hsame.keyed hk
  obtain ⟨⟨t', r'⟩, hfound, rfl⟩ := List.mem_map.1
    (hsame.finds_tasks.symm ▸ List.mem_map_of_mem (f := Prod.fst) h.finds)
  obtain ⟨ht, hr', hrid', -⟩ := FailureTx.mem_finds hfound
  have hcancelled := RunTx.cancelled_of_cancel hk hcancel r' hr' (hrid'.trans h.runId)
  have hst : c.failure.status (t', r') = .cancelled := by
    rcases c.failure.status_cases (t', r') with ⟨hst, -⟩ | ⟨-, hne⟩
    · exact hst
    · exact absurd hcancelled hne
  obtain ⟨d', hok, hrows⟩ :=
    (FailureTx.body_leads hkd hfound).exec (Table.filter_key hkd.tasks ht)
  rw [cancel_after hk, hcancel, outcomeOn, call_after hkd, program,
    FailureTx.exec_eq_body hkd, hok, outcomeOn]
  rintro ⟨-, hmem | hmem⟩ <;>
  · have heq : c.failure.status (t', r') = _ := status_of_taskRows hrows hmem
    rw [hst] at heq
    cases heq

section First

variable {tF tC : SqlTx}

/-- A failure that is about to end has failed, or has written what it commits. -/
theorem failure_exec_of_end (hF : (c.program .failure).Reaches db tF)
    (hend : tF.rest = .commit ∨ ∃ e, tF.rest = .rollback e) :
    (∃ e, (c.program .failure).exec db = .error e) ∨
      tF.rest = .commit ∧ (c.program .failure).exec db = .ok (tF.writes db) := by
  rw [← ReadCommitted.Tx.resume_init, ← hF.resume]
  rcases hend with hcommit | ⟨e, hroll⟩
  · exact .inr ⟨hcommit, ReadCommitted.Tx.resume_of_commit hcommit⟩
  · exact .inl ⟨e, ReadCommitted.Tx.resume_of_rollback hroll⟩

/-- The failure ends before the cancellation, which has read the tasks. -/
theorem stranded_of_failure_first (hk : db.Keyed) {t : TaskRun} {r : Run} (h : c.Found db t r)
    (hF : (c.program .failure).Reaches db tF)
    (hend : tF.rest = .commit ∨ ∃ e, tF.rest = .rollback e)
    (hC : (c.program .cancel).Reaches db tC) (hbegun : tC.Begun 1)
    (hex : ∀ g ∈ tC.held, g ∉ tF.held) :
    Stranded t.id ((outcomeOn ((c.call .failure).after db)
      (tC.resume ((c.call .failure).after db))).statuses c.runId) := by
  obtain ⟨ht, hr, hrid, hact⟩ := FailureTx.mem_finds h.finds
  obtain ⟨d, hok, hrows⟩ := h.failure_exec hk
  rcases failure_exec_of_end hF hend with ⟨e, he⟩ | ⟨hcommit, hok'⟩
  · cases hok.symm.trans he
  cases hok.symm.trans hok'
  rw [call_after hk, hok, outcomeOn]
  obtain ⟨hheld, d', hres, hruns, htasks⟩ :=
    cancelRunTx_resume_of_begun h.exists_cancellable hC hbegun (tF.writes db)
  rw [hres, outcomeOn]
  refine h.stranded ?_ ?_
  · have hsame := FailureTx.rows_of_not_held hF hcommit (hex _ hheld)
    have hmem : r ∈ (tF.writes db).workflowRuns := List.mem_of_mem_filter
      (hsame.symm ▸ List.mem_filter.2 ⟨hr, decide_eq_true (hrid.trans h.runId)⟩)
    rw [hruns]
    exact Table.mem_update.2 ⟨r, hmem, if_pos h.cancellable⟩
  · rw [htasks]
    refine Table.mem_update.2 ⟨_, List.mem_of_mem_filter (hrows ▸ List.mem_singleton_self _),
      if_neg fun hreq => ?_⟩
    obtain ⟨-, o, ho, hwait, hkey⟩ := Table.requalifies_iff.1 hreq
    obtain rfl := Table.eq_of_key hk.tasks ho ht hkey
    rw [not_active_of_waiting (of_decide_eq_true hwait).2] at hact
    cases hact

/-- A cancellation that has read the tasks, caught by the failure of another run. -/
theorem statuses_of_spared {d : Db} (hopen : ∃ r ∈ db.workflowRuns,
      cancellable c.tenantId c.runId r = true) (hrows : d.ofRun c.runId = db.ofRun c.runId)
    (hC : (c.program .cancel).Reaches db tC) (hbegun : tC.Begun 1) :
    (outcomeOn d (tC.resume d)).statuses c.runId =
      (outcomeOn d ((c.program .cancel).exec d)).statuses c.runId := by
  obtain ⟨hruns, htasks⟩ := Prod.mk.inj hrows
  have hopen' : ∃ r ∈ d.workflowRuns, cancellable c.tenantId c.runId r = true := by
    obtain ⟨r, hr, hp⟩ := hopen
    refine ⟨r, List.mem_of_mem_filter (hruns.symm ▸ List.mem_filter.2 ⟨hr, ?_⟩), hp⟩
    exact decide_eq_true (of_decide_eq_true hp).1
  obtain ⟨-, d₁, hres, hruns₁, htasks₁⟩ := cancelRunTx_resume_of_begun hopen hC hbegun d
  obtain ⟨d₂, hcancel, hruns₂, htasks₂⟩ := cancelRun_of_open c.cancelEnv c.userId hopen'
  rw [hres, program, cancelRunTx_exec, hcancel, outcomeOn, outcomeOn]
  have hof : d₁.ofRun c.runId = d₂.ofRun c.runId := by
    refine Prod.ext (by simp only [Db.ofRun, hruns₁, hruns₂]) ?_
    simp only [Db.ofRun, htasks₁, htasks₂, map_cancelWaiting]
    rw [Table.filter_update fun _ => by rfl, Table.filter_update fun _ => by rfl, htasks]
    refine List.map_congr_left fun t ht => ?_
    rw [Table.requalifies_self (List.mem_of_mem_filter ht)]
  simp only [Db.statuses, hof]

/-- If the failure ends first and the two do not cross, the cancellation does what it would
do after the failure. -/
theorem statuses_of_failure_first (hk : db.Keyed)
    (hF : (c.program .failure).Reaches db tF)
    (hend : tF.rest = .commit ∨ ∃ e, tF.rest = .rollback e)
    (hC : (c.program .cancel).Reaches db tC) (hex : ∀ g ∈ tC.held, g ∉ tF.held)
    (hnot : ¬(c.Contested db ∧ tC.Begun 1)) :
    (outcomeOn ((c.call .failure).after db) (tC.resume ((c.call .failure).after db))).statuses
        c.runId =
      (outcomeOn ((c.call .failure).after db)
        ((c.program .cancel).exec ((c.call .failure).after db))).statuses c.runId := by
  rw [call_after hk .failure]
  rcases failure_exec_of_end hF hend with ⟨e, he⟩ | ⟨hcommit, hok⟩
  · rw [he, outcomeOn, hC.resume, ReadCommitted.Tx.resume_init]
  rw [hok, outcomeOn]
  by_cases hopen : ∃ r ∈ db.workflowRuns, cancellable c.tenantId c.runId r = true
  · by_cases hbegun : tC.Begun 1
    · have hne : ∀ e ∈ c.failure.finds c.failureEnv db, e.1.workflowRunId ≠ c.runId :=
        fun e he hwf => hnot ⟨⟨hopen, e, he, hwf⟩, hbegun⟩
      rw [program, FailureTx.exec_eq_body hk] at hok
      have hspared := (FailureTx.body_spares hne).exec_keeps (FailureTx.spared hk hne) hok
      exact statuses_of_spared hopen hspared.ofRun hC hbegun
    · rw [cancelRunTx_resume_of_not_begun hopen hC hbegun fun hheld =>
        FailureTx.rows_of_not_held hF hcommit (hex _ hheld)]
      rfl
  · have hnone : ∀ r ∈ db.workflowRuns, ¬cancellable c.tenantId c.runId r = true :=
      fun r hr hp => hopen ⟨r, hr, hp⟩
    have hnone' := failure_exec_forall hk
      (fun r _ _ hp => by simp [cancellable, RunStatus.open] at hp) hok hnone
    obtain ⟨e, he⟩ := cancelRunTx_resume_of_none hnone hnone' hC
    obtain ⟨e', he'⟩ := cancelRun_of_none c.cancelEnv c.userId hnone'
    rw [he, program, cancelRunTx_exec, he']
    rfl

/-- The cancellation ends before the failure, which has read the run. -/
theorem stranded_of_cancel_first (hk : db.Keyed) {t : TaskRun} {r : Run} (h : c.Found db t r)
    (hF : (c.program .failure).Reaches db tF) (hbegun : tF.Begun 0) :
    Stranded t.id ((outcomeOn ((c.call .cancel).after db)
      (tF.resume ((c.call .cancel).after db))).statuses c.runId) := by
  obtain ⟨-, hr, -, hact⟩ := FailureTx.mem_finds h.finds
  obtain ⟨d, hcancel, hruns, -⟩ := cancelRun_of_open c.cancelEnv c.userId h.exists_cancellable
  have hsame := sameLeases_cancelRun hcancel
  rw [cancel_after hk, hcancel, outcomeOn]
  obtain ⟨d', hres, hrows⟩ := FailureTx.resume_leads hk hF hbegun hsame h.finds
    (hsame.taskRows hact (h.taskRows hk))
  have hmem : { r with status := .cancelled, completedAt := some c.cancelEnv.now } ∈
      d'.workflowRuns := by
    refine FailureTx.resume_keeps hk hF hbegun hsame (FailureTx.body_keeps_mem (by simp)) ?_ hres
    rw [hruns]
    exact Table.mem_update.2 ⟨r, hr, if_pos h.cancellable⟩
  rw [hres, outcomeOn]
  exact h.stranded hmem (List.mem_of_mem_filter (hrows ▸ List.mem_singleton_self _))

/-- If the cancellation ends first and the two do not cross, the failure does to the run what
it would do after the cancellation. -/
theorem statuses_of_cancel_first (hk : db.Keyed)
    (hF : (c.program .failure).Reaches db tF) (hnot : ¬(c.Contested db ∧ tF.Begun 0)) :
    (outcomeOn ((c.call .cancel).after db) (tF.resume ((c.call .cancel).after db))).statuses
        c.runId =
      (outcomeOn ((c.call .cancel).after db)
        ((c.program .failure).exec ((c.call .cancel).after db))).statuses c.runId := by
  rw [cancel_after hk]
  by_cases hopen : ∃ r ∈ db.workflowRuns, cancellable c.tenantId c.runId r = true
  · obtain ⟨d, hcancel, -⟩ := cancelRun_of_open c.cancelEnv c.userId hopen
    have hsame := sameLeases_cancelRun hcancel
    have hkd := hsame.keyed hk
    rw [hcancel, outcomeOn]
    by_cases hbegun : tF.Begun 0
    · have hne : ∀ e ∈ c.failure.finds c.failureEnv db, e.1.workflowRunId ≠ c.runId :=
        fun e he hwf => hnot ⟨⟨hopen, e, he, hwf⟩, hbegun⟩
      have hfst : ∀ {e}, e ∈ c.failure.finds c.failureEnv db →
          ∃ e' ∈ c.failure.finds c.failureEnv d, e'.1 = e.1 := fun he =>
        List.mem_map.1 (hsame.finds_tasks.symm ▸ List.mem_map_of_mem (f := Prod.fst) he)
      have hne' : ∀ e ∈ c.failure.finds c.failureEnv d, e.1.workflowRunId ≠ c.runId := by
        intro e he
        obtain ⟨e', he', heq⟩ := List.mem_map.1
          (hsame.finds_tasks ▸ List.mem_map_of_mem (f := Prod.fst) he)
        exact heq ▸ hne e' he'
      have hspared := FailureTx.spared hkd hne'
      have hcaught : (outcomeOn d (tF.resume d)).ofRun c.runId = d.ofRun c.runId := by
        cases hres : tF.resume d with
        | error e => rfl
        | ok d' =>
          refine (FailureTx.resume_keeps hk hF hbegun hsame (FailureTx.body_spares hne)
            ⟨rfl, fun t ht e he hid => ?_⟩ hres).ofRun
          obtain ⟨e', he', heq⟩ := hfst he
          exact hspared.other t ht e' he' (heq ▸ hid)
      have hserial : (outcomeOn d ((c.failure.program c.failureEnv).exec d)).ofRun c.runId =
          d.ofRun c.runId := by
        rw [FailureTx.exec_eq_body hkd]
        cases hok : (c.failure.body c.failureEnv (c.failure.finds c.failureEnv d)).exec d with
        | error e => rfl
        | ok d' => exact ((FailureTx.body_spares hne').exec_keeps hspared hok).ofRun
      rw [Db.statuses, Db.statuses, hcaught, program, hserial]
    · rw [FailureTx.resume_of_not_begun hF hbegun]
      rfl
  · obtain ⟨e, he⟩ := cancelRun_of_none c.cancelEnv c.userId fun r hr hp => hopen ⟨r, hr, hp⟩
    rw [he, outcomeOn, hF.resume, ReadCommitted.Tx.resume_init]

end First

/-- The interleaving up to the first end, and what it leaves. -/
theorem exists_first_end (hk : db.Keyed) {as : List (Action Side)} (has : c.Steps db as)
    (hend : ∀ i, ((c.after db as).tx i).outcome ≠ none) :
    ∃ i, as.find? Action.isClose = some (.close i) ∧
      let s := c.after db (as.takeWhile fun a => !a.isClose)
      Quiet db c.program s ∧ ReadCommitted.Exclusive s ∧
      ((s.tx i).rest = .commit ∨ ∃ e, (s.tx i).rest = .rollback e) ∧
      (c.after db as).db = outcomeOn ((c.call i).after db)
        ((s.tx i.other).resume ((c.call i).after db)) := by
  obtain ⟨bs, i, cs, rfl, hbs⟩ := exists_first_close has (hend .failure)
  have htake : (bs ++ Action.close i :: cs).takeWhile (fun a => !a.isClose) = bs := by
    rw [List.takeWhile_append_of_pos fun a ha => by simp [hbs a ha]]
    simp [Action.isClose]
  have hfind : (bs ++ Action.close i :: cs).find? Action.isClose = some (.close i) := by
    rw [List.find?_append, List.find?_eq_none.2 fun a ha => by simp [hbs a ha]]
    rfl
  refine ⟨i, hfind, ?_⟩
  rw [htake]
  obtain ⟨hv, henabled, hcs⟩ := (Machine.along_append _ _ _ _ _).1 has
  have hquiet : Quiet db c.program (c.after db bs) := quiet_run hv hbs
  refine ⟨hquiet, exclusive_run db c.program hv, (enabled_close henabled).2, ?_⟩
  have henabled : (c.after db bs).Enabled (.close i) := henabled
  obtain ⟨hdb, hover, hother⟩ := next_close henabled
  have hne : i.other ≠ i := by cases i <;> simp [Side.other]
  have hdb' : ((c.after db bs).next (.close i)).db = (c.call i).after db := by
    rw [hdb, hquiet.db_eq, (hquiet.alone i).resume, ReadCommitted.Tx.resume_init, call_after hk]
  have hrun : c.after db (bs ++ .close i :: cs) =
      (readCommitted Side Db RowKey Result StoreError).run ((c.after db bs).next (.close i)) cs :=
    Machine.run_append ..
  have hlast := run_last (i := i.other) cs ((c.after db bs).next (.close i)) (fun j hj => ?_) hcs
    ?_ (hrun ▸ hend i.other)
  · rw [hrun, hlast, hdb', hother _ hne]
  · obtain rfl : j = i := by
      cases i <;> cases j <;> simp_all [Side.other]
    exact hover
  · rw [hother _ hne]
    exact hquiet.outcome i.other

end Race

/-- A failure and a cancellation serialise unless they cross. Let `FailTask`, retryable or
not, or `recoverExpired` be interleaved with `CancelRun` statement by statement under READ
COMMITTED, from any reachable state, until both have ended. The statuses of the run and of
its tasks are those of one of the two orders if and only if it is not so that the
cancellation finds the run open, the failure finds a task of it, and when the first of the
two ends the other has begun the statement by which it reads what the first changes. -/
theorem failure_serial_iff {s : State} (h : Reachable s) (c : Race) {as : List (Action Side)}
    (has : c.Steps s.db as) (hend : ∀ i, ((c.after s.db as).tx i).outcome ≠ none) :
    ((c.after s.db as).db.statuses c.runId =
        ((c.call .cancel).after ((c.call .failure).after s.db)).statuses c.runId ∨
      (c.after s.db as).db.statuses c.runId =
        ((c.call .failure).after ((c.call .cancel).after s.db)).statuses c.runId) ↔
    ¬(c.Contested s.db ∧ c.Crossed s.db as) := by
  have hw := h.wellFormed
  have hk := hw.toKeyed
  obtain ⟨i, hfind, hquiet, hex, hrest, hdb⟩ := Race.exists_first_end hk has hend
  have hcross : c.Crossed s.db as ↔
      ((c.after s.db (as.takeWhile fun a => !a.isClose)).tx i.other).Begun i.other.decisive := by
    refine ⟨fun ⟨j, hj, hbegun⟩ => ?_, fun hbegun => ⟨i, hfind, hbegun⟩⟩
    cases hfind.symm.trans hj
    exact hbegun
  have hheld : ∀ g ∈ ((c.after s.db (as.takeWhile fun a => !a.isClose)).tx .cancel).held,
      g ∉ ((c.after s.db (as.takeWhile fun a => !a.isClose)).tx .failure).held := fun g hC hF =>
    absurd (hex g _ _ hC hF) (by simp)
  rw [hcross, hdb]
  constructor
  · rintro hserial ⟨hcon, hbegun⟩
    obtain ⟨t, r, hfound⟩ := hcon.exists_found hk
    suffices hstr : Stranded t.id ((outcomeOn ((c.call i).after s.db)
        (((c.after s.db (as.takeWhile fun a => !a.isClose)).tx i.other).resume
          ((c.call i).after s.db))).statuses c.runId) by
      rcases hserial with heq | heq
      · exact Race.not_stranded_failure_cancel hw hfound (heq ▸ hstr)
      · exact Race.not_stranded_cancel_failure hk hfound (heq ▸ hstr)
    cases i with
    | failure =>
      exact Race.stranded_of_failure_first hk hfound (hquiet.alone .failure) hrest
        (hquiet.alone .cancel) hbegun hheld
    | cancel => exact Race.stranded_of_cancel_first hk hfound (hquiet.alone .failure) hbegun
  · intro hnot
    cases i with
    | failure =>
      left
      rw [Race.call_after (Race.keyed_after hk .failure) .cancel]
      exact Race.statuses_of_failure_first hk (hquiet.alone .failure) hrest
        (hquiet.alone .cancel) hheld hnot
    | cancel =>
      right
      rw [Race.call_after (Race.keyed_after hk .cancel) .failure]
      exact Race.statuses_of_cancel_first hk (hquiet.alone .failure) hnot

/-- A retryable failure of a task of the run that is cancelled. -/
def joinRace : Race where
  failureEnv := .at 7 100
  failure := .fail 3 "w" ⟨true, "Error", "boom", ""⟩
  cancelEnv := .at 8 200
  tenantId := 1
  userId := none
  runId := 2

/-- The cancellation has locked the run, and goes on to the tasks when the failure has
ended. -/
def joinRaceSteps : List (Action Side) :=
  [.start .cancel, .lock .cancel, .finish .cancel,
    .start .failure, .lock .failure, .finish .failure,
    .start .failure, .lock .failure, .finish .failure,
    .start .failure, .lock .failure, .finish .failure, .start .failure, .finish .failure,
    .close .failure,
    .start .cancel, .lock .cancel, .lock .cancel, .finish .cancel,
    .start .cancel, .finish .cancel, .close .cancel]

theorem failure_serial_iff_join :
    joinRace.Contested joinRunning.db ∧
      ((joinRace.after joinRunning.db joinRaceSteps).db.statuses 2 =
          ((joinRace.call .cancel).after ((joinRace.call .failure).after joinRunning.db)).statuses
            2 ∨
        (joinRace.after joinRunning.db joinRaceSteps).db.statuses 2 =
          ((joinRace.call .failure).after ((joinRace.call .cancel).after joinRunning.db)).statuses
            2) := by
  have hr : Reachable joinRunning := reachable_after init_joinDefined (by decide)
  have hsteps : joinRace.Steps joinRunning.db joinRaceSteps := by decide +kernel
  have hend : ∀ i, ((joinRace.after joinRunning.db joinRaceSteps).tx i).outcome ≠ none :=
    fun i => Option.isSome_iff_ne_none.1 (by cases i <;> decide +kernel)
  exact ⟨by decide +kernel, (failure_serial_iff hr joinRace hsteps hend).2 (by decide +kernel)⟩

/-- The failure reads the run, then the cancellation runs from its start to its end. -/
def joinCrossed : List (Action Side) :=
  [.start .failure, .lock .failure, .finish .failure,
    .start .cancel, .lock .cancel, .finish .cancel, .start .cancel, .lock .cancel, .finish .cancel,
    .start .cancel, .finish .cancel, .close .cancel,
    .start .failure, .lock .failure, .finish .failure,
    .start .failure, .lock .failure, .finish .failure, .start .failure, .finish .failure,
    .close .failure]

/-- A cancelled run with a task that waits for a retry. -/
theorem failure_crosses_cancel :
    Reachable joinRunning ∧ joinRace.Steps joinRunning.db joinCrossed ∧
      (∀ i, ((joinRace.after joinRunning.db joinCrossed).tx i).outcome ≠ none) ∧
      (joinRace.after joinRunning.db joinCrossed).db.statuses 2 =
        ([.cancelled], [(3, .retryWait), (4, .running), (5, .cancelled)]) ∧
      ((joinRace.call .cancel).after ((joinRace.call .failure).after joinRunning.db)).statuses 2 =
        ([.cancelled], [(3, .cancelled), (4, .running), (5, .cancelled)]) ∧
      ((joinRace.call .failure).after ((joinRace.call .cancel).after joinRunning.db)).statuses 2 =
        ([.cancelled], [(3, .cancelled), (4, .running), (5, .cancelled)]) :=
  ⟨reachable_after init_joinDefined (by decide), by decide +kernel,
    fun i => Option.isSome_iff_ne_none.1 (by cases i <;> decide +kernel),
    by decide +kernel, by decide +kernel, by decide +kernel⟩

end RunMesh
