import RunMesh.Attempts
import RunMesh.FailureRace
import RunMesh.Locking
import RunMesh.Serialisation

/-!
# Handing tasks over, with several schedulers

Any number of schedulers promote and dispatch tasks while workers lease them and users cancel
runs. Unlike the completions of one run these transactions have no row in common. `tick` takes
the rows that nobody has locked, of all runs, and what it found ready when its `SELECT`
started another scheduler may have dispatched before it got the lock.

Here `tick`, `LeaseTask` and `CancelRun` are interleaved statement by statement. They keep to
the rules of `RunMesh.Locking` : until a task is leased, nobody moves it back (`TaskLater`).
So the committed state is that of the transactions one after the other, each dispatch with the
rows it found still ready as its scan (`handovers_serialise`), and every task is dispatched
once and leased once.
-/

namespace RunMesh

open ReadCommitted Fallible

/-! ## Statements and programs -/

/-- `t.status='READY' AND t.available_at<=now()`. -/
def isDue (env : Env) (t : TaskRun) : Bool :=
  t.status = .ready ∧ t.availableAt ≤ env.now

/-- The row of the task is ready and available. -/
def Db.stillDue (env : Env) (db : Db) (id : ℕ) : Bool :=
  (db.taskRows id).any (isDue env)

/-- The `SELECT ... ORDER BY t.priority DESC,t.available_at FOR UPDATE OF t SKIP LOCKED LIMIT
100` of `tick`. The rows it skips are not in the scan. The run is not locked, and read as of
the start of the statement. -/
def selectReady (env : Env) (scan : Scan) : Stmt Db RowKey Result where
  locks snap := (readyTasks env scan snap).map fun e => .task e.1.id
  result snap db :=
    { joined := (readyTasks env scan snap).filterMap fun e =>
        (db.taskRuns.find? fun t => t.id = e.1.id && isDue env t).map fun t => (t, e.2) }
  write _ db := db

/-- `INSERT INTO task_attempts`, which counts no row if there is one with its key. -/
def insertAttempt (a : TaskAttempt) : Stmt Db RowKey Result where
  locks _ := []
  result _ db :=
    { count := if db.taskAttempts.all fun b =>
        ¬(b.taskRunId = a.taskRunId ∧ b.attemptNumber = a.attemptNumber) then 1 else 0 }
  write _ db := { db with taskAttempts := db.taskAttempts ++ [a] }

/-- The statement of `tick` that promotes. -/
def promoteRetriesTx (env : Env) : SqlProgram :=
  .stmt (updateTasks (fun _ t => t.status = .retryWait ∧ t.availableAt ≤ env.now)
    fun t => { t with status := .ready, updatedAt := env.now }) fun _ => .commit

/-- The loop of `tick` over the tasks it found, `n` being the number of UUIDs drawn before. -/
def dispatchTasksTx (env : Env) : List (TaskRun × Run) → ℕ → SqlProgram
  | [], _ => .commit
  | e :: es, n =>
    .stmt (updateTasks (fun _ => isReady e.1.id)
      fun t => { t with status := .dispatching, updatedAt := env.now }) fun dispatched =>
        if dispatched.tasks.length = 1 then
          .stmt (insertEvent (dispatchEvent env n e)) fun _ => dispatchTasksTx env es (n + 1)
        else dispatchTasksTx env es n

/-- The statements of `tick` that dispatch. -/
def dispatchReadyTx (env : Env) (scan : Scan) : SqlProgram :=
  .stmt (selectReady env scan) fun found => dispatchTasksTx env found.joined 0

/-- `id=$1 AND status='DISPATCHING'`. -/
def isDispatching (id : ℕ) (t : TaskRun) : Bool :=
  t.id = id ∧ t.status = .dispatching

/-- The statements of `Store.LeaseTask` after the first, `t` being the leased row. -/
def recordLeaseTx (env : Env) (workerId : String) (t : TaskRun) : SqlProgram :=
  .stmt (countRuns fun r => r.id = t.workflowRunId) fun run =>
    if run.count = 0 then .rollback .noRows
    else .stmt (insertAttempt (newAttempt env workerId t)) fun inserted =>
      if inserted.count = 0 then .rollback .database
      else .stmt (insertEvent (leasedEvent env workerId t)) fun _ => .commit

/-- The statements of `Store.LeaseTask`. -/
def leaseTaskTx (env : Env) (taskId : ℕ) (workerId : String) (duration : ℤ) : SqlProgram :=
  .stmt (updateTasks (fun _ => isDispatching taskId) (lease env workerId duration)) fun leased =>
    match leased.tasks with
    | [] => .rollback .leaseLost
    | t :: _ => recordLeaseTx env workerId t

/-! ## The programs alone -/

section Alone

variable (env : Env)

theorem dispatchTasksTx_exec (es : List (TaskRun × Run)) : ∀ (db : Db) (n : ℕ), db.Keyed →
    (dispatchTasksTx env es n).exec db = .ok (es.foldl (dispatchTask env) (db, n)).1 := by
  induction es with
  | nil => exact fun _ _ _ => rfl
  | cons e es ih =>
    intro db n hk
    have hlength : ((updateTasks (fun _ => isReady e.1.id) fun t =>
        { t with status := .dispatching, updatedAt := env.now }).result db db).tasks.length =
          db.taskRuns.countP (isReady e.1.id) := by
      simp [updateTasks, Table.returning, List.countP_eq_length_filter]
    rw [dispatchTasksTx, Program.exec, hlength, List.foldl_cons, dispatchTask]
    by_cases hone : db.taskRuns.countP (isReady e.1.id) = 1
    · rw [if_pos hone, if_pos hone, Program.exec, ih]
      · simp [updateTasks, insertEvent]
      · refine ⟨hk.runs, ?_⟩
        simp only [insertEvent, updateTasks]
        rw [Table.map_update]
        · exact hk.tasks
        · exact fun _ => rfl
    · have hnone : ∀ t ∈ db.taskRuns, ¬isReady e.1.id t = true := by
        intro t ht hready
        refine hone (Table.countP_eq_one hk.tasks.of_map ht hready fun u hu hu' => ?_)
        exact Table.eq_of_key hk.tasks hu ht
          ((of_decide_eq_true hu').1.trans (of_decide_eq_true hready).1.symm)
      rw [if_neg hone, if_neg hone]
      simp only [updateTasks, Table.update_requalifies, Table.update_eq_self hnone]
      exact ih db n hk

/-- There is no attempt with the number yet. -/
theorem insertAttempt_count_ne_zero {workerId : String} {t : TaskRun} {db : Db}
    (h : ∀ a ∈ db.taskAttempts, ¬(a.taskRunId = t.id ∧ a.attemptNumber = t.attemptCount))
    (snap : Db) : ((insertAttempt (newAttempt env workerId t)).result snap db).count ≠ 0 := by
  have hall : (db.taskAttempts.all fun a =>
      ¬(a.taskRunId = t.id ∧ a.attemptNumber = t.attemptCount)) = true :=
    List.all_eq_true.2 fun a ha => decide_eq_true (h a ha)
  exact (if_pos hall).trans_ne Nat.one_ne_zero

theorem leaseTaskTx_exec (taskId : ℕ) (workerId : String) (duration : ℤ) (db : Db) :
    (leaseTaskTx env taskId workerId duration).exec db =
      (leaseTask env taskId workerId duration db).map Prod.snd := by
  have hp : (fun t : TaskRun => decide (t.id = taskId ∧ t.status = .dispatching)) =
      isDispatching taskId := rfl
  rw [leaseTaskTx, Program.exec, leaseTask, hp]
  simp only [updateTasks, Table.returning_requalifies, Table.update_requalifies]
  cases Table.returning (isDispatching taskId) (lease env workerId duration) db.taskRuns with
  | nil => rfl
  | cons t ts =>
    simp only [List.head?_cons, orError, recordLeaseTx, Program.exec, countRuns, ok_bind]
    cases hrun : db.workflowRuns.find? fun r => decide (r.id = t.workflowRunId) with
    | none =>
      rw [if_pos (List.countP_eq_zero.2 (List.find?_eq_none.1 hrun))]
      rfl
    | some r =>
      have hpos : db.workflowRuns.countP (fun r => decide (r.id = t.workflowRunId)) ≠ 0 :=
        (List.countP_pos_iff.2 ⟨r, List.mem_of_find?_eq_some hrun,
          List.find?_some hrun⟩).ne'
      rw [if_neg hpos, Program.exec, ok_bind]
      by_cases hfree : ∀ a ∈ db.taskAttempts,
          ¬(a.taskRunId = t.id ∧ a.attemptNumber = t.attemptCount)
      · rw [if_neg, Program.exec, require,
          if_pos (List.all_eq_true.2 fun a ha => decide_eq_true (hfree a ha))]
        · rfl
        · exact insertAttempt_count_ne_zero env hfree db
      · rw [if_pos, Program.exec, require, if_neg]
        · rfl
        · exact fun hall => hfree fun a ha => of_decide_eq_true (List.all_eq_true.1 hall a ha)
        · exact if_neg fun hall => hfree fun a ha =>
            of_decide_eq_true (List.all_eq_true.1 hall a ha)

end Alone

/-! ## The rules -/

/-- What can become of a task until it is leased. -/
structure TaskLater (t t' : TaskRun) : Prop where
  id : t'.id = t.id
  workflowRunId : t'.workflowRunId = t.workflowRunId
  priority : t'.priority = t.priority
  availableAt : t'.availableAt = t.availableAt
  /-- A task that waits has waited all the time. -/
  waiting : t'.status.waiting = true → t.status.waiting = true
  retryWait : t'.status = .retryWait → t.status = .retryWait

/-- What can become of its run. -/
structure RunLater (r r' : Run) : Prop where
  id : r'.id = r.id
  tenantId : r'.tenantId = r.tenantId
  traceParent : r'.traceParent = r.traceParent

theorem TaskLater.refl (t : TaskRun) : TaskLater t t :=
  ⟨rfl, rfl, rfl, rfl, fun h => h, fun h => h⟩

theorem TaskLater.trans {a b c : TaskRun} (h : TaskLater a b) (h' : TaskLater b c) :
    TaskLater a c where
  id := h'.id.trans h.id
  workflowRunId := h'.workflowRunId.trans h.workflowRunId
  priority := h'.priority.trans h.priority
  availableAt := h'.availableAt.trans h.availableAt
  waiting := h.waiting ∘ h'.waiting
  retryWait := h.retryWait ∘ h'.retryWait

/-- The tables while tasks are handed over. -/
structure HandedOver (db db' : Db) : Prop where
  tasks : ∃ f : TaskRun → TaskRun, db'.taskRuns = db.taskRuns.map f ∧
    ∀ t ∈ db.taskRuns, TaskLater t (f t)
  runs : ∃ f : Run → Run, db'.workflowRuns = db.workflowRuns.map f ∧
    ∀ r ∈ db.workflowRuns, RunLater r (f r)

theorem HandedOver.refl (db : Db) : HandedOver db db :=
  ⟨⟨id, (List.map_id _).symm, fun t _ => .refl t⟩,
    ⟨id, (List.map_id _).symm, fun _ _ => ⟨rfl, rfl, rfl⟩⟩⟩

theorem HandedOver.trans {a b c : Db} (h : HandedOver a b) (h' : HandedOver b c) :
    HandedOver a c := by
  obtain ⟨⟨f, hf, hft⟩, g, hg, hgr⟩ := h
  obtain ⟨⟨f', hf', hft'⟩, g', hg', hgr'⟩ := h'
  refine ⟨⟨f' ∘ f, by rw [hf', hf, List.map_map], fun t ht => ?_⟩,
    ⟨g' ∘ g, by rw [hg', hg, List.map_map], fun r hr => ?_⟩⟩
  · exact (hft t ht).trans (hft' _ (hf ▸ List.mem_map_of_mem ht))
  · have h₁ := hgr r hr
    have h₂ := hgr' _ (hg ▸ List.mem_map_of_mem hr)
    exact ⟨h₂.id.trans h₁.id, h₂.tenantId.trans h₁.tenantId, h₂.traceParent.trans h₁.traceParent⟩

/-- The row is the same in both states. -/
def SameRow : RowKey → Db → Db → Prop
  | .run id, db, db' =>
    db'.workflowRuns.filter (fun r => r.id = id) = db.workflowRuns.filter fun r => r.id = id
  | .task id, db, db' => db'.taskRows id = db.taskRows id
  | .attempt _ _, _, _ => True

/-- The rules for handing over tasks. -/
def handoverRules : Rules Db RowKey where
  Inv db := db.Keyed ∧ AttemptsBounded db
  Later := HandedOver
  Same := SameRow
  later_refl := HandedOver.refl
  later_trans := HandedOver.trans
  same_refl k db := by cases k <;> simp [SameRow]
  same_trans {k a b c} h h' := by
    cases k with
    | run id => exact Eq.trans h' h
    | task id => exact Eq.trans h' h
    | attempt => trivial

/-! ## Rows that are not locked are not written -/

section Careful

variable {snap db : Db} {r : RowKey}

theorem updateTasks_same {p : Db → TaskRun → Bool} {f : TaskRun → TaskRun}
    (hf : ∀ t, (f t).id = t.id) (hr : r ∉ (updateTasks p f).locks snap) :
    SameRow r db ((updateTasks p f).write snap db) := by
  cases r with
  | run id => rfl
  | attempt => trivial
  | task id =>
    exact Table.filter_update_requalifies hf fun o ho hp hid =>
      hr (List.mem_map.2 ⟨o, List.mem_filter.2 ⟨ho, hp⟩, by rw [hid]⟩)

theorem updateRuns_same {p : Run → Bool} {f : Run → Run} (hf : ∀ r, (f r).id = r.id)
    (hr : r ∉ (updateRuns p f).locks snap) : SameRow r db ((updateRuns p f).write snap db) := by
  cases r with
  | task id => rfl
  | attempt => trivial
  | run id =>
    exact Table.filter_update_requalifies hf fun o ho hp hid =>
      hr (List.mem_map.2 ⟨o, List.mem_filter.2 ⟨ho, hp⟩, by rw [hid]⟩)

/-- The inserts and the counts write to no row. -/
theorem same_of_tables {db' : Db} (htasks : db'.taskRuns = db.taskRuns)
    (hruns : db'.workflowRuns = db.workflowRuns) : SameRow r db db' := by
  cases r <;> simp [SameRow, Db.taskRows, htasks, hruns]

theorem promoteRetriesTx_careful (env : Env) : (promoteRetriesTx env).Careful handoverRules :=
  .stmt (fun _ _ _ => updateTasks_same fun _ => rfl) fun _ => .commit

theorem dispatchTasksTx_careful (env : Env) (es : List (TaskRun × Run)) : ∀ n,
    (dispatchTasksTx env es n).Careful handoverRules := by
  induction es with
  | nil => exact fun _ => .commit
  | cons e es ih =>
    refine fun n => .stmt (fun _ _ _ => updateTasks_same fun _ => rfl) fun r => ?_
    split_ifs
    · exact .stmt (fun _ _ _ _ => same_of_tables rfl rfl) fun _ => ih _
    · exact ih _

theorem dispatchReadyTx_careful (env : Env) (scan : Scan) :
    (dispatchReadyTx env scan).Careful handoverRules :=
  .stmt (fun _ _ _ _ => same_of_tables rfl rfl) fun _ => dispatchTasksTx_careful env _ 0

theorem leaseTaskTx_careful (env : Env) (taskId : ℕ) (workerId : String) (duration : ℤ) :
    (leaseTaskTx env taskId workerId duration).Careful handoverRules := by
  refine .stmt (fun _ _ _ => updateTasks_same fun _ => rfl) fun leased => ?_
  split
  · exact .rollback _
  · refine .stmt (fun _ _ _ _ => same_of_tables rfl rfl) fun run => ?_
    split_ifs
    · exact .rollback _
    refine .stmt (fun _ _ _ _ => same_of_tables rfl rfl) fun inserted => ?_
    split_ifs
    · exact .rollback _
    · exact .stmt (fun _ _ _ _ => same_of_tables rfl rfl) fun _ => .commit

theorem cancelRunTx_careful (env : Env) (tenantId : ℕ) (userId : Option ℕ) (runId : ℕ) :
    (cancelRunTx env tenantId userId runId).Careful handoverRules := by
  refine .stmt (fun _ _ _ => updateRuns_same fun _ => rfl) fun cancelled => ?_
  split_ifs
  · exact .stmt (fun _ _ _ _ => same_of_tables rfl rfl) fun _ => .rollback _
  · exact .stmt (fun _ _ _ => updateTasks_same fun _ => rfl) fun _ =>
      .stmt (fun _ _ _ _ => same_of_tables rfl rfl) fun _ => .commit

end Careful

/-! ## What each transaction does once it has its rows -/

/-- A transaction that hands tasks over. -/
inductive HandoverTx
  | promote
  | dispatch (scan : Scan)
  | lease (taskId : ℕ) (workerId : String) (duration : ℤ)
  | cancel (tenantId : ℕ) (userId : Option ℕ) (runId : ℕ)

namespace HandoverTx

/-- Its statements. -/
def program (env : Env) : HandoverTx → SqlProgram
  | promote => promoteRetriesTx env
  | dispatch scan => dispatchReadyTx env scan
  | lease taskId workerId duration => leaseTaskTx env taskId workerId duration
  | cancel tenantId userId runId => cancelRunTx env tenantId userId runId

/-- The operation it does as one step, a dispatch on the rows that `Takes` says. -/
inductive Does : HandoverTx → Op → Prop
  | promote : Does .promote .promoteRetries
  | dispatch {scan scan' : Scan} (h : scan'.ids ⊆ scan.ids) :
      Does (.dispatch scan) (.dispatchReady scan')
  | lease (taskId : ℕ) (workerId : String) (duration : ℤ) :
      Does (.lease taskId workerId duration) (.leaseTask taskId workerId duration)
  | cancel (tenantId : ℕ) (userId : Option ℕ) (runId : ℕ) :
      Does (.cancel tenantId userId runId) (.cancelRun tenantId userId runId)

/-- The rows of a dispatch are those its `SELECT` found on an earlier state that are still ready. -/
def Takes (env : Env) (db : Db) : HandoverTx → Op → Prop
  | .dispatch scan, .dispatchReady scan' => ∃ snap, HandedOver snap db ∧
      scan'.ids = ((readyTasks env scan snap).filter fun e => db.stillDue env e.1.id).map
        fun e => e.1.id
  | _, _ => True

/-- The second state is what its operation makes of the first. -/
def Performs (x : HandoverTx) (env : Env) (db db' : Db) : Prop :=
  ∃ op reply, x.Does op ∧ x.Takes env db op ∧ op.exec env db = .ok (reply, db')

end HandoverTx

section Settles

variable {env : Env}

theorem HandedOver.exists_task {db db' : Db} (h : HandedOver db db') {t : TaskRun}
    (ht : t ∈ db'.taskRuns) : ∃ o ∈ db.taskRuns, TaskLater o t := by
  obtain ⟨f, hf, hlater⟩ := h.tasks
  rw [hf] at ht
  obtain ⟨o, ho, rfl⟩ := List.mem_map.1 ht
  exact ⟨o, ho, hlater o ho⟩

theorem HandedOver.countP_runs {db db' : Db} (h : HandedOver db db') {q : Run → Bool}
    (hq : ∀ r r', RunLater r r' → q r' = q r) :
    db'.workflowRuns.countP q = db.workflowRuns.countP q := by
  obtain ⟨f, hf, hlater⟩ := h.runs
  rw [hf, List.countP_map]
  refine List.countP_congr fun r hr => ?_
  rw [Function.comp_apply, hq r (f r) (hlater r hr)]

/-- A promotion takes the rows that wait now, all of which waited when it started. -/
theorem promoteRetriesTx_settles :
    (promoteRetriesTx env).Settles handoverRules (HandoverTx.promote.Performs env) := by
  intro snap db _ _ hlate
  refine ⟨.commit _, fun d d' hd hexec => ?_⟩
  cases hexec
  refine ⟨_, .done, .promote, trivial, ?_⟩
  have hrows : Table.update (Table.requalifies TaskRun.id
      (fun t => t.status = .retryWait ∧ t.availableAt ≤ env.now) snap.taskRuns)
      (fun t => { t with status := .ready, updatedAt := env.now }) d.taskRuns =
        d.taskRuns.map (promote env) := by
    rw [Table.update_requalifies_of]
    · simp [Table.update, promote]
    · intro t ht hp
      obtain ⟨o, ho, hot⟩ := (HandedOver.trans hlate hd.later).exists_task ht
      simp only [decide_eq_true_eq] at hp ⊢
      exact ⟨o, ho, ⟨hot.retryWait hp.1, hot.availableAt ▸ hp.2⟩, hot.id.symm⟩
  simp only [Op.exec, promoteRetries, updateTasks, hrows]

/-- The rest of a lease, with the task's row locked. -/
theorem recordLeaseTx_steady {taskId : ℕ} {workerId : String} {t u : TaskRun} {held : List RowKey}
    {db : Db} (hheld : .task taskId ∈ held) (hu : db.taskRows taskId = [u])
    (ht : t.id = taskId ∧ t.attemptCount = u.attemptCount + 1) {w : Db → Db}
    (hruns : ∀ d, (w d).workflowRuns = d.workflowRuns)
    (hattempts : ∀ d, (w d).taskAttempts = d.taskAttempts) :
    (recordLeaseTx env workerId t).Steady handoverRules held db w := by
  have hfree : ∀ d, handoverRules.Rely held db d → ∀ a ∈ d.taskAttempts,
      ¬(a.taskRunId = t.id ∧ a.attemptNumber = t.attemptCount) := by
    rintro d hd a ha ⟨hid, hn⟩
    obtain ⟨v, hv, hvid, hle⟩ := hd.inv.2 a ha
    have hrows : d.taskRows taskId = [u] := (hd.same _ hheld).trans hu
    have hvu : v ∈ d.taskRows taskId :=
      List.mem_filter.2 ⟨hv, decide_eq_true (hvid.trans (hid.trans ht.1))⟩
    rw [hrows, List.mem_singleton] at hvu
    rw [hvu] at hle
    omega
  have hcount : ∀ d, handoverRules.Rely held db d →
      (w d).workflowRuns.countP (fun r => r.id = t.workflowRunId) =
        db.workflowRuns.countP fun r => r.id = t.workflowRunId := by
    intro d hd
    rw [hruns d]
    exact hd.later.countP_runs fun r r' h => by rw [h.id]
  by_cases hzero : db.workflowRuns.countP (fun r => r.id = t.workflowRunId) = 0
  · refine .stmt (.rollback .noRows) (fun d d' hd _ => ?_) (fun _ _ _ _ => rfl) (.rollback _ _)
    exact if_pos ((hcount d hd).trans hzero)
  · refine .stmt _ (fun d d' hd _ => if_neg fun h => hzero ((hcount d hd).symm.trans h))
      (fun _ _ _ _ => rfl) (.stmt _ (fun d d' hd hd' => if_neg ?_) (fun _ _ _ _ => rfl)
      (.stmt .commit (fun _ _ _ _ => rfl) (fun _ _ _ _ => rfl) (.commit _)))
    refine insertAttempt_count_ne_zero env (fun a ha => hfree d' (hd.trans hd') a ?_) _
    rw [← hattempts d']
    exact ha

/-- A lease looks at the rows of its task only. -/
theorem returning_taskRows (taskId : ℕ) (f : TaskRun → TaskRun) (db : Db) :
    Table.returning (isDispatching taskId) f db.taskRuns =
      Table.returning (isDispatching taskId) f (db.taskRows taskId) :=
  (Table.returning_filter_of (fun _ _ ht => decide_eq_true (of_decide_eq_true ht).1) f).symm

theorem leaseTaskTx_settles {taskId : ℕ} {workerId : String} {duration : ℤ} :
    (leaseTaskTx env taskId workerId duration).Settles handoverRules
      ((HandoverTx.lease taskId workerId duration).Performs env) := by
  intro snap db _ hdb hlate
  by_cases hsnap : ∃ o ∈ snap.taskRuns, isDispatching taskId o = true
  · obtain ⟨o, ho, hp⟩ := hsnap
    have hoid : o.id = taskId := (of_decide_eq_true hp).1
    have hlock : .task taskId ∈
        (updateTasks (fun _ => isDispatching taskId) (lease env workerId duration)).locks snap :=
      List.mem_map.2 ⟨o, List.mem_filter.2 ⟨ho, hp⟩, by rw [hoid]⟩
    have hreq : Table.requalifies TaskRun.id (isDispatching taskId) snap.taskRuns =
        isDispatching taskId := funext fun t =>
      Table.requalifies_of_mem ho hp fun ht => hoid.trans (of_decide_eq_true ht).1.symm
    have hresult : ((updateTasks (fun _ => isDispatching taskId)
        (lease env workerId duration)).result snap db).tasks =
        Table.returning (isDispatching taskId) (lease env workerId duration)
          (db.taskRows taskId) := by
      simp only [updateTasks, hreq, returning_taskRows]
    cases hrows : Table.returning (isDispatching taskId) (lease env workerId duration)
        (db.taskRows taskId) with
    | nil =>
      simp only [hresult, hrows]
      exact .rollback _ _
    | cons t ts =>
      simp only [hresult, hrows]
      obtain ⟨u, hu, -, hut⟩ := Table.head?_returning
        (show (Table.returning _ _ _).head? = some t by rw [hrows]; rfl)
      have huid : u.id = taskId := of_decide_eq_true (List.mem_filter.1 hu).2
      have hone : db.taskRows taskId = [u] := by
        rw [← huid]
        exact Table.filter_key hdb.1.tasks (List.mem_filter.1 hu).1
      refine ⟨recordLeaseTx_steady hlock hone ⟨?_, ?_⟩ (fun _ => rfl) fun _ => rfl,
        fun d d' hd hexec => ?_⟩
      · rw [← hut, ← huid]
        rfl
      · rw [← hut]
        rfl
      · have halone : (leaseTaskTx env taskId workerId duration).exec d = .ok d' := by
          have hd' : d.taskRows taskId = db.taskRows taskId := hd.same _ hlock
          simp only [leaseTaskTx, Program.exec, updateTasks, Table.returning_requalifies,
            returning_taskRows, hd', hrows, Table.update_requalifies]
          simpa only [updateTasks, hreq] using hexec
        rw [leaseTaskTx_exec] at halone
        obtain ⟨⟨⟨t', uri⟩, _⟩, hok, rfl⟩ := map_eq_ok.1 halone
        exact ⟨_, .leased t' uri, .lease _ _ _, trivial, by simp [Op.exec, hok, Except.map]⟩
  · have hnone : ((updateTasks (fun _ => isDispatching taskId)
        (lease env workerId duration)).result snap db).tasks = [] := by
      simp only [updateTasks, Table.returning, List.map_eq_nil_iff, List.filter_eq_nil_iff]
      exact fun t _ => Table.not_requalifies (fun o ho hp => hsnap ⟨o, ho, hp⟩) t
    simp only [hnone]
    exact .rollback _ _

/-- A cancellation that finds the run closed fails. -/
theorem cancelRest_settled {tenantId runId : ℕ} {userId : Option ℕ} {snap db : Db}
    {held : List RowKey} {Spec : Db → Db → Prop} {found : Result} (hzero : found.count = 0) :
    ReadCommitted.Settled handoverRules Spec held db ((cancelRuns env tenantId runId).write snap)
      (cancelRest env tenantId userId runId found) := by
  have hcount : ∀ d, handoverRules.Rely held db d →
      ((cancelRuns env tenantId runId).write snap d).workflowRuns.countP
        (fun r => r.id = runId ∧ r.tenantId = tenantId) =
      db.workflowRuns.countP fun r => r.id = runId ∧ r.tenantId = tenantId := by
    intro d hd
    rw [← hd.later.countP_runs fun r r' h => by rw [h.id, h.tenantId]]
    simp only [cancelRuns, updateRuns, Table.update, List.countP_map]
    refine List.countP_congr fun r _ => ?_
    rw [Function.comp_apply]
    split_ifs <;> rfl
  rw [cancelRest, if_pos hzero]
  refine ⟨.stmt (.rollback (if db.workflowRuns.countP (fun r => r.id = runId ∧
      r.tenantId = tenantId) = 0 then .notFound else .conflict)) (fun d d' hd _ => ?_)
    (fun _ _ _ _ => rfl) (.rollback _ _), fun d d' _ h => by cases h⟩
  simp only [countRuns, hcount d hd]

theorem cancelRunTx_settles {tenantId runId : ℕ} {userId : Option ℕ} :
    (cancelRunTx env tenantId userId runId).Settles handoverRules
      ((HandoverTx.cancel tenantId userId runId).Performs env) := by
  rw [cancelRunTx_eq]
  intro snap db _ _ _
  by_cases hsnap : ∃ r ∈ snap.workflowRuns, cancellable tenantId runId r = true
  · by_cases hnow : ∃ r ∈ db.workflowRuns, cancellable tenantId runId r = true
    · rw [(cancelRuns_agrees hsnap db).1, cancelRest_of_open hnow]
      refine ⟨.stmt _ (fun _ _ _ _ => rfl) (fun d d' hd hd' => ?_)
        (.stmt .commit (fun _ _ _ _ => rfl) (fun _ _ _ _ => rfl) (.commit _)),
        fun d d' hd hexec => ?_⟩
      · simp only [cancelTasks, updateTasks, Table.update_requalifies]
        rw [Table.update_requalifies_of]
        intro t ht hp
        obtain ⟨o, ho, hot⟩ := HandedOver.exists_task hd'.later ht
        simp only [decide_eq_true_eq] at hp ⊢
        exact ⟨o, ho, ⟨hot.workflowRunId ▸ hp.1, hot.waiting hp.2⟩, hot.id.symm⟩
      · have hopen : ∃ r ∈ d.workflowRuns, cancellable tenantId runId r = true := by
          obtain ⟨r, hr, hp⟩ := hnow
          have hrow : r ∈ db.workflowRuns.filter fun r => r.id = runId :=
            List.mem_filter.2 ⟨hr, decide_eq_true (of_decide_eq_true hp).1⟩
          have hsame : d.workflowRuns.filter (fun r => r.id = runId) =
              db.workflowRuns.filter fun r => r.id = runId :=
            hd.same _ (mem_locks_cancelRuns hsnap)
          exact ⟨r, List.mem_of_mem_filter (hsame ▸ hrow), hp⟩
        have halone : (cancelRunTx env tenantId userId runId).exec d = .ok d' := by
          rw [cancelRunTx_eq, Program.exec, cancelRest_of_open hopen,
            ← (cancelRuns_agrees hsnap d).2]
          exact hexec
        rw [cancelRunTx_exec] at halone
        exact ⟨_, .done, .cancel _ _ _, trivial, by simp [Op.exec, halone, Except.map]⟩
    · refine cancelRest_settled ?_
      rw [(cancelRuns_agrees hsnap db).1]
      simp only [cancelRuns, updateRuns, Table.countP_requalifies]
      exact List.countP_eq_zero.2 fun r hr hp => hnow ⟨r, hr, hp⟩
  · refine cancelRest_settled (List.countP_eq_zero.2 fun r _ => ?_)
    exact Table.not_requalifies (fun o ho hp => hsnap ⟨o, ho, hp⟩) r

/-- The loop of a dispatch, with the rows it found locked. -/
theorem dispatchTasksTx_steady {held : List RowKey} {db : Db} (es : List (TaskRun × Run)) :
    ∀ (n : ℕ) (w : Db → Db), (es.map fun e => e.1.id).Nodup → (∀ e ∈ es, e.1.status = .ready) →
      (∀ d, handoverRules.Rely held db d → ∀ e ∈ es, (w d).taskRows e.1.id = [e.1]) →
      (dispatchTasksTx env es n).Steady handoverRules held db w := by
  induction es with
  | nil => exact fun _ w _ _ _ => .commit w
  | cons e es ih =>
    intro n w hnd hready hrows
    rw [List.map_cons, List.nodup_cons] at hnd
    have hself : isReady e.1.id e.1 = true := decide_eq_true ⟨rfl, hready e (by simp)⟩
    have hmem : ∀ d, handoverRules.Rely held db d → e.1 ∈ (w d).taskRuns := fun d hd =>
      List.mem_of_mem_filter (hrows d hd e (by simp) ▸ List.mem_singleton_self e.1)
    have hreq : ∀ d, handoverRules.Rely held db d →
        Table.requalifies TaskRun.id (isReady e.1.id) (w d).taskRuns = isReady e.1.id :=
      fun d hd => funext fun t =>
        Table.requalifies_of_mem (hmem d hd) hself fun ht => (of_decide_eq_true ht).1.symm
    refine .stmt _ (fun d d' hd hd' => if_pos ?_) (fun d d' hd hd' => ?_)
      (.stmt _ (fun _ _ _ _ => rfl) (fun _ _ _ _ => rfl)
        (ih _ _ hnd.2 (fun c hc => hready c (by simp [hc])) fun d hd c hc => ?_))
    · have hone : ((w d').taskRuns.filter (isReady e.1.id)).length = 1 := by
        rw [← Table.filter_filter_of (q := fun t => decide (t.id = e.1.id))
          fun t _ ht => decide_eq_true (of_decide_eq_true ht).1]
        have := hrows d' (hd.trans hd') e (by simp)
        rw [Db.taskRows] at this
        simp [this, hself]
      simpa [updateTasks, Table.returning, hreq d hd] using hone
    · simp only [updateTasks, hreq d hd, hreq d' (hd.trans hd')]
    · have hne : c.1.id ≠ e.1.id := fun hid => hnd.1 (hid ▸ List.mem_map_of_mem hc)
      have hrow := hrows d hd c (by simp [hc])
      have hupdate := taskRows_updateTasks (p := isReady e.1.id)
        (f := fun t : TaskRun => { t with status := .dispatching, updatedAt := env.now })
        (fun _ => rfl) hrow hrow
      exact hupdate.trans (by simp [isReady, hne])

/-- Rows that are all still ready are what a scan of them selects. -/
theorem readyTasks_of_rows {db : Db} (hk : db.Keyed) {es : List (TaskRun × Run)} {g : Run → Run}
    (hnd : (es.map fun e => e.1.id).Nodup)
    (hmem : ∀ e ∈ es, e.1 ∈ db.taskRuns ∧ g e.2 ∈ db.workflowRuns ∧
      (g e.2).id = e.1.workflowRunId ∧ isDue env e.1 = true)
    (hsorted : es.Pairwise dispatchOrder) (hlen : es.length ≤ 100) :
    readyTasks env ⟨es.map fun e => e.1.id, hnd⟩ db = es.map fun e => (e.1, g e.2) := by
  have hrows : Scan.rows ⟨es.map fun e => e.1.id, hnd⟩ db = es.map fun e => (e.1, g e.2) := by
    have hfound : ((es.map fun e => e.1.id).filterMap fun id =>
        db.taskRuns.find? fun t => t.id = id) = es.map Prod.fst := by
      rw [List.filterMap_map, ← List.filterMap_eq_map]
      exact List.filterMap_congr fun e he => Table.find?_key hk.tasks (hmem e he).1
    rw [Scan.rows, hfound, Table.join, List.flatMap_map, List.map_eq_flatMap]
    refine List.flatMap_congr fun e he => ?_
    obtain ⟨-, hr, hrid, -⟩ := hmem e he
    rw [← hrid, Table.filter_key hk.runs hr, List.map_singleton]
  rw [readyTasks, hrows, List.filter_eq_self.2, List.Pairwise.insertionSort_eq,
    List.take_of_length_le]
  · simpa using hlen
  · exact List.pairwise_map.2 hsorted
  · intro e he
    obtain ⟨o, ho, rfl⟩ := List.mem_map.1 he
    exact (hmem o ho).2.2.2

/-- Only rows of the scan are selected. -/
theorem mem_scan_of_readyTasks {scan : Scan} {db : Db} {e : TaskRun × Run}
    (h : e ∈ readyTasks env scan db) : e.1.id ∈ scan.ids := by
  have hrow := (List.mem_filter.1 ((List.mem_insertionSort _).1 (List.mem_of_mem_take h))).1
  obtain ⟨id, hid, hfind⟩ := List.mem_filterMap.1 (Table.mem_join.1 hrow).1
  have hp := List.find?_some hfind
  rwa [of_decide_eq_true hp]

/-- A row the `SELECT` of a dispatch gives back : it was ready and still is. -/
theorem mem_selectReady {scan : Scan} {snap db : Db} {e : TaskRun × Run}
    (h : e ∈ ((selectReady env scan).result snap db).joined) :
    e.1 ∈ db.taskRuns ∧ isDue env e.1 = true ∧
      ∃ o ∈ readyTasks env scan snap, e.1.id = o.1.id ∧ e.2 = o.2 := by
  obtain ⟨o, ho, hfind⟩ := List.mem_filterMap.1 h
  obtain ⟨t, ht, rfl⟩ := Option.map_eq_some_iff.1 hfind
  have hp := List.find?_some ht
  simp only [Bool.and_eq_true, decide_eq_true_eq] at hp
  exact ⟨List.mem_of_find?_eq_some ht, hp.2, o, ho, hp.1, rfl⟩

/-- They are those of the rows it found that are still due. -/
theorem ids_selectReady (env : Env) (scan : Scan) (snap db : Db) :
    (((selectReady env scan).result snap db).joined.map fun e => e.1.id) =
      ((readyTasks env scan snap).filter fun e => db.stillDue env e.1.id).map fun e => e.1.id := by
  simp only [selectReady, List.map_filterMap, ← List.filterMap_eq_map, List.filterMap_filter]
  refine List.filterMap_congr fun e _ => ?_
  have hdue : db.stillDue env e.1.id =
      (db.taskRuns.find? fun t => t.id = e.1.id && isDue env t).isSome := by
    rw [Bool.eq_iff_iff, Db.stillDue, Db.taskRows, List.any_filter, List.find?_isSome,
      List.any_eq_true]
  cases hfind : db.taskRuns.find? fun t => t.id = e.1.id && isDue env t with
  | none => simp [hdue, hfind]
  | some t =>
    have hp := List.find?_some hfind
    simp only [Bool.and_eq_true, decide_eq_true_eq] at hp
    simp [hdue, hfind, hp.1]

instance : Std.Total dispatchOrder :=
  ⟨fun a b => by unfold dispatchOrder; omega⟩

instance : IsTrans (TaskRun × Run) dispatchOrder :=
  ⟨fun a b c hab hbc => by unfold dispatchOrder at *; omega⟩

/-- They come in the order of the `SELECT`, and none twice. -/
theorem pairwise_selectReady (env : Env) (scan : Scan) {snap db : Db} (hsnap : snap.Keyed)
    (hlate : HandedOver snap db) :
    (((selectReady env scan).result snap db).joined.map fun e => e.1.id).Nodup ∧
      ((selectReady env scan).result snap db).joined.Pairwise dispatchOrder ∧
      ((selectReady env scan).result snap db).joined.length ≤ 100 := by
  have hsorted : (readyTasks env scan snap).Pairwise dispatchOrder :=
    (List.pairwise_insertionSort dispatchOrder _).sublist (List.take_sublist _ _)
  have hkeys : ∀ (o e : TaskRun × Run), o ∈ readyTasks env scan snap →
      (db.taskRuns.find? fun t => t.id = o.1.id && isDue env t).map (fun t => (t, o.2)) = some e →
      e.1.id = o.1.id ∧ e.1.priority = o.1.priority ∧ e.1.availableAt = o.1.availableAt := by
    intro o e ho hfind
    obtain ⟨t, ht, rfl⟩ := Option.map_eq_some_iff.1 hfind
    have hp := List.find?_some ht
    simp only [Bool.and_eq_true, decide_eq_true_eq] at hp
    obtain ⟨u, hu, hut⟩ := hlate.exists_task (List.mem_of_find?_eq_some ht)
    obtain rfl := Table.eq_of_key hsnap.tasks hu (mem_readyTasks ho).1 (hut.id.symm.trans hp.1)
    exact ⟨hp.1, hut.priority, hut.availableAt⟩
  refine ⟨?_, ?_, ?_⟩
  · have hnd : ((readyTasks env scan snap).map fun e => e.1.id).Nodup := nodup_readyTasks hsnap scan
    rw [List.Nodup, List.pairwise_map] at hnd ⊢
    refine List.pairwise_filterMap.2 (hnd.imp_of_mem fun ho ho' hne e he e' he' => ?_)
    rw [(hkeys _ _ ho he).1, (hkeys _ _ ho' he').1]
    exact hne
  · refine List.pairwise_filterMap.2 (hsorted.imp_of_mem fun ho ho' hle e he e' he' => ?_)
    rw [dispatchOrder, (hkeys _ _ ho he).2.1, (hkeys _ _ ho he).2.2, (hkeys _ _ ho' he').2.1,
      (hkeys _ _ ho' he').2.2]
    exact hle
  · exact (List.length_filterMap_le _ _).trans (List.length_take_le _ _)

theorem dispatchReadyTx_settles {scan : Scan} :
    (dispatchReadyTx env scan).Settles handoverRules
      ((HandoverTx.dispatch scan).Performs env) := by
  intro snap db hsnap hdb hlate
  obtain ⟨hnd, hsorted, hlen⟩ := pairwise_selectReady env scan hsnap.1 hlate
  have hfound : ∀ e ∈ ((selectReady env scan).result snap db).joined, e.1 ∈ db.taskRuns ∧
      isDue env e.1 = true ∧ ∃ o ∈ readyTasks env scan snap, e.1.id = o.1.id ∧ e.2 = o.2 :=
    fun e he => mem_selectReady he
  have hids := ids_selectReady env scan snap db
  change ReadCommitted.Settled _ _ _ _ _ (dispatchTasksTx env _ 0)
  generalize ((selectReady env scan).result snap db).joined = es at hnd hsorted hlen hfound hids ⊢
  have hready : ∀ e ∈ es, e.1.status = .ready :=
    fun e he => (of_decide_eq_true (hfound e he).2.1).1
  have hrows : ∀ d, handoverRules.Rely ((selectReady env scan).locks snap) db d →
      ∀ e ∈ es, d.taskRows e.1.id = [e.1] := by
    intro d hd e he
    obtain ⟨hmem, -, o, ho, hid, -⟩ := hfound e he
    have hlock : .task e.1.id ∈ (selectReady env scan).locks snap :=
      List.mem_map.2 ⟨o, ho, by rw [hid]⟩
    exact (hd.same _ hlock).trans (Table.filter_key hdb.1.tasks hmem)
  refine ⟨dispatchTasksTx_steady _ 0 (fun d => d) hnd hready hrows, fun d d' hd hexec => ?_⟩
  have hk : d.Keyed := hd.inv.1
  have hmem : ∀ e ∈ es, e.1 ∈ d.taskRuns :=
    fun e he => List.mem_of_mem_filter (hrows d hd e he ▸ List.mem_singleton_self e.1)
  obtain ⟨g, hg, hlater⟩ := (HandedOver.trans hlate hd.later).runs
  have hruns : ∀ e ∈ es, g e.2 ∈ d.workflowRuns ∧ (g e.2).id = e.1.workflowRunId ∧
      (g e.2).traceParent = e.2.traceParent := by
    intro e he
    obtain ⟨hedb, -, o, ho, hid, hrun⟩ := hfound e he
    obtain ⟨hot, hor, horid, -⟩ := mem_readyTasks ho
    obtain ⟨u, hu, hue⟩ := HandedOver.exists_task hlate hedb
    obtain rfl := Table.eq_of_key hsnap.1.tasks hu hot (hue.id.symm.trans hid)
    have hl := hlater o.2 hor
    rw [hrun, hg]
    exact ⟨List.mem_map_of_mem hor, by rw [hl.id, horid, hue.workflowRunId], hl.traceParent⟩
  have hsel : readyTasks env ⟨es.map fun e => e.1.id, hnd⟩ d = es.map fun e => (e.1, g e.2) :=
    readyTasks_of_rows hk hnd (fun e he => ⟨hmem e he, (hruns e he).1, (hruns e he).2.1,
      (hfound e he).2.1⟩) hsorted hlen
  refine ⟨.dispatchReady ⟨_, hnd⟩, .done, .dispatch fun id hid => ?_,
    ⟨snap, HandedOver.trans hlate hd.later, ?_⟩, ?_⟩
  · obtain ⟨e, he, rfl⟩ := List.mem_map.1 hid
    obtain ⟨-, -, o, ho, hid, -⟩ := hfound e he
    rw [hid]
    exact mem_scan_of_readyTasks ho
  · refine hids.trans (congrArg _ (List.filter_congr fun o ho => ?_))
    have hsame : d.taskRows o.1.id = db.taskRows o.1.id :=
      hd.same _ (List.mem_map.2 ⟨o, ho, rfl⟩)
    rw [Db.stillDue, Db.stillDue, hsame]
  · change (dispatchTasksTx env es 0).exec d = .ok d' at hexec
    rw [dispatchTasksTx_exec env _ _ _ hk, foldl_dispatchTask _ _ _ hk hnd
      fun e he => ⟨hmem e he, hready e he⟩] at hexec
    have hevents : (es.map fun e => (e.1, g e.2)).zipIdx.map (fun e => dispatchEvent env e.2 e.1) =
        es.zipIdx.map fun e => dispatchEvent env e.2 e.1 := by
      rw [List.zipIdx_map, List.map_map]
      refine List.map_congr_left fun e he => ?_
      simp [dispatchEvent, (hruns e.1 (List.fst_mem_of_mem_zipIdx he)).2.2]
    rw [Op.exec, dispatchReady_eq hk, hsel, hevents, List.map_map]
    cases hexec
    rfl

end Settles

/-! ## What the operations do to a task -/

/-- The task has not been dispatched yet. -/
def TaskStatus.undispatched : TaskStatus → Bool
  | .retryWait | .ready => true
  | _ => false

/-- The task has not been leased yet. -/
def TaskStatus.unleased : TaskStatus → Bool
  | .retryWait | .ready | .dispatching => true
  | _ => false

/-- How many events of this type there are about a task. -/
def Db.sent (type : EventType) (id : ℕ) (db : Db) : ℕ :=
  db.outboxEvents.countP fun e => e.eventType = type ∧ e.aggregateId = id

namespace HandoverTx

variable {x : HandoverTx} {env : Env} {op : Op} {db db' : Db} {t t' : TaskRun}

theorem Does.moves (h : x.Does op) (hk : db.Keyed) {reply : Reply}
    (hok : op.exec env db = .ok (reply, db')) : Moves env op db db' := by
  rcases exec_moves hk hok with hm | ⟨run, dag, hc⟩
  · exact hm
  · obtain ⟨_, _, _, _, _, _, hop⟩ := hc.isCreate
    cases h <;> cases hop

/-- Only tasks that wait are written to, and none is put back to wait for its retry. -/
theorem Does.task (h : x.Does op) (hm : TaskMove env db op t t') :
    t' = t ∨ t.status.waiting = true ∧ t'.status ≠ .retryWait ∧ t'.id = t.id ∧
      t'.workflowRunId = t.workflowRunId ∧ t'.priority = t.priority ∧
      t'.availableAt = t.availableAt := by
  cases h <;> cases hm
  case promote.keep | dispatch.keep | lease.keep | cancel.keep => exact .inl rfl
  case promote.promote hst _ => exact .inr ⟨by rw [hst]; rfl, by simp, rfl, rfl, rfl, rfl⟩
  case dispatch.dispatch hready =>
    have hst := (mem_readyTasks hready).2.2.2.1
    exact .inr ⟨by rw [hst]; rfl, by simp, rfl, rfl, rfl, rfl⟩
  case lease.lease hst =>
    exact .inr ⟨by rw [hst]; rfl, by simp [RunMesh.lease], rfl, rfl, rfl, rfl⟩
  case cancel.cancel hwait => exact .inr ⟨hwait, by simp, rfl, rfl, rfl, rfl⟩

theorem Does.taskLater (h : x.Does op) (hm : TaskMove env db op t t') : TaskLater t t' := by
  rcases h.task hm with rfl | ⟨hwait, hne, hid, hrun, hpriority, havailable⟩
  · exact .refl _
  · exact ⟨hid, hrun, hpriority, havailable, fun _ => hwait, fun hst => absurd hst hne⟩

theorem Does.runLater (h : x.Does op) {r r' : Run} (hm : RunMove env db op r r') :
    RunLater r r' := by
  cases h <;> cases hm <;> exact ⟨rfl, rfl, rfl⟩

/-- The transactions keep the rules. -/
theorem Performs.kept (h : x.Performs env db db') (hinv : db.Keyed ∧ AttemptsBounded db) :
    (db'.Keyed ∧ AttemptsBounded db') ∧ HandedOver db db' := by
  obtain ⟨op, reply, hdoes, -, hok⟩ := h
  have hm := hdoes.moves hinv.1 hok
  refine ⟨⟨hm.keyed hinv.1, exec_attemptsBounded hinv.1 hok hinv.2⟩, ?_, ?_⟩
  · obtain ⟨f, hf, hmoves⟩ := hm.tasks
    exact ⟨f, hf, fun t ht => hdoes.taskLater (hmoves t ht)⟩
  · obtain ⟨f, hf, hmoves⟩ := hm.runs
    exact ⟨f, hf, fun r hr => hdoes.runLater (hmoves r hr)⟩

/-- A task is sent on by an event of the type, if it has not been. -/
structure Handed (type : EventType) (unsent : TaskStatus → Bool) (db db' : Db) (t t' : TaskRun) :
    Prop where
  id : t'.id = t.id
  le : db.sent type t.id ≤ db'.sent type t.id
  once : db'.sent type t.id + (unsent t'.status).toNat ≤
    db.sent type t.id + (unsent t.status).toNat

section Handed

variable {type : EventType} {unsent : TaskStatus → Bool}

theorem Handed.refl (db : Db) (t : TaskRun) : Handed type unsent db db t t :=
  ⟨rfl, le_refl _, le_refl _⟩

theorem Handed.trans {db'' : Db} {t'' : TaskRun} (h : Handed type unsent db db' t t')
    (h' : Handed type unsent db' db'' t' t'') : Handed type unsent db db'' t t'' := by
  obtain ⟨hid, hle, honce⟩ := h
  obtain ⟨hid', hle', honce'⟩ := h'
  rw [hid] at hle' honce'
  exact ⟨hid'.trans hid, hle.trans hle', honce'.trans honce⟩

/-- Without new events the task does not go back. -/
theorem Handed.of_events (hid : t'.id = t.id) (hev : db'.outboxEvents = db.outboxEvents)
    (hst : unsent t'.status = true → unsent t.status = true) : Handed type unsent db db' t t' := by
  have hsent : db'.sent type t.id = db.sent type t.id := by rw [Db.sent, hev, Db.sent]
  refine ⟨hid, hsent.ge, ?_⟩
  rw [hsent]
  exact Nat.add_le_add_left (Bool.toNat_le_toNat hst) _

theorem Handed.sent_le (h : Handed type unsent db db' t t') :
    db'.sent type t.id ≤ db.sent type t.id + (unsent t.status).toNat :=
  (Nat.le_add_right _ _).trans h.once

theorem Handed.sent_eq (h : Handed type unsent db db' t t') (hst : unsent t.status = false) :
    db'.sent type t.id = db.sent type t.id := by
  have hle := h.sent_le
  rw [hst] at hle
  exact le_antisymm hle h.le

end Handed

/-- A dispatch adds one event for each task it dispatches. -/
theorem sent_dispatchReady (hk : db.Keyed) (scan : Scan) (type : EventType) (id : ℕ) :
    (dispatchReady env scan db).sent type id = db.sent type id +
      if type = .dispatch then ((readyTasks env scan db).map fun e => e.1.id).count id else 0 := by
  rw [dispatchReady_eq hk, Db.sent, List.countP_append, List.countP_map]
  refine congrArg (db.sent type id + ·) ?_
  split_ifs with htype
  · have hfst : ((readyTasks env scan db).map fun e => e.1.id).count id =
        ((readyTasks env scan db).zipIdx.map Prod.fst).countP fun e => e.1.id = id := by
      rw [List.zipIdx_map_fst, List.count, List.countP_map]
      exact List.countP_congr fun e _ => by simp
    rw [hfst, List.countP_map]
    exact List.countP_congr fun e _ => by simp [dispatchEvent, newEvent, htype]
  · refine List.countP_eq_zero.2 fun e _ => ?_
    simp [dispatchEvent, newEvent, Ne.symm htype]

/-- What a transaction does to a task. -/
theorem Performs.handed (h : x.Performs env db db') (hk : db.Keyed) (ht : t ∈ db.taskRuns) :
    ∃ t' ∈ db'.taskRuns, Handed .dispatch TaskStatus.undispatched db db' t t' ∧
      Handed .leased TaskStatus.unleased db db' t t' := by
  obtain ⟨op, reply, hdoes, -, hok⟩ := h
  cases hdoes with
  | promote =>
    cases hok
    refine ⟨RunMesh.promote env t, List.mem_map_of_mem ht, .of_events ?_ rfl ?_,
      .of_events ?_ rfl ?_⟩ <;>
      unfold RunMesh.promote <;> split_ifs with hp <;>
      simp_all [TaskStatus.undispatched, TaskStatus.unleased]
  | @dispatch _ scan' =>
    cases hok
    have hnd : ((readyTasks env scan' db).map fun e => e.1.id).Nodup := nodup_readyTasks hk scan'
    refine ⟨dispatchRow env ((readyTasks env scan' db).map fun e => e.1.id) t, ?_, ?_⟩
    · rw [dispatchReady_eq hk]
      exact List.mem_map_of_mem ht
    unfold dispatchRow
    split_ifs with hmem
    · obtain ⟨e, he, hid⟩ := List.mem_map.1 hmem
      obtain ⟨hdb, -, -, hready, -⟩ := mem_readyTasks he
      obtain rfl := Table.eq_of_key hk.tasks hdb ht hid
      refine ⟨⟨rfl, ?_, ?_⟩, rfl, ?_, ?_⟩ <;>
        simp [sent_dispatchReady hk, List.count_eq_one_of_mem hnd hmem, hready,
          TaskStatus.undispatched, TaskStatus.unleased]
    · refine ⟨⟨rfl, ?_, ?_⟩, rfl, ?_, ?_⟩ <;>
        simp [sent_dispatchReady hk, List.count_eq_zero_of_not_mem hmem]
  | lease taskId workerId duration =>
    obtain ⟨⟨⟨t₁, uri⟩, _⟩, hlease, heq⟩ := map_eq_ok.1 hok
    cases heq
    obtain ⟨u, hu, -, hst, rfl, -, rfl⟩ := leaseTask_ok hk hlease
    refine ⟨_, List.mem_map_of_mem ht, ?_⟩
    dsimp only
    split_ifs with hid
    · obtain rfl := Table.eq_of_key hk.tasks ht hu (of_decide_eq_true hid)
      refine ⟨⟨rfl, ?_, ?_⟩, rfl, ?_, ?_⟩ <;>
        simp [Db.sent, leasedEvent, newEvent, RunMesh.lease, hst, TaskStatus.undispatched,
          TaskStatus.unleased]
    · have hne : u.id ≠ t.id := fun heq => hid (decide_eq_true heq.symm)
      refine ⟨⟨rfl, ?_, ?_⟩, rfl, ?_, ?_⟩ <;>
        simp [Db.sent, leasedEvent, newEvent, RunMesh.lease, hne]
  | cancel tenantId userId runId =>
    obtain ⟨-, rfl⟩ := cancelRun_ok (of_map_done hok)
    refine ⟨cancelWaiting env runId t, List.mem_map_of_mem ht, .of_events ?_ rfl ?_,
      .of_events ?_ rfl ?_⟩ <;>
      unfold cancelWaiting <;> split_ifs <;> simp [TaskStatus.undispatched, TaskStatus.unleased]

theorem settles (x : HandoverTx) (env : Env) :
    (x.program env).Settles handoverRules (x.Performs env) := by
  cases x with
  | promote => exact promoteRetriesTx_settles
  | dispatch scan => exact dispatchReadyTx_settles
  | lease taskId workerId duration => exact leaseTaskTx_settles
  | cancel tenantId userId runId => exact cancelRunTx_settles

theorem careful (x : HandoverTx) (env : Env) : (x.program env).Careful handoverRules := by
  cases x with
  | promote => exact promoteRetriesTx_careful env
  | dispatch scan => exact dispatchReadyTx_careful env scan
  | lease taskId workerId duration => exact leaseTaskTx_careful env taskId workerId duration
  | cancel tenantId userId runId => exact cancelRunTx_careful env tenantId userId runId

/-- A task that does not wait is left alone. -/
theorem Performs.keeps (h : x.Performs env db db') (hk : db.Keyed) (ht : t ∈ db.taskRuns)
    (hst : t.status.waiting = false) : t ∈ db'.taskRuns ∧
      db'.sent .dispatch t.id = db.sent .dispatch t.id ∧
      db'.sent .leased t.id = db.sent .leased t.id := by
  obtain ⟨t', -, hd, hl⟩ := h.handed hk ht
  obtain ⟨op, reply, hdoes, -, hok⟩ := h
  obtain ⟨u, hu, hm⟩ := (hdoes.moves hk hok).mem_task ht
  rw [(hdoes.task hm).resolve_right fun h => by simp [hst] at h] at hu
  have hnot : t.status.undispatched = false ∧ t.status.unleased = false := by
    cases hs : t.status <;> simp [hs, TaskStatus.waiting] at hst <;>
      simp [TaskStatus.undispatched, TaskStatus.unleased]
  exact ⟨hu, hd.sent_eq hnot.1, hl.sent_eq hnot.2⟩

end HandoverTx

/-- Transactions that hand tasks over, each with its time and UUIDs. -/
structure Handover (ι : Type*) where
  env : ι → Env
  tx : ι → HandoverTx

namespace Handover

variable {ι : Type*} (c : Handover ι)

/-- The statements of transaction `i`. -/
def program (i : ι) : SqlProgram :=
  (c.tx i).program (c.env i)

/-- The call is transaction `i` as one step. -/
def Does (i : ι) (call : Call) : Prop :=
  call.env = c.env i ∧ (c.tx i).Does call.op

/-- What transaction `i` can make of a state. -/
def Performs (i : ι) : Db → Db → Prop :=
  (c.tx i).Performs (c.env i)

variable {c}

theorem kept (i : ι) (db db' : Db) (hinv : handoverRules.Inv db) (h : c.Performs i db db') :
    handoverRules.Inv db' ∧ handoverRules.Later db db' :=
  HandoverTx.Performs.kept h hinv

variable [DecidableEq ι] {db : Db}

/-- The transactions under READ COMMITTED, after the steps `as` from `db`. -/
def after (c : Handover ι) (db : Db) (as : List (Action ι)) :
    System ι Db RowKey Result StoreError :=
  (readCommitted ι Db RowKey Result StoreError).run (.init db c.program) as

/-- The steps are possible one after the other from `db`. -/
def Steps (c : Handover ι) (db : Db) (as : List (Action ι)) : Prop :=
  (readCommitted ι Db RowKey Result StoreError).Valid (.init db c.program) as

instance [Fintype ι] (as : List (Action ι)) : Decidable (c.Steps db as) :=
  inferInstanceAs (Decidable (Machine.Valid _ _ as))

theorem ordered (hinv : handoverRules.Inv db) {as : List (Action ι)} (has : c.Steps db as) :
    ReadCommitted.Ordered handoverRules c.Performs c.program db (c.after db as) :=
  locking_serial (fun i => (c.tx i).careful (c.env i)) (fun i => (c.tx i).settles (c.env i)) kept
    hinv has

end Handover

end RunMesh
