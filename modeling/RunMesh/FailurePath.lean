import RunMesh.Moves
import RunMesh.Resumption
import RunMesh.Statements

/-!
# The failure path, statement by statement

`FailTask` and `recoverExpired` do the same : a `SELECT ... FOR UPDATE OF t` finds tasks with
their runs, and what follows ends the lease of each with a status computed from the run as
it was found. `FailureTx` is either of them, `finds` are the rows of the `SELECT`, and `body`
is the rest.

The run is read without a lock. `body_leads` says what that amounts to : once its task is
found, the body takes the row to the status of the failure, whatever has happened to the run
since.
-/

namespace RunMesh

open ReadCommitted Fallible

/-- A transaction that ends leases without completing their tasks. -/
inductive FailureTx
  | fail (taskId : ℕ) (workerId : String) (failure : Failure)
  | recover (scan : Scan)

namespace FailureTx

/-- The operation. -/
def op : FailureTx → Op
  | fail taskId workerId failure => .failTask taskId workerId failure
  | recover scan => .recoverExpired scan

/-- Its first statement. -/
def select (env : Env) : FailureTx → Stmt Db RowKey Result
  | fail taskId workerId _ =>
    selectTaskForUpdate fun t => heldBy env taskId workerId t && t.status.active
  | recover scan => selectExpired env scan

/-- The rows the first statement finds. -/
def finds (env : Env) (db : Db) : FailureTx → List (TaskRun × Run)
  | fail taskId workerId _ =>
    db.tasksWithRun.filter fun tr => heldBy env taskId workerId tr.1 && tr.1.status.active
  | recover scan => expiredLeases env scan db

/-- The statements after the first, the rows having been found. -/
def body (env : Env) (found : List (TaskRun × Run)) : FailureTx → SqlProgram
  | fail taskId workerId failure =>
    match found with
    | [] => .rollback .leaseLost
    | tr :: _ => failFoundTx env taskId workerId failure tr
  | recover _ => recoverLeasesTx env found.zipIdx

/-- Its statements. -/
def program (env : Env) : FailureTx → SqlProgram
  | fail taskId workerId failure => failTaskTx env taskId workerId failure
  | recover scan => recoverExpiredTx env scan

/-- The status a task gets, as its row and its run were found. -/
def status (e : TaskRun × Run) : FailureTx → TaskStatus
  | fail _ _ failure => reportStatus failure e.1 e.2
  | recover _ => expiryStatus e

/-- The row of a task that was found, afterwards. -/
def ended (env : Env) (e : TaskRun × Run) (x : FailureTx) : TaskRun :=
  endLease env (x.status e) (failureAvailable env (x.status e) e.1.attemptCount) e.1

variable {x : FailureTx} {env : Env} {db : Db}

theorem program_eq (x : FailureTx) (env : Env) :
    x.program env = .stmt (x.select env) fun found => x.body env found.joined := by
  cases x <;> rfl

@[simp] theorem select_write (x : FailureTx) (env : Env) (snap db : Db) :
    (x.select env).write snap db = db := by
  cases x <;> rfl

theorem select_result (hk : db.Keyed) (x : FailureTx) :
    ((x.select env).result db db).joined = x.finds env db := by
  cases x with
  | fail taskId w f => rw [select, selectTaskForUpdate_result, finds]
  | recover scan => rw [select, selectExpired_result hk, finds]

/-- Alone, the statements are the operation. -/
theorem program_exec (hk : db.Keyed) (x : FailureTx) (env : Env) :
    (x.program env).exec db = ((⟨env, x.op⟩ : Call).exec db).map Prod.snd := by
  cases x with
  | fail taskId w f =>
    rw [program, failTaskTx_exec]
    simp only [Call.exec, op, Op.exec]
    cases failTask env taskId w f db <;> rfl
  | recover scan =>
    rw [program, recoverExpiredTx_exec env scan hk]
    rfl

theorem exec_eq_body (hk : db.Keyed) (x : FailureTx) (env : Env) :
    (x.program env).exec db = (x.body env (x.finds env db)).exec db := by
  rw [program_eq, Program.exec, select_write, select_result hk]

theorem mem_finds {t : TaskRun} {r : Run} (h : (t, r) ∈ x.finds env db) :
    t ∈ db.taskRuns ∧ r ∈ db.workflowRuns ∧ r.id = t.workflowRunId ∧ t.status.active = true := by
  cases x with
  | fail taskId w f =>
    obtain ⟨hmem, hp⟩ := List.mem_filter.1 h
    obtain ⟨ht, hr, hrid⟩ := Table.mem_join.1 hmem
    simp only [Bool.and_eq_true] at hp
    exact ⟨ht, hr, hrid, hp.2⟩
  | recover scan =>
    obtain ⟨ht, hr, hrid, hact, -⟩ := mem_expiredLeases h
    exact ⟨ht, hr, hrid, hact⟩

/-- A task that was found ends cancelled if its run was, and waits for a retry or is dead
otherwise. -/
theorem status_cases (x : FailureTx) (e : TaskRun × Run) :
    (x.status e = .cancelled ∧ e.2.status = .cancelled) ∨
      ((x.status e = .retryWait ∨ x.status e = .dead) ∧ e.2.status ≠ .cancelled) := by
  cases x with
  | fail taskId w f =>
    rcases reportStatus_cases f e.1 e.2 with ⟨h, hr⟩ | ⟨h, hr, -⟩ | ⟨h, hr, -⟩
    · exact .inl ⟨h, hr⟩
    · exact .inr ⟨.inl h, hr⟩
    · exact .inr ⟨.inr h, hr⟩
  | recover scan =>
    rcases expiryStatus_cases e with ⟨h, hr⟩ | ⟨h, hr, -⟩ | ⟨h, hr, -⟩
    · exact .inl ⟨h, hr⟩
    · exact .inr ⟨.inl h, hr⟩
    · exact .inr ⟨.inr h, hr⟩

end FailureTx

/-! ## The row of a task that was found -/

/-- The rows of a task. -/
def Db.taskRows (id : ℕ) (db : Db) : List TaskRun :=
  db.taskRuns.filter fun t => t.id = id

section TaskRows

variable {env : Env} {snap db : Db} {t : TaskRun} {r : Run} {id : ℕ}

theorem taskRows_map {db' : Db} {g : TaskRun → TaskRun} (hg : ∀ t, (g t).id = t.id)
    (hdb : db'.taskRuns = db.taskRuns.map g) (id : ℕ) :
    db'.taskRows id = (db.taskRows id).map g := by
  simp only [Db.taskRows, hdb, List.filter_map, Function.comp_def, hg]

/-- With one row of the task, before and after the locks, an update takes it as it is. -/
theorem taskRows_updateTasks {p : TaskRun → Bool} {f : TaskRun → TaskRun}
    (hf : ∀ t, (f t).id = t.id) (hsnap : snap.taskRows id = [t]) (hdb : db.taskRows id = [t]) :
    ((updateTasks (fun _ => p) f).write snap db).taskRows id = [if p t then f t else t] := by
  have hmem : t ∈ snap.taskRuns := List.mem_of_mem_filter (hsnap ▸ List.mem_singleton_self t)
  have hq : ∀ u, decide ((f u).id = id) = decide (u.id = id) := fun u => by rw [hf]
  calc ((updateTasks (fun _ => p) f).write snap db).taskRows id
      = Table.update (Table.requalifies TaskRun.id p snap.taskRuns) f (db.taskRows id) :=
        Table.filter_update hq db.taskRuns
    _ = [if p t then f t else t] := by
        rw [hdb, Table.update, List.map_singleton, Table.requalifies_self hmem]

/-- An update that the row satisfies returns a row. -/
theorem updateTasks_returns {p : TaskRun → Bool} {f : TaskRun → TaskRun} (hp : p t = true)
    (hsnap : snap.taskRows id = [t]) (hdb : db.taskRows id = [t]) :
    ∃ u us, ((updateTasks (fun _ => p) f).result snap db).tasks = u :: us := by
  have hmem : ∀ {d : Db}, d.taskRows id = [t] → t ∈ d.taskRuns := fun h =>
    List.mem_of_mem_filter (h ▸ List.mem_singleton_self t)
  refine List.exists_cons_of_ne_nil fun hnil => ?_
  have hreq : Table.requalifies TaskRun.id p snap.taskRuns t = true := by
    rw [Table.requalifies_self (hmem hsnap), hp]
  exact List.ne_nil_of_mem (List.mem_filter.2 ⟨hmem hdb, hreq⟩) (List.map_eq_nil_iff.1 hnil)

theorem failFoundTx_leads {w : String} (hown : t.leaseOwner = some w) (f : Failure) :
    (failFoundTx env t.id w f (t, r)).Leads (Db.taskRows t.id) [t]
      [(FailureTx.fail t.id w f).ended env (t, r)] := by
  have hp : decide (t.id = t.id ∧ t.leaseOwner = some w) = true := by simp [hown]
  refine .stmt [(FailureTx.fail t.id w f).ended env (t, r)] (fun snap db hsnap hdb => ?_)
    fun snap db hsnap hdb => ?_
  · exact Eq.trans (taskRows_updateTasks (fun _ => rfl) hsnap hdb)
      (congrArg (fun u => [u]) (if_pos hp))
  · obtain ⟨u, us, hret⟩ := updateTasks_returns
      (p := fun u => u.id = t.id ∧ u.leaseOwner = some w)
      (f := endLease env (reportStatus f t r)
        (failureAvailable env (reportStatus f t r) t.attemptCount)) hp hsnap hdb
    simp only [show failureStatus r.status f.retryable t.attemptCount t.maximumAttempts =
      reportStatus f t r from rfl, hret]
    refine .stmt _ (fun _ _ _ hdb => hdb) fun _ _ _ _ => ?_
    split
    · next hdead =>
      -- the row is dead, and the cancellation of the tasks that wait passes it by
      refine .stmt _ (fun _ _ _ hdb => hdb) fun _ _ _ _ =>
        .stmt _ (fun snap db hsnap hdb => ?_) fun _ _ _ _ =>
          .stmt _ (fun _ _ _ hdb => hdb) fun _ _ _ _ => .commit _
      refine Eq.trans (taskRows_updateTasks (fun _ => rfl) hsnap hdb)
        (congrArg (fun u => [u]) (if_neg ?_))
      simp [FailureTx.ended, FailureTx.status, endLease, hdead, TaskStatus.waiting]
    · exact .stmt _ (fun _ _ _ hdb => hdb) fun _ _ _ _ => .commit _

/-- One round of the loop of a recovery. -/
theorem recoverLeasesTx_cons_leads {e : (TaskRun × Run) × ℕ} {es : List ((TaskRun × Run) × ℕ)}
    {y : List TaskRun}
    (hrest : (recoverLeasesTx env es).Leads (Db.taskRows id)
      [if t.id = e.1.1.id then endLease env (expiryStatus e.1)
        (failureAvailable env (expiryStatus e.1) e.1.1.attemptCount) t else t] y) :
    (recoverLeasesTx env (e :: es)).Leads (Db.taskRows id) [t] y := by
  refine .stmt [if t.id = e.1.1.id then endLease env (expiryStatus e.1)
      (failureAvailable env (expiryStatus e.1) e.1.1.attemptCount) t else t]
    (fun snap db hsnap hdb => ?_) fun _ _ _ _ =>
      .stmt _ (fun _ _ _ hdb => hdb) fun _ _ _ _ =>
        .stmt _ (fun _ _ _ hdb => hdb) fun _ _ _ _ => ?_
  · refine Eq.trans (taskRows_updateTasks (fun _ => rfl) hsnap hdb) ?_
    simp only [decide_eq_true_eq]
  · by_cases hdead : expiryStatus e.1 = .dead
    · rw [if_pos hdead]
      exact .stmt _ (fun _ _ _ hdb => hdb) fun _ _ _ _ => hrest
    · rw [if_neg hdead]
      exact hrest

/-- The loop leaves a task alone that it does not name. -/
theorem recoverLeasesTx_leads_self {es : List ((TaskRun × Run) × ℕ)}
    (hes : ∀ e ∈ es, t.id ≠ e.1.1.id) :
    (recoverLeasesTx env es).Leads (Db.taskRows id) [t] [t] := by
  induction es with
  | nil => exact .commit _
  | cons e es ih =>
    refine recoverLeasesTx_cons_leads ?_
    rw [if_neg (hes e (by simp))]
    exact ih fun e' he' => hes e' (by simp [he'])

theorem recoverLeasesTx_leads {n : ℕ} {es : List ((TaskRun × Run) × ℕ)}
    (hnd : (es.map fun e => e.1.1.id).Nodup) (h : ((t, r), n) ∈ es) :
    (recoverLeasesTx env es).Leads (Db.taskRows t.id) [t]
      [endLease env (expiryStatus (t, r))
        (failureAvailable env (expiryStatus (t, r)) t.attemptCount) t] := by
  induction es with
  | nil => simp at h
  | cons e es ih =>
    obtain ⟨hnot, hnd⟩ := List.nodup_cons.1 hnd
    have hne : ∀ e' ∈ es, e.1.1.id ≠ e'.1.1.id := fun e' he' hid =>
      hnot (List.mem_map.2 ⟨e', he', hid.symm⟩)
    refine recoverLeasesTx_cons_leads ?_
    rcases List.mem_cons.1 h with rfl | h
    · rw [if_pos rfl]
      exact recoverLeasesTx_leads_self hne
    · rw [if_neg (hne _ h).symm]
      exact ih hnd h

end TaskRows

namespace FailureTx

variable {x : FailureTx} {env : Env} {db : Db} {t : TaskRun} {r : Run}

/-- The body takes the row of a task that was found to the status of the failure, whatever
happens to the run. -/
theorem body_leads (hk : db.Keyed) (h : (t, r) ∈ x.finds env db) :
    (x.body env (x.finds env db)).Leads (Db.taskRows t.id) [t] [x.ended env (t, r)] := by
  cases x with
  | fail taskId w f =>
    have hown : ∀ e ∈ (fail taskId w f).finds env db,
        e.1.id = taskId ∧ e.1.leaseOwner = some w := by
      intro e he
      have hp := (List.mem_filter.1 he).2
      rw [Bool.and_eq_true, heldBy_iff] at hp
      exact ⟨hp.1.1, hp.1.2.1⟩
    cases hf : (fail taskId w f).finds env db with
    | nil => simp [hf] at h
    | cons tr trs =>
      obtain ⟨t', r'⟩ := tr
      have hmem : (t', r') ∈ (fail taskId w f).finds env db := by simp [hf]
      obtain ⟨ht, hr, hrid, -⟩ := mem_finds h
      obtain ⟨ht', hr', hrid', -⟩ := mem_finds hmem
      obtain ⟨hid, howner⟩ := hown _ h
      obtain rfl : t' = t := Table.eq_of_key hk.tasks ht' ht ((hown _ hmem).1.trans hid.symm)
      obtain rfl : r' = r := Table.eq_of_key hk.runs hr' hr (hrid'.trans hrid.symm)
      obtain rfl : t'.id = taskId := hid
      exact failFoundTx_leads howner f
  | recover scan =>
    have hfst := List.zipIdx_map_fst 0 ((recover scan).finds env db)
    obtain ⟨⟨e, n⟩, hn, rfl⟩ := List.mem_map.1 (hfst.symm ▸ h)
    refine recoverLeasesTx_leads ?_ hn
    have hids := congrArg (List.map fun e : TaskRun × Run => e.1.id) hfst
    rw [List.map_map] at hids
    exact hids ▸ nodup_expiredLeases hk scan

end FailureTx

/-! ## Tasks with a lease -/

/-- No task with a lease differs, and the runs have the same ids. -/
structure SameLeases (db db' : Db) : Prop where
  tasks : ∃ g : TaskRun → TaskRun, db'.taskRuns = db.taskRuns.map g ∧ (∀ t, (g t).id = t.id) ∧
    ∀ t, g t = t ∨ t.status.active = false ∧ (g t).status.active = false
  runs : db'.workflowRuns.map Run.id = db.workflowRuns.map Run.id

namespace SameLeases

variable {db db' : Db} {x : FailureTx} {env : Env}

theorem keyed (h : SameLeases db db') (hk : db.Keyed) : db'.Keyed where
  runs := by
    rw [h.runs]
    exact hk.runs
  tasks := by
    obtain ⟨g, htasks, hid, -⟩ := h.tasks
    rw [htasks, List.map_map, show TaskRun.id ∘ g = TaskRun.id from funext hid]
    exact hk.tasks

/-- The rows the `SELECT` locks are those it found. -/
theorem select_result (h : SameLeases db db') (hk : db.Keyed) :
    ((x.select env).result db db').joined = x.finds env db := by
  obtain ⟨g, htasks, hid, hfix⟩ := h.tasks
  cases x with
  | fail taskId w f =>
    have hrows : db'.taskRuns.filter (Table.requalifies TaskRun.id
        (fun t => heldBy env taskId w t && t.status.active) db.taskRuns) =
        db.taskRuns.filter fun t => heldBy env taskId w t && t.status.active := by
      rw [htasks, Table.filter_map_eq_self, Table.filter_requalifies]
      intro t _
      refine (hfix t).imp_right fun ⟨hact, hact'⟩ => ?_
      simp [Table.requalifies, hact, hact']
    change Table.join _ _ (db'.taskRuns.filter _) _ = _
    rw [hrows, Table.join_filter]
    rfl
  | recover scan =>
    have hmem : ∀ e ∈ expiredLeases env scan db, e.1 ∈ db'.taskRuns := by
      intro e he
      obtain ⟨ht, -, -, hact, -⟩ := mem_expiredLeases he
      rw [htasks]
      refine List.mem_map.2 ⟨e.1, ht, (hfix e.1).resolve_right fun hnot => ?_⟩
      simp [hact] at hnot
    rw [FailureTx.select, selectExpired_result_of_mem (h.keyed hk).tasks hmem, FailureTx.finds]

/-- The same tasks are found. -/
theorem finds_tasks (h : SameLeases db db') :
    (x.finds env db').map Prod.fst = (x.finds env db).map Prod.fst := by
  obtain ⟨g, htasks, hid, hfix⟩ := h.tasks
  cases x with
  | fail taskId w f =>
    have hrows : db'.taskRuns.filter (fun t => heldBy env taskId w t && t.status.active) =
        db.taskRuns.filter fun t => heldBy env taskId w t && t.status.active := by
      rw [htasks]
      refine Table.filter_map_eq_self fun t _ => (hfix t).imp_right fun ⟨hact, hact'⟩ => ?_
      simp [hact, hact']
    simp only [FailureTx.finds, Db.tasksWithRun]
    rw [← Table.join_filter _ _ fun t => heldBy env taskId w t && t.status.active,
      ← Table.join_filter _ _ fun t => heldBy env taskId w t && t.status.active, hrows,
      Table.map_fst_join_congr h.runs]
  | recover scan =>
    have hscan : (scan.ids.filterMap fun id => db'.taskRuns.find? fun t => t.id = id) =
        (scan.ids.filterMap fun id => db.taskRuns.find? fun t => t.id = id).map g := by
      simp only [htasks, List.find?_map, Function.comp_def, hid, List.map_filterMap]
    have hrows : (scan.ids.filterMap fun id => db'.taskRuns.find? fun t => t.id = id).filter
        (isExpired env) =
        (scan.ids.filterMap fun id => db.taskRuns.find? fun t => t.id = id).filter
          (isExpired env) := by
      rw [hscan]
      refine Table.filter_map_eq_self fun t _ => (hfix t).imp_right fun ⟨hact, hact'⟩ => ?_
      simp [isExpired, hact, hact']
    have hexp : ∀ d : Db, (expiredLeases env scan d).map Prod.fst =
        ((Table.join TaskRun.workflowRunId Run.id ((scan.ids.filterMap fun id =>
          d.taskRuns.find? fun t => t.id = id).filter (isExpired env))
          d.workflowRuns).map Prod.fst).take 100 := by
      intro d
      rw [Table.join_filter, expiredLeases, List.map_take]
      rfl
    simp only [FailureTx.finds, hexp, hrows]
    rw [Table.map_fst_join_congr h.runs]

/-- A task with a lease has the same row. -/
theorem taskRows (h : SameLeases db db') {t : TaskRun} (hact : t.status.active = true) {id : ℕ}
    (hrows : db.taskRows id = [t]) : db'.taskRows id = [t] := by
  obtain ⟨g, htasks, hid, hfix⟩ := h.tasks
  have hgt : g t = t := (hfix t).resolve_right fun hnot => by simp [hact] at hnot
  rw [taskRows_map hid htasks, hrows, List.map_singleton, hgt]

end SameLeases

/-! ## What the body keeps -/

namespace FailureTx

variable {x : FailureTx} {env : Env} {found : List (TaskRun × Run)}

/-- The row the body ends the lease of, `e` having been found. -/
def owns (e : TaskRun × Run) (t : TaskRun) : FailureTx → Bool
  | fail taskId workerId _ => t.id = taskId ∧ t.leaseOwner = some workerId
  | recover _ => t.id = e.1.id

/-- The statement that ends the lease. -/
def endTask (env : Env) (e : TaskRun × Run) (x : FailureTx) : Stmt Db RowKey Result :=
  updateTasks (fun _ t => x.owns e t)
    (endLease env (x.status e) (failureAvailable env (x.status e) e.1.attemptCount))

/-- The statements of the body. -/
theorem body_all {S : Stmt Db RowKey Result → Prop} (htask : ∀ e ∈ found, S (x.endTask env e))
    (hattempts : ∀ p f, S (updateAttempts p f)) (hevent : ∀ e, S (insertEvent e))
    (hexpired : ∀ n e, S (insertExpiredEvent env n e))
    (hruns : ∀ e ∈ found, S (failRuns env e.1.workflowRunId))
    (htasks : ∀ e ∈ found, S (cancelTasks env e.1.workflowRunId)) :
    (x.body env found).All S := by
  cases x with
  | fail taskId w f =>
    cases found with
    | nil => exact .rollback _
    | cons e es =>
      have he : e ∈ e :: es := by simp
      refine .stmt (htask e he) fun failed => ?_
      split
      · exact .rollback _
      · refine .stmt (hattempts _ _) fun _ => ?_
        split
        · exact .stmt (hruns e he) fun _ => .stmt (htasks e he) fun _ =>
            .stmt (hevent _) fun _ => .commit
        · exact .stmt (hevent _) fun _ => .commit
  | recover scan =>
    have hloop : ∀ es : List ((TaskRun × Run) × ℕ), (∀ e ∈ es, e.1 ∈ found) →
        (recoverLeasesTx env es).All S := by
      intro es
      induction es with
      | nil => exact fun _ => .commit
      | cons e es ih =>
        intro hes
        have hrest := ih fun e' he' => hes e' (by simp [he'])
        have he := hes e (by simp)
        refine .stmt (htask e.1 he) fun _ => .stmt (hattempts _ _) fun _ =>
          .stmt (hexpired _ _) fun _ => ?_
        split
        · exact .stmt (hruns e.1 he) fun _ => hrest
        · exact hrest
    exact hloop _ fun e he => List.fst_mem_of_mem_zipIdx he

theorem failRuns_rows (env : Env) (id runId : ℕ) (snap db : Db) :
    ((failRuns env id).write snap db).workflowRuns.filter (fun r => r.id = runId) =
      Table.update (Table.requalifies Run.id (fun r => r.id = id ∧ r.status = .running)
          snap.workflowRuns) (fun r => { r with status := .failed, completedAt := some env.now })
        (db.workflowRuns.filter fun r => r.id = runId) :=
  Table.filter_update (fun _ => by rfl) db.workflowRuns

/-- A run that is not locked stays as it is. -/
theorem body_guards (runId : ℕ) (rows : List Run) :
    (x.body env found).All (Stmt.Guards (.run runId) fun db =>
      db.workflowRuns.filter (fun r => r.id = runId) = rows) := by
  refine body_all (fun _ _ _ _ _ hdb => hdb) (fun _ _ _ _ _ hdb => hdb) (fun _ _ _ _ hdb => hdb)
    (fun _ _ _ _ _ hdb => hdb) (fun e _ snap hlock db hdb => ?_) (fun _ _ _ _ _ hdb => hdb)
  beta_reduce at hdb ⊢
  rw [failRuns_rows, hdb]
  refine Table.update_eq_self (fun r hr hreq => hlock ?_) _
  have hid : r.id = runId := by
    rw [← hdb] at hr
    simpa using (List.mem_filter.1 hr).2
  -- the row was found before the locks were taken, so it is among them
  obtain ⟨-, o, ho, hpo, hkey⟩ := Table.requalifies_iff.1 hreq
  refine List.mem_map.2 ⟨o, List.mem_filter.2 ⟨ho, hpo⟩, ?_⟩
  rw [hkey, hid]

/-- A row of a run after a failure of the runs is as it was, or has become failed. -/
theorem mem_failRuns {runId : ℕ} {snap db : Db} {r' : Run}
    (h : r' ∈ ((failRuns env runId).write snap db).workflowRuns) :
    r' ∈ db.workflowRuns ∨ ∃ r ∈ db.workflowRuns, r.id = runId ∧ r.status = .running ∧
      r' = { r with status := .failed, completedAt := some env.now } := by
  obtain ⟨r, hr, rfl⟩ := Table.mem_update.1 h
  split_ifs with hreq
  · have hp := of_decide_eq_true (Table.requalifies_iff.1 hreq).1
    exact .inr ⟨r, hr, hp.1, hp.2, rfl⟩
  · exact .inl hr

/-- What holds of every run, and of a run that has failed, is kept. -/
theorem body_keeps_forall {P : Run → Prop} (hP : ∀ r : Run, r.status = .running → P r →
    P { r with status := .failed, completedAt := some env.now }) :
    (x.body env found).All (Stmt.Keeps fun db => ∀ r ∈ db.workflowRuns, P r) := by
  refine body_all (fun _ _ _ _ hdb => hdb) (fun _ _ _ _ hdb => hdb) (fun _ _ _ hdb => hdb)
    (fun _ _ _ _ hdb => hdb) (fun _ _ snap db hdb r' hr' => ?_) (fun _ _ _ _ hdb => hdb)
  rcases mem_failRuns hr' with hr | ⟨r, hr, -, hrun, rfl⟩
  · exact hdb r' hr
  · exact hP r hrun (hdb r hr)

/-- A row of a run that is not running stays. -/
theorem body_keeps_mem {r : Run} (hr : r.status ≠ .running) :
    (x.body env found).All (Stmt.Keeps fun db => r ∈ db.workflowRuns) := by
  refine body_all (fun _ _ _ _ hdb => hdb) (fun _ _ _ _ hdb => hdb) (fun _ _ _ hdb => hdb)
    (fun _ _ _ _ hdb => hdb) (fun _ _ snap db hdb => ?_) (fun _ _ _ _ hdb => hdb)
  refine Table.mem_update.2 ⟨r, hdb, if_neg fun hreq => ?_⟩
  exact hr (of_decide_eq_true (Table.requalifies_iff.1 hreq).1).2

end FailureTx

/-! ## Another run -/

/-- The rows of a run and of its tasks. -/
def Db.ofRun (runId : ℕ) (db : Db) : List Run × List TaskRun :=
  (db.workflowRuns.filter fun r => r.id = runId,
    db.taskRuns.filter fun t => t.workflowRunId = runId)

/-- The run has these rows, and no task that was found is one of its tasks. -/
structure Spared (runId : ℕ) (found : List (TaskRun × Run)) (rows : List Run × List TaskRun)
    (db : Db) : Prop where
  ofRun : db.ofRun runId = rows
  other : ∀ t ∈ db.taskRuns, ∀ e ∈ found, t.id = e.1.id → t.workflowRunId ≠ runId

namespace Spared

variable {runId : ℕ} {found : List (TaskRun × Run)} {rows : List Run × List TaskRun} {env : Env}
  {snap db : Db}

theorem updateTasks (h : Spared runId found rows db) {p : TaskRun → Bool}
    {f : TaskRun → TaskRun} (hf : ∀ t, (f t).id = t.id ∧ (f t).workflowRunId = t.workflowRunId)
    (hp : ∀ t ∈ db.taskRuns, p t = true → t.workflowRunId ≠ runId) :
    Spared runId found rows ((RunMesh.updateTasks (fun _ => p) f).write snap db) where
  ofRun := by
    rw [← h.ofRun]
    refine Prod.ext rfl ?_
    change (Table.update _ f db.taskRuns).filter _ = _
    rw [Table.filter_update fun t => by rw [(hf t).2]]
    refine Table.update_eq_self (fun t ht hreq => ?_) f
    obtain ⟨hmem, hrun⟩ := List.mem_filter.1 ht
    exact hp t hmem (Table.requalifies_iff.1 hreq).1 (of_decide_eq_true hrun)
  other := by
    intro t' ht' e he hid
    obtain ⟨t, ht, rfl⟩ := Table.mem_update.1 ht'
    split_ifs at hid ⊢
    · rw [(hf t).2]
      exact h.other t ht e he ((hf t).1.symm.trans hid)
    · exact h.other t ht e he hid

theorem failRuns (h : Spared runId found rows db) {id : ℕ} (hid : id ≠ runId) :
    Spared runId found rows ((RunMesh.failRuns env id).write snap db) where
  ofRun := by
    rw [← h.ofRun]
    refine Prod.ext ?_ rfl
    rw [Db.ofRun, FailureTx.failRuns_rows]
    refine Table.update_eq_self (fun r hr hreq => ?_) _
    have hp := of_decide_eq_true (Table.requalifies_iff.1 hreq).1
    exact hid (hp.1.symm.trans (of_decide_eq_true (List.mem_filter.1 hr).2))
  other := h.other

end Spared

/-- The body spares a run of which no task was found. -/
theorem FailureTx.body_spares {x : FailureTx} {env : Env} {db : Db} {runId : ℕ}
    {rows : List Run × List TaskRun} (hne : ∀ e ∈ x.finds env db, e.1.workflowRunId ≠ runId) :
    (x.body env (x.finds env db)).All
      (Stmt.Keeps (Spared runId (x.finds env db) rows)) := by
  refine body_all (fun e he snap db' h => h.updateTasks (fun _ => ⟨rfl, rfl⟩) fun t ht hown => ?_)
    (fun _ _ _ _ h => ⟨h.ofRun, h.other⟩) (fun _ _ _ h => ⟨h.ofRun, h.other⟩)
    (fun _ _ _ _ h => ⟨h.ofRun, h.other⟩) (fun e he _ _ h => h.failRuns (hne e he))
    (fun e he snap db' h => h.updateTasks (fun _ => ⟨rfl, rfl⟩) fun t ht hp => ?_)
  · refine h.other t ht e he ?_
    cases x with
    | fail taskId w f =>
      have hheld := (Bool.and_eq_true_iff.1 (List.mem_filter.1 he).2).1
      exact (of_decide_eq_true hown).1.trans (heldBy_iff.1 hheld).1.symm
    | recover scan => exact of_decide_eq_true hown
  · rw [(of_decide_eq_true hp).1]
    exact hne e he

/-- The tasks that were found are of other runs. -/
theorem FailureTx.spared {x : FailureTx} {env : Env} {db : Db} (hk : db.Keyed) {runId : ℕ}
    (hne : ∀ e ∈ x.finds env db, e.1.workflowRunId ≠ runId) :
    Spared runId (x.finds env db) (db.ofRun runId) db where
  ofRun := rfl
  other t ht e he hid := by
    obtain rfl := Table.eq_of_key hk.tasks ht (mem_finds he).1 hid
    exact hne e he

theorem FailureTx.moves {x : FailureTx} {env : Env} {db db' : Db} (hk : db.Keyed)
    (hok : (x.program env).exec db = .ok db') : Moves env x.op db db' := by
  cases x with
  | fail taskId w f =>
    rw [program, failTaskTx_exec] at hok
    obtain ⟨⟨t', _⟩, hfail, rfl⟩ := map_eq_ok.1 hok
    exact failTask_moves hk hfail
  | recover scan =>
    rw [program, recoverExpiredTx_exec env scan hk] at hok
    cases hok
    exact recoverExpired_moves hk scan

/-- The run of a task that becomes dead is no longer running. -/
theorem FailureTx.not_running_of_dead {x : FailureTx} {env : Env} {db db' : Db} (hk : db.Keyed)
    {t : TaskRun} {r : Run} (hfound : (t, r) ∈ x.finds env db) (hdead : x.status (t, r) = .dead)
    (hok : (x.program env).exec db = .ok db') :
    ∀ q ∈ db'.workflowRuns, q.id = t.workflowRunId → q.status ≠ .running := by
  intro q hq hid hrun
  cases x with
  | fail taskId w f =>
    rw [program, failTaskTx_exec] at hok
    obtain ⟨⟨t', _⟩, hfail, rfl⟩ := map_eq_ok.1 hok
    obtain ⟨t₁, r₁, hheld, htid, -, -, rfl⟩ := failTask_ok hk hfail
    obtain ⟨ht, hr, hrid, -⟩ := mem_finds hfound
    have hown := (heldBy_iff.1 (Bool.and_eq_true_iff.1 (List.mem_filter.1 hfound).2).1).1
    obtain rfl : t₁ = t := Table.eq_of_key hk.tasks hheld.mem ht (htid.trans hown.symm)
    obtain rfl : r₁ = r := Table.eq_of_key hk.runs hheld.run hr (hheld.runId.trans hrid.symm)
    simp only [show reportStatus f t₁ r₁ = .dead from hdead, if_true] at hq
    obtain ⟨q₀, -, rfl⟩ := List.mem_map.1 hq
    unfold failRun at hid hrun
    split_ifs at hid hrun with hfailed
    exact hfailed ⟨hid, hrun⟩
  | recover scan =>
    rw [program, recoverExpiredTx_exec env scan hk, recoverExpired_eq] at hok
    cases hok
    obtain ⟨q₀, -, rfl⟩ := List.mem_map.1 hq
    rw [expireRunRow_eq] at hid hrun
    split_ifs at hid hrun with hfailed
    exact hfailed ⟨hrun, (t, r), hfound, hdead, hid.symm⟩

/-! ## Caught by the end of another transaction -/

/-- Where the program can get on its own while the committed state is `db`. -/
abbrev SqlProgram.Reaches (p : SqlProgram) (db : Db) (t : SqlTx) : Prop :=
  ReadCommitted.Tx.Alone db (.init p) t

namespace FailureTx

variable {x : FailureTx} {env : Env} {db₀ db db' : Db} {t : SqlTx}

/-- Before its `SELECT` a failure does what it would do from here on. -/
theorem resume_of_not_begun (hal : (x.program env).Reaches db₀ t) (hnot : ¬t.Begun 0)
    (db : Db) : t.resume db = (x.program env).exec db := by
  rcases hal.peel (x.program_eq env) rfl with hat | ⟨t₁, hpast, hal⟩
  · rcases hat.resume (x.program_eq env) db with ⟨-, hres⟩ | ⟨hsome, -⟩
    · rw [hres, program_eq]
      rfl
    · exact absurd (.inr ⟨hat.finished.symm, hsome⟩) hnot
  · refine absurd (.inl ?_) hnot
    have hle := hal.finished_le
    rw [hpast.finished] at hle
    exact hle

/-- From its `SELECT` on, a failure goes on with the rows it found. -/
theorem resume_of_begun (hk : db₀.Keyed) (hal : (x.program env).Reaches db₀ t)
    (hbegun : t.Begun 0) (hsame : SameLeases db₀ db) :
    ∃ t₁ t', t₁.rest = x.body env (x.finds env db₀) ∧ (∀ d, t₁.writes d = d) ∧
      t₁.running = none ∧ ReadCommitted.Tx.Alone db₀ t₁ t' ∧ t.resume db = t'.resume db := by
  rcases hal.peel (x.program_eq env) rfl with hat | ⟨t₁, hpast, hal⟩
  · rcases hat.resume (x.program_eq env) db with ⟨hnone, -⟩ | ⟨-, hres⟩
    · rcases hbegun with hlt | ⟨-, hsome⟩
      · simp [hat.finished, ReadCommitted.Tx.init] at hlt
      · simp [hnone] at hsome
    · refine ⟨.init (x.body env (x.finds env db₀)), _, rfl, fun _ => rfl, rfl, .refl, ?_⟩
      rw [hres, ReadCommitted.Tx.resume_init, select_write]
      exact congrArg (fun found => (x.body env found).exec db) (hsame.select_result hk)
  · refine ⟨t₁, t, hpast.rest.trans ?_, fun d => ?_, hpast.running, hal, rfl⟩
    · exact congrArg (x.body env) (select_result hk x)
    · rw [hpast.writes, Function.comp_apply, select_write]
      rfl

theorem resume_keeps (hk : db₀.Keyed) (hal : (x.program env).Reaches db₀ t)
    (hbegun : t.Begun 0) (hsame : SameLeases db₀ db) {Q : Db → Prop}
    (hbody : (x.body env (x.finds env db₀)).All (Stmt.Keeps Q)) (hQ : Q db)
    (hok : t.resume db = .ok db') : Q db' := by
  obtain ⟨t₁, t', hrest, hwrites, -, hal, hres⟩ := resume_of_begun hk hal hbegun hsame
  have hkeep : t₁.Keeping Q := ⟨hrest ▸ hbody, fun d hd => (hwrites d).symm ▸ hd⟩
  exact (hal.keeping hkeep).resume hQ (hres ▸ hok)

theorem resume_leads (hk : db₀.Keyed) (hal : (x.program env).Reaches db₀ t)
    (hbegun : t.Begun 0) (hsame : SameLeases db₀ db) {u : TaskRun} {r : Run}
    (hfound : (u, r) ∈ x.finds env db₀) (hu : db.taskRows u.id = [u]) :
    ∃ db', t.resume db = .ok db' ∧ db'.taskRows u.id = [x.ended env (u, r)] := by
  obtain ⟨t₁, t', hrest, hwrites, hnone, hal, hres⟩ := resume_of_begun hk hal hbegun hsame
  have hleads : t₁.LeadsTo (Db.taskRows u.id) [u] [x.ended env (u, r)] :=
    ⟨[u], fun d hd => (hwrites d).symm ▸ hd, hrest ▸ body_leads hk hfound,
      fun _ _ hrun => by simp [hnone] at hrun⟩
  rw [hres]
  exact (hal.leadsTo (Table.filter_key hk.tasks (mem_finds hfound).1) hleads).resume hu

/-- A failure that is about to commit has not changed a run it does not hold. -/
theorem rows_of_not_held (hal : (x.program env).Reaches db₀ t)
    (hcommit : t.rest = .commit) {runId : ℕ} (hnot : .run runId ∉ t.held) :
    (t.writes db₀).workflowRuns.filter (fun r => r.id = runId) =
      db₀.workflowRuns.filter fun r => r.id = runId := by
  rcases hal.peel (x.program_eq env) rfl with hat | ⟨t₁, hpast, hal⟩
  · have hrest := hat.rest.symm.trans hcommit
    rw [ReadCommitted.Tx.init, program_eq] at hrest
    cases hrest
  · have hguard : t₁.Guarding (.run runId) fun d => d.workflowRuns.filter (fun r => r.id = runId) =
        db₀.workflowRuns.filter fun r => r.id = runId := by
      refine ⟨hpast.rest ▸ body_guards runId _, fun _ d hd => ?_,
        fun _ _ _ _ _ hrun => by simp [hpast.running] at hrun⟩
      rw [hpast.writes, Function.comp_apply, select_write]
      exact hd
    exact (hal.guarding hguard).writes hnot db₀ rfl

end FailureTx

end RunMesh
