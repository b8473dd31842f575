import RunMesh.Bookkeeping
import RunMesh.Mediation
import RunMesh.Success

/-!
# The page of a run

`Store.GetRun` reads the run, its tasks and their attempts with three statements that are not in
one transaction, so a page mixes rows of different times. It can show a running run whose tasks have
all succeeded, or a running task whose attempt has ended. Some things hold because of the order of
the statements (`run_pages_read_in_order`) : a run that is shown as succeeded is shown with tasks
that have all succeeded, every task of the run is there once, and no attempt that the row of a task
has counted is missing or, unless the page shows the task as held by a worker, without an end.

What carries this over from one statement to the next is that succeeded runs and closed attempts
stay as they are, attempts are only added, and a run gets its tasks when it is created
(`Db.Later`).
-/

namespace RunMesh

open Fallible Handler

variable {env : Env} {op : Op} {db db' : Db}

/-! ## Tables that agree -/

/-- The tables of runs, tasks and attempts agree. -/
structure Db.Agrees (db : Db) : Prop where
  wellFormed : db.WellFormed
  about : ∀ e ∈ db.outboxEvents, db.EventOf e e.orderingKey
  success : SuccessExact db
  bounded : AttemptsBounded db
  ledger : ∀ t ∈ db.taskRuns, (db.ledger t).Bookkept

theorem Db.Agrees.of_init {clock : ℤ} (h : Init ⟨db, clock⟩) : db.Agrees where
  wellFormed := h.wellFormed
  about _ he := absurd (h.outboxEvents ▸ he) List.not_mem_nil
  success _ hr := absurd (h.workflowRuns ▸ hr) List.not_mem_nil
  bounded _ ha := absurd (h.taskAttempts ▸ ha) List.not_mem_nil
  ledger _ ht := absurd (h.taskRuns ▸ ht) List.not_mem_nil

/-- Artifacts and the audit log have no part in it. -/
theorem Db.Agrees.frame (h : db.Agrees) (artifacts : List Artifact) (log : List AuditEvent) :
    Db.Agrees { db with artifacts := artifacts, auditEvents := log } where
  wellFormed := ⟨⟨h.wellFormed.runs, h.wellFormed.tasks⟩, h.wellFormed.runOf,
    h.wellFormed.nonempty, h.wellFormed.edge, h.wellFormed.acyclic, h.wellFormed.accepted,
    h.wellFormed.opened⟩
  about := h.about
  success := h.success
  bounded := h.bounded
  ledger := h.ledger

theorem exec_about (hk : db.Keyed) {reply : Reply} (h : op.exec env db = .ok (reply, db'))
    (habout : ∀ e ∈ db.outboxEvents, db.EventOf e e.orderingKey) :
    ∀ e ∈ db'.outboxEvents, db'.EventOf e e.orderingKey := by
  intro e he
  obtain ⟨new, hev, -, hnew⟩ := exec_events hk h
  refine exec_eventOf hk h ?_
  rcases List.mem_append.1 (hev ▸ he) with he | he
  · exact habout e he
  · obtain ⟨runId, hrun, hof⟩ := (hnew e he).about
    rwa [OutboxEvent.orderingKey, hrun, Option.getD_some]

theorem Db.Agrees.exec_ledger (ha : db.Agrees) (hf : db.Fresh env) {reply : Reply}
    (h : op.exec env db = .ok (reply, db')) : ∀ t ∈ db'.taskRuns, (db'.ledger t).Bookkept := by
  have hk := ha.wellFormed.toKeyed
  have hk' := (exec_wellFormed ha.wellFormed hf h).toKeyed
  have hold : ∀ t ∈ db.taskRuns, ∀ t' ∈ db'.taskRuns, t'.id = t.id →
      (db'.ledger t').Bookkept := by
    intro t ht t' ht' hid
    obtain ⟨u, hu, huid, hmove⟩ := RunMesh.exec_ledger hk h ht
    obtain rfl := Table.eq_of_key hk'.tasks hu ht' (huid.trans hid.symm)
    exact hmove.bookkept (ha.ledger t ht)
  intro t' ht'
  rcases exec_moves hk h with hm | ⟨run, dag, hc⟩
  · obtain ⟨t, ht, hmove⟩ := hm.of_mem_task ht'
    exact hold t ht t' ht' hmove.id
  · have hmem := ht'
    rw [hc.tasks, List.mem_append, List.mem_map] at hmem
    rcases hmem with ht | ⟨entry, -, rfl⟩
    · exact hold t' ht t' ht' rfl
    · rw [hc.ledger_newTask hf ha.bounded ha.about entry]
      exact NewTask.bookkept ⟨newTaskRun_status _ _ _ _, rfl, rfl, rfl⟩

theorem Db.Agrees.exec (ha : db.Agrees) (hf : db.Fresh env) {reply : Reply}
    (h : op.exec env db = .ok (reply, db')) : db'.Agrees where
  wellFormed := exec_wellFormed ha.wellFormed hf h
  about := exec_about ha.wellFormed.toKeyed h ha.about
  success := exec_successExact ha.wellFormed hf h ha.success
  bounded := exec_attemptsBounded ha.wellFormed.toKeyed h ha.bounded
  ledger := ha.exec_ledger hf h

/-! ## Later tables -/

/-- What stays, from the tables `db` to the later tables `db'`. -/
structure Db.Later (db db' : Db) : Prop where
  runs : ∀ r ∈ db.workflowRuns, ∃ r' ∈ db'.workflowRuns, r'.id = r.id
  succeeded : ∀ r ∈ db.workflowRuns, r.status = .succeeded → r ∈ db'.workflowRuns
  tasks : ∀ t ∈ db.taskRuns, ∃ t' ∈ db'.taskRuns, t'.id = t.id ∧
    t'.workflowRunId = t.workflowRunId ∧ t.attemptCount ≤ t'.attemptCount
  /-- A run gets no more tasks. -/
  noMore : ∀ r ∈ db.workflowRuns, ∀ t' ∈ db'.taskRuns, t'.workflowRunId = r.id →
    ∃ t ∈ db.taskRuns, t.id = t'.id ∧ t.workflowRunId = r.id
  closed : ∀ a ∈ db.taskAttempts, a.Closed → a ∈ db'.taskAttempts

theorem Db.Later.refl (db : Db) : db.Later db where
  runs r hr := ⟨r, hr, rfl⟩
  succeeded _ hr _ := hr
  tasks t ht := ⟨t, ht, rfl, rfl, le_refl _⟩
  noMore _ _ t ht hid := ⟨t, ht, rfl, hid⟩
  closed _ ha _ := ha

theorem Db.Later.trans {db₁ db₂ db₃ : Db} (h : db₁.Later db₂) (h' : db₂.Later db₃) :
    db₁.Later db₃ where
  runs r hr := by
    obtain ⟨r₂, hr₂, hid⟩ := h.runs r hr
    obtain ⟨r₃, hr₃, hid'⟩ := h'.runs r₂ hr₂
    exact ⟨r₃, hr₃, hid'.trans hid⟩
  succeeded r hr hst := h'.succeeded r (h.succeeded r hr hst) hst
  tasks t ht := by
    obtain ⟨t₂, ht₂, hid, hrun, hle⟩ := h.tasks t ht
    obtain ⟨t₃, ht₃, hid', hrun', hle'⟩ := h'.tasks t₂ ht₂
    exact ⟨t₃, ht₃, hid'.trans hid, hrun'.trans hrun, hle.trans hle'⟩
  noMore r hr t ht hrun := by
    obtain ⟨r₂, hr₂, hid⟩ := h.runs r hr
    obtain ⟨t₂, ht₂, htid, hrun₂⟩ := h'.noMore r₂ hr₂ t ht (hrun.trans hid.symm)
    obtain ⟨t₁, ht₁, htid', hrun₁⟩ := h.noMore r hr t₂ ht₂ (hrun₂.trans hid)
    exact ⟨t₁, ht₁, htid'.trans htid, hrun₁⟩
  closed a ha hc := h'.closed a (h.closed a ha hc) hc

theorem Db.Agrees.later (ha : db.Agrees) (hf : db.Fresh env) {reply : Reply}
    (h : op.exec env db = .ok (reply, db')) : db.Later db' := by
  have hk := ha.wellFormed.toKeyed
  have hclosed : ∀ a ∈ db.taskAttempts, a.Closed → a ∈ db'.taskAttempts := by
    intro a hmem hc
    obtain ⟨t, ht, hid, -⟩ := ha.bounded a hmem
    obtain ⟨t', -, -, hmove⟩ := RunMesh.exec_ledger hk h ht
    have hof : a ∈ db.attemptsOf t.id := List.mem_filter.2 ⟨hmem, decide_eq_true hid.symm⟩
    exact (List.mem_filter.1 (hmove.mem_of_closed (ha.ledger t ht) hof hc)).1
  have hsucceeded : ∀ r ∈ db.workflowRuns, r.status = .succeeded → r ∈ db'.workflowRuns :=
    fun r hr hst => (exec_settled ha.wellFormed hf h ha.success hr hst).run
  rcases exec_moves hk h with hm | ⟨run, dag, hc⟩
  · refine ⟨fun r hr => ?_, hsucceeded, fun t ht => ?_, fun r _ t' ht' hrun => ?_, hclosed⟩
    · obtain ⟨r', hr', hmove⟩ := hm.mem_run hr
      exact ⟨r', hr', hmove.id⟩
    · obtain ⟨t', ht', hmove⟩ := hm.mem_task ht
      exact ⟨t', ht', hmove.id, hmove.workflowRunId, hmove.attemptCount_le⟩
    · obtain ⟨t, ht, hmove⟩ := hm.of_mem_task ht'
      exact ⟨t, ht, hmove.id.symm, hmove.workflowRunId.symm.trans hrun⟩
  · refine ⟨fun r hr => ?_, hsucceeded, fun t ht => ?_, fun r hr t' ht' hrun => ?_, hclosed⟩
    · exact ⟨r, hc.runs ▸ List.mem_append_left _ hr, rfl⟩
    · exact ⟨t, hc.task_mem ht, rfl, rfl, le_refl _⟩
    · exact ⟨t', hc.mem_of_old hf hr ht' hrun, rfl, hrun⟩

/-! ## What a page shows -/

/-- What holds between the rows of a page although they are of different times. -/
structure RunView.ReadInOrder (view : RunView) : Prop where
  /-- The tasks are those of the run, each once. -/
  ofRun : ∀ task ∈ view.tasks, task.1.1.task.workflowRunId = view.run.id
  once : (view.tasks.map fun task => task.1.1.task.id).Nodup
  succeeded : view.run.status = .succeeded →
    ∀ task ∈ view.tasks, task.1.1.task.status = .succeeded
  /-- The attempts are numbered from one, at least to the count of the task. -/
  numbered : ∀ task ∈ view.tasks, ∃ n, task.1.1.task.attemptCount ≤ n ∧
    (task.2.map fun a => a.1.attemptNumber).Perm (List.range' 1 n)
  /-- Those that are counted have ended, unless a worker holds the task. -/
  ended : ∀ task ∈ view.tasks, task.1.1.task.status.active = false → ∀ a ∈ task.2,
    a.1.attemptNumber ≤ task.1.1.task.attemptCount → a.1.Closed

/-- The page has every task of the run. -/
def RunView.Lists (db : Db) (view : RunView) : Prop :=
  ∀ t ∈ db.taskRuns, t.workflowRunId = view.run.id →
    ∃ task ∈ view.tasks, task.1.1.task.id = t.id

/-- What is known of the run that was read. -/
structure RunSeen (run : Run) (db : Db) : Prop where
  stays : ∃ r ∈ db.workflowRuns, r.id = run.id
  succeeded : run.status = .succeeded → run ∈ db.workflowRuns

theorem RunSeen.mono {run : Run} (h : RunSeen run db) (hle : db.Later db') :
    RunSeen run db' where
  stays := by
    obtain ⟨r, hr, hid⟩ := h.stays
    obtain ⟨r', hr', hid'⟩ := hle.runs r hr
    exact ⟨r', hr', hid'.trans hid⟩
  succeeded hst := hle.succeeded run (h.succeeded hst) hst

/-- What is known of the rows of tasks that were read. -/
structure RowsSeen (run : Run) (rows : List TaskRow) (db : Db) : Prop extends
    RunSeen run db where
  ofRun : ∀ row ∈ rows, row.task.workflowRunId = run.id
  once : (rows.map fun row => row.task.id).Nodup
  done : run.status = .succeeded → ∀ row ∈ rows, row.task.status = .succeeded
  lists : ∀ t ∈ db.taskRuns, t.workflowRunId = run.id → ∃ row ∈ rows, row.task.id = t.id
  counted : ∀ row ∈ rows, ∃ t ∈ db.taskRuns, t.id = row.task.id ∧ t.workflowRunId = run.id ∧
    row.task.attemptCount ≤ t.attemptCount
  ended : ∀ row ∈ rows, row.task.status.active = false → ∀ n, 1 ≤ n →
    n ≤ row.task.attemptCount → ∃ a ∈ db.taskAttempts, a.taskRunId = row.task.id ∧
      a.attemptNumber = n ∧ a.Closed

theorem RowsSeen.mono {run : Run} {rows : List TaskRow} (h : RowsSeen run rows db)
    (hle : db.Later db') : RowsSeen run rows db' where
  toRunSeen := h.toRunSeen.mono hle
  ofRun := h.ofRun
  once := h.once
  done := h.done
  lists t ht hrun := by
    obtain ⟨r, hr, hid⟩ := h.stays
    obtain ⟨t₀, ht₀, htid, hrun₀⟩ := hle.noMore r hr t ht (hrun.trans hid.symm)
    obtain ⟨row, hrow, hrowid⟩ := h.lists t₀ ht₀ (hrun₀.trans hid)
    exact ⟨row, hrow, hrowid.trans htid⟩
  counted row hrow := by
    obtain ⟨t, ht, hid, hrun, hcount⟩ := h.counted row hrow
    obtain ⟨t', ht', hid', hrun', hcount'⟩ := hle.tasks t ht
    exact ⟨t', ht', hid'.trans hid, hrun'.trans hrun, hcount.trans hcount'⟩
  ended row hrow hst n hpos hn := by
    obtain ⟨a, ha, htask, hnum, hc⟩ := h.ended row hrow hst n hpos hn
    exact ⟨a, hle.closed a ha hc, htask, hnum, hc⟩

/-- What is known of the attempts that were read. -/
structure AttemptsSeen (rows : List TaskRow) (attempts : List TaskAttempt) : Prop where
  numbered : ∀ row ∈ rows, ∃ n, row.task.attemptCount ≤ n ∧
    ((attempts.filter fun a => a.taskRunId = row.task.id).map
      TaskAttempt.attemptNumber).Perm (List.range' 1 n)
  ended : ∀ row ∈ rows, row.task.status.active = false → ∀ a ∈ attempts,
    a.taskRunId = row.task.id → a.attemptNumber ≤ row.task.attemptCount → a.Closed

/-! ## The three statements -/

section Statements

variable {cfg : ApiConfig} {run : Run}

theorem runSeen_findRun {tenantId : ℕ} {id : String} (h : findRun cfg tenantId id db = .ok run) :
    RunSeen run db := by
  simp only [findRun, bind_eq_ok, orError_eq_ok] at h
  obtain ⟨_, -, hfind⟩ := h
  have hmem := List.mem_of_find?_eq_some hfind
  exact ⟨⟨run, hmem, rfl⟩, fun _ => hmem⟩

/-- The tasks of the second statement. -/
theorem map_task_taskRows : ((taskRows cfg run.id db).map TaskRow.task).Perm
    (db.taskRuns.filter fun t => t.workflowRunId = run.id) := by
  rw [taskRows, List.map_map]
  exact (List.map_id' _).symm ▸ List.perm_insertionSort _ _

theorem mem_taskRows {t : TaskRun} : (∃ row ∈ taskRows cfg run.id db, row.task = t) ↔
    t ∈ db.taskRuns ∧ t.workflowRunId = run.id := by
  rw [← List.mem_map, map_task_taskRows.mem_iff, List.mem_filter, decide_eq_true_eq]

theorem RunSeen.rowsSeen (h : RunSeen run db) (ha : db.Agrees) :
    RowsSeen run (taskRows cfg run.id db) db := by
  have hrow : ∀ row ∈ taskRows cfg run.id db,
      row.task ∈ db.taskRuns ∧ row.task.workflowRunId = run.id :=
    fun row hrow => mem_taskRows.1 ⟨row, hrow, rfl⟩
  refine ⟨h, fun row hr => (hrow row hr).2, ?_, fun hst row hr => ?_, fun t ht hrun => ?_,
    fun row hr => ?_, fun row hr hst n hpos hn => ?_⟩
  · have hids : ((db.taskRuns.filter fun t => t.workflowRunId = run.id).map TaskRun.id).Nodup :=
      (List.filter_sublist.map _).nodup ha.wellFormed.tasks
    have hrows : ((taskRows cfg run.id db).map TaskRow.task).Perm _ := map_task_taskRows
    have hperm := hrows.map TaskRun.id
    rw [List.map_map] at hperm
    exact hperm.nodup_iff.2 hids
  · exact (ha.success run (h.succeeded hst)).1 hst row.task (hrow row hr).1 (hrow row hr).2
  · obtain ⟨row, hr, rfl⟩ := mem_taskRows.2 ⟨ht, hrun⟩
    exact ⟨row, hr, rfl⟩
  · exact ⟨row.task, (hrow row hr).1, rfl, (hrow row hr).2, le_refl _⟩
  · have hbook := ha.ledger row.task (hrow row hr).1
    have hmem : n ∈ (db.attemptsOf row.task.id).map TaskAttempt.attemptNumber := by
      rw [show (db.attemptsOf row.task.id).map TaskAttempt.attemptNumber = _ from hbook.numbered,
        List.mem_range'_1]
      exact ⟨hpos, Nat.lt_one_add_iff.2 hn⟩
    obtain ⟨a, hof, hnum⟩ := List.mem_map.1 hmem
    exact ⟨a, (List.mem_filter.1 hof).1, Db.taskRunId_of_mem hof, hnum, hbook.closed hst hof⟩

/-- The attempts of the third statement. -/
theorem attemptRows_perm (hk : db.Keyed) {t : TaskRun} (ht : t ∈ db.taskRuns)
    (hrun : t.workflowRunId = run.id) (hnodup : (db.attemptsOf t.id).Nodup) :
    ((attemptRows cfg run.id db).filter fun a => a.taskRunId = t.id).Perm
      (db.attemptsOf t.id) := by
  let joined := (Table.join TaskAttempt.taskRunId TaskRun.id db.taskAttempts db.taskRuns).filter
    fun row => row.2.workflowRunId = run.id
  have hsorted : (attemptRows cfg run.id db).Perm (joined.map Prod.fst) :=
    (List.perm_insertionSort _ joined).map Prod.fst
  have hsublist : ((joined.map Prod.fst).filter fun a => a.taskRunId = t.id).Sublist
      (db.attemptsOf t.id) :=
    ((List.filter_sublist.map _).trans
      (Table.map_fst_join_sublist hk.tasks db.taskAttempts)).filter _
  refine (hsorted.filter _).trans
    ((List.perm_ext_iff_of_nodup (hsublist.nodup hnodup) hnodup).2 fun a => ⟨?_, fun ha => ?_⟩)
  · exact fun ha => hsublist.subset ha
  · obtain ⟨hmem, hid⟩ := List.mem_filter.1 ha
    refine List.mem_filter.2 ⟨List.mem_map.2 ⟨(a, t), List.mem_filter.2 ⟨?_, ?_⟩, rfl⟩, hid⟩
    · exact Table.mem_join.2 ⟨hmem, ht, (of_decide_eq_true hid).symm⟩
    · exact decide_eq_true hrun

theorem RowsSeen.attemptsSeen {rows : List TaskRow} (h : RowsSeen run rows db) (ha : db.Agrees) :
    AttemptsSeen rows (attemptRows cfg run.id db) := by
  have hk := ha.wellFormed.toKeyed
  have hof : ∀ row ∈ rows, ∃ n, row.task.attemptCount ≤ n ∧
      ((db.attemptsOf row.task.id).map TaskAttempt.attemptNumber) = List.range' 1 n ∧
        ((attemptRows cfg run.id db).filter fun a => a.taskRunId = row.task.id).Perm
          (db.attemptsOf row.task.id) := by
    intro row hrow
    obtain ⟨t, ht, hid, hrun, hcount⟩ := h.counted row hrow
    rw [← hid]
    have hnumbered : (db.attemptsOf t.id).map TaskAttempt.attemptNumber =
        List.range' 1 t.attemptCount := (ha.ledger t ht).numbered
    have hnodup : (db.attemptsOf t.id).Nodup :=
      .of_map TaskAttempt.attemptNumber (hnumbered ▸ List.nodup_range')
    exact ⟨t.attemptCount, hcount, hnumbered, attemptRows_perm hk ht hrun hnodup⟩
  refine ⟨fun row hrow => ?_, fun row hrow hst a hmem htask hle => ?_⟩
  · obtain ⟨n, hcount, hnumbered, hperm⟩ := hof row hrow
    exact ⟨n, hcount, hnumbered ▸ hperm.map _⟩
  · obtain ⟨n, hcount, hnumbered, hperm⟩ := hof row hrow
    have ha' : a ∈ db.attemptsOf row.task.id :=
      hperm.subset (List.mem_filter.2 ⟨hmem, decide_eq_true htask⟩)
    have hpos : 1 ≤ a.attemptNumber := by
      have hn := List.mem_map_of_mem (f := TaskAttempt.attemptNumber) ha'
      rw [hnumbered, List.mem_range'_1] at hn
      exact hn.1
    obtain ⟨b, hb, hbtask, hbnum, hc⟩ := h.ended row hrow hst a.attemptNumber hpos hle
    have hb' : b ∈ db.attemptsOf row.task.id := List.mem_filter.2 ⟨hb, decide_eq_true hbtask⟩
    have hnd : ((db.attemptsOf row.task.id).map TaskAttempt.attemptNumber).Nodup :=
      hnumbered ▸ List.nodup_range'
    rwa [Table.eq_of_key hnd ha' hb' hbnum.symm]

/-- The page that is made of what was read. -/
theorem RowsSeen.consistent {rows : List TaskRow} {attempts : List TaskAttempt} {view : RunView}
    (h : RowsSeen run rows db) (hattempts : AttemptsSeen rows attempts)
    (hview : view.Shows run rows attempts) : view.ReadInOrder ∧ view.Lists db := by
  obtain ⟨rfl, htasks⟩ := hview
  have hrows : view.tasks.map (fun task => task.1.1) = rows := by
    rw [← List.forall₂_eq_eq_eq, List.forall₂_map_left_iff]
    exact htasks.flip.imp fun _ _ htask => htask.1
  have htask : ∀ task ∈ view.tasks, task.1.1 ∈ rows ∧
      task.2.map Prod.fst = attempts.filter fun a => a.taskRunId = task.1.1.task.id := by
    intro task hmem
    refine ⟨hrows ▸ List.mem_map_of_mem hmem, ?_⟩
    obtain ⟨n, hn, rfl⟩ := List.getElem_of_mem hmem
    have hn' : n < rows.length := htasks.length_eq ▸ hn
    obtain ⟨hrow, hfilter⟩ := htasks.get hn' hn
    rw [List.get_eq_getElem, List.get_eq_getElem] at hrow hfilter
    rw [hrow, hfilter]
  refine ⟨⟨fun task hmem => ?_, ?_, fun hst task hmem => ?_, fun task hmem => ?_,
    fun task hmem hst a ha => ?_⟩, fun t ht hrun => ?_⟩
  · exact h.ofRun _ (htask task hmem).1
  · have honce := h.once
    rwa [← hrows, List.map_map] at honce
  · exact h.done hst _ (htask task hmem).1
  · obtain ⟨hrow, hfilter⟩ := htask task hmem
    obtain ⟨n, hcount, hperm⟩ := hattempts.numbered _ hrow
    rw [← hfilter, List.map_map] at hperm
    exact ⟨n, hcount, hperm⟩
  · obtain ⟨hrow, hfilter⟩ := htask task hmem
    have hmem' := List.mem_map_of_mem (f := Prod.fst) ha
    rw [hfilter, List.mem_filter, decide_eq_true_eq] at hmem'
    exact hattempts.ended _ hrow hst a.1 hmem'.1 hmem'.2
  · obtain ⟨row, hrow, hid⟩ := h.lists t ht hrun
    rw [← hrows] at hrow
    obtain ⟨task, hmem, rfl⟩ := List.mem_map.1 hrow
    exact ⟨task, hmem, hid⟩

end Statements

/-! ## Requests in flight -/

section Flights

variable {cfg : ApiConfig} {p : Principal}

/-- The tables agree, and later tables come after. -/
def pageDiscipline (cfg : ApiConfig) : Discipline Draw Backend where
  inv b := b.db.Agrees
  le b b' := b.db.Later b'.db
  le_refl b := .refl b.db
  le_trans := Db.Later.trans
  fresh := Draw.Fresh cfg
  view := id
  keep _ _ := True
  keep_refl _ := trivial
  keep_trans _ _ := trivial

/-- A response that shows the page of a run shows one that is right. -/
def Response.Right (r : Response) (b : Backend) : Prop :=
  ∀ view, r.body = .run view → view.ReadInOrder ∧ view.Lists b.db

theorem Db.Later.frame (db : Db) (artifacts : List Artifact) (log : List AuditEvent) :
    db.Later { db with artifacts := artifacts, auditEvents := log } :=
  ⟨(Db.Later.refl db).runs, (Db.Later.refl db).succeeded, (Db.Later.refl db).tasks,
    (Db.Later.refl db).noMore, (Db.Later.refl db).closed⟩

theorem Touches.later {d : Draw} {b b' : Backend} (h : Touches p d b b') (ha : b.db.Agrees)
    (hf : b.db.Fresh d.env) : b'.db.Agrees ∧ b.db.Later b'.db := by
  cases h with
  | call hexec => exact ⟨ha.exec hf hexec, ha.later hf hexec⟩
  | artifacts rows => exact ⟨ha.frame rows _, .frame _ rows _⟩
  | keys t => exact ⟨ha.frame _ _, .frame _ _ _⟩
  | _ => exact ⟨ha, .refl _⟩

theorem obeys_of_within {α : Type} {h : Api α} {Q : α → Prop} (hh : h.Within (Touches p) Q)
    (b : Backend) : h.Obeys (pageDiscipline cfg) (fun a _ => Q a) b := by
  refine hh.obeys (fun _ => rfl) (fun d b b' htouch ha hd => ?_) b
  obtain ⟨ha', hlater⟩ := htouch.later ha hd.rows
  exact ⟨ha', hlater, trivial⟩

/-- A statement of `getRun`, what it found and what stays of it. -/
theorem obeys_select {ε α : Type} {f : Db → Except ε α} {P : α → Db → Prop} {b : Backend}
    (hok : ∀ db a, b.db.Later db → db.Agrees → f db = .ok a → P a db)
    (hmono : ∀ a db db', db.Later db' → P a db → P a db') :
    (select f).Obeys (pageDiscipline cfg) (fun a b => P a b.db) b :=
  obeys_query (fun _ _ _ _ _ => rfl) (fun _ b' a hle ha h => hok b'.db a hle ha h)
    fun a b₁ b₂ hle h => hmono a b₁.db b₂.db hle h

theorem getRun_right (id : String) {b : Backend} (hb : b.db.Agrees) :
    (Api.getRun cfg p id).Obeys (pageDiscipline cfg) Response.Right b := by
  refine obeys_check fun _ _ => ?_
  have hrun : ((select (findRun cfg p.tenantId id)).mapError cfg.handleErr).Obeys
      (pageDiscipline cfg) (fun run b => RunSeen run b.db) b := by
    refine Obeys.mapError (obeys_select (fun _ _ _ _ h => ?_) fun _ _ _ hle h => h.mono hle)
    exact runSeen_findRun h
  refine hrun.bind hb fun run b hb hrun => ?_
  have hrows : (select fun db => .ok (taskRows cfg run.id db) : Api _).Obeys (pageDiscipline cfg)
      (fun rows b => RowsSeen run rows b.db) b := by
    refine obeys_select (fun b' rows hle ha h => ?_) fun _ _ _ hle h => h.mono hle
    cases h
    exact (hrun.mono hle).rowsSeen ha
  refine hrows.bind hb fun rows b hb hrows => ?_
  let Seen : List TaskAttempt → Db → Prop :=
    fun attempts db => RowsSeen run rows db ∧ AttemptsSeen rows attempts
  have hattempts : (select fun db => .ok (attemptRows cfg run.id db) : Api _).Obeys
      (pageDiscipline cfg) (fun attempts b => Seen attempts b.db) b := by
    refine obeys_select (fun db attempts hle ha h => ?_) fun _ _ _ hle h => ⟨h.1.mono hle, h.2⟩
    cases h
    exact ⟨hrows.mono hle, (hrows.mono hle).attemptsSeen ha⟩
  refine hattempts.bind hb fun attempts b hb hseen => ?_
  refine (obeys_of_within (Api.signRun_within run rows attempts) b).later.imp ?_
  rintro r b' ⟨⟨view, hbody, hshows⟩, hle⟩ view' hbody'
  obtain rfl : view = view' := Body.run.inj (hbody.symm.trans hbody')
  exact (hseen.1.mono hle).consistent hseen.2 hshows

/-- Every request answers with pages that are right. -/
theorem Endpoint.right {e : Endpoint} (h : e.Admits p) {b : Backend} (hb : b.db.Agrees) :
    (e.handler cfg p).Obeys (pageDiscipline cfg) Response.Right b := by
  by_cases hget : ∃ id, e = .http (.getRun id)
  · obtain ⟨id, rfl⟩ := hget
    exact getRun_right id hb
  · refine (obeys_of_within (Endpoint.within h) b).imp fun r b' hshows view hbody => ?_
    exact absurd hbody (hshows.resolve_left hget view)

/-- The tables agree, and those in flight answer with pages that are right. -/
structure Traffic.Paged (cfg : ApiConfig) (s : Traffic) : Prop where
  tables : s.backend.db.Agrees
  requests : ∀ f ∈ s.requests, f.code.Obeys (pageDiscipline cfg) Response.Right s.backend

theorem Traffic.Paged.next {s : Traffic} (h : s.Paged cfg) {e : TrafficEvent}
    (he : (traffic cfg).allowed s e) : ((traffic cfg).next s e).Paged cfg := by
  have hother : ∀ b : Backend, b.db.Agrees → s.backend.db.Later b.db →
      Paged cfg ⟨b, s.requests⟩ := fun b hb hle => ⟨hb, fun f hf => (h.requests f hf).mono hle⟩
  cases e with
  | arrive req d =>
    have hdb := (req.authenticate_sameButUse cfg d s.backend).db
    simp only [traffic]
    split <;> rename_i hauth <;> rw [hauth] at hdb
    · exact hother _ (hdb ▸ h.tables) (hdb ▸ .refl _)
    · rename_i p b
      obtain ⟨htables, hrequests⟩ := hother b (hdb ▸ h.tables) (hdb ▸ .refl _)
      refine ⟨htables, fun f hf => ?_⟩
      rcases List.mem_append.1 hf with hf | hf
      · exact hrequests f hf
      · rw [List.mem_singleton.1 hf]
        have hp : (req.authenticate cfg d s.backend).1 = some p := congrArg Prod.fst hauth
        exact Endpoint.right (Request.admits hp) htables
  | proceed n d =>
    simp only [traffic]
    split
    · rename_i tenantId after rest hn
      obtain ⟨hstep, -, hrest⟩ :=
        h.requests _ (List.mem_of_getElem? hn) s.backend (.refl _) h.tables d he
      refine ⟨hstep.inv, fun f hf => ?_⟩
      rcases List.mem_or_eq_of_mem_set hf with hf | rfl
      · exact (h.requests f hf).mono hstep.le
      · exact hrest
    · exact h
  | background env op =>
    simp only [traffic]
    split
    · rename_i r hexec
      exact hother _ (h.tables.exec he.2 hexec) (h.tables.later he.2 hexec)
    · exact h
  | reschedule rows => exact hother _ h.tables (.refl _)
  | object key content => exact hother _ h.tables (.refl _)

end Flights

/-- In every state the service reaches, a page of a run that a request has answered with has every
task of the run once, shows them all as succeeded if it shows the run so, and has the attempts of
each task from one on, at least those its row counts, which have ended unless it is shown as
held. -/
theorem run_pages_read_in_order {cfg : ApiConfig} {s : Traffic} (h : s.Reachable cfg) :
    ∀ f ∈ s.requests, ∀ status view, f.code = .done (.ok ⟨status, .run view⟩) →
      view.ReadInOrder ∧ view.Lists s.backend.db := by
  obtain ⟨s₀, es, h0, hv, rfl⟩ := h
  have hpaged : ((traffic cfg).run s₀ es).Paged cfg := by
    refine (traffic cfg).invariant (fun s e hs he => hs.next he) ⟨.of_init h0.db, ?_⟩ hv
    simp [h0.requests]
  intro f hf status view hdone
  have hright := hpaged.requests f hf
  rw [hdone] at hright
  exact hright _ (.refl _) hpaged.tables _ rfl view rfl

/-- The page a request has answered with. -/
def Flight.page (f : Flight) : Option RunView :=
  match f.code with
  | .done (.ok ⟨_, .run view⟩) => some view
  | _ => none

theorem Flight.code_of_page {f : Flight} {view : RunView} (h : f.page = some view) :
    ∃ status, f.code = .done (.ok ⟨status, .run view⟩) := by
  obtain ⟨tenantId, code⟩ := f
  unfold Flight.page at h
  split at h
  · rename_i status view' hcode
    cases h
    exact ⟨status, hcode⟩
  · cases h

/-- The API with texts in no order. -/
def unorderedApi : ApiConfig :=
  { unaryApi with textLe := fun _ _ => true }

/-- The run of the task that was served is read. The second task is leased after its row was read,
and before the attempts are. -/
def Traffic.readRun : List Cue :=
  servedTask ++ [.background (.dispatchReady (Scan.ofList [6])),
    .ask (.http (.getRun "aaaa")), .proceed 10, .proceed 10,
    .ask (.worker (.lease "aaaaaa" "w")), .proceed 11, .proceed 11] ++
      List.replicate 6 (.proceed 10)

/-- The page has an attempt of the second task that its row has not counted. -/
theorem run_pages_read_in_order_readRun :
    ∃ f ∈ (quietTraffic.after unorderedApi Traffic.readRun).requests, ∃ view, f.page = some view ∧
      (view.tasks.map fun task => (task.1.1.task.attemptCount, task.2.length)) = [(1, 1), (0, 1)] ∧
      view.ReadInOrder := by
  have hpage : ∃ f ∈ (quietTraffic.after unorderedApi Traffic.readRun).requests,
      (f.page.map fun view => view.tasks.map fun task =>
        (task.1.1.task.attemptCount, task.2.length)) = some [(1, 1), (0, 1)] := by
    decide +kernel
  obtain ⟨f, hf, hpage⟩ := hpage
  obtain ⟨view, hview, hcounts⟩ := Option.map_eq_some_iff.1 hpage
  obtain ⟨status, hdone⟩ := Flight.code_of_page hview
  have hreach : (quietTraffic.after unorderedApi Traffic.readRun).Reachable unorderedApi :=
    Traffic.reachable_after init_quietTraffic Traffic.readRun
  exact ⟨f, hf, view, hview, hcounts, (run_pages_read_in_order hreach f hf status view hdone).1⟩

end RunMesh
