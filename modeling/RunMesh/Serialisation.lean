import RunMesh.Gate
import RunMesh.Statements
import RunMesh.Success

/-!
# Concurrent transactions on one run

`StartTask` and `CompleteTask` begin with `SELECT ... FOR UPDATE OF r,t`, and `CancelRun`
with an `UPDATE` of the run. So whatever their statements do in between, each of them first
locks the row of its run, and that row is their gate (`RunTx.gated`). Any number of them
on one run are therefore serial, and what is known of the transactions one by one carries
over : the last of several concurrent completions finds the others committed, wakes what
waits for all of them, and completes the run.
-/

namespace RunMesh

open ReadCommitted Fallible

/-- The transactions that lock the row of their run first. -/
inductive RunTx
  | start (taskId : ℕ) (workerId : String)
  | complete (taskId : ℕ) (workerId output artifactUri : String) (logArtifactUris : List String)
  | cancel (tenantId : ℕ) (userId : Option ℕ)
  deriving DecidableEq

namespace RunTx

/-- The task of a start or a completion. -/
def taskId : RunTx → Option ℕ
  | start taskId _ => some taskId
  | complete taskId _ _ _ _ => some taskId
  | cancel _ _ => none

/-- The operation on the run `runId`. -/
def op (runId : ℕ) : RunTx → Op
  | start taskId workerId => .startTask taskId workerId
  | complete taskId workerId output artifactUri logArtifactUris =>
    .completeTask taskId workerId output artifactUri logArtifactUris
  | cancel tenantId userId => .cancelRun tenantId userId runId

/-- Its statements. -/
def program (env : Env) (runId : ℕ) : RunTx → SqlProgram
  | start taskId workerId => startTaskTx env taskId workerId
  | complete taskId workerId output artifactUri logArtifactUris =>
    completeTaskTx env taskId workerId output artifactUri logArtifactUris
  | cancel tenantId userId => cancelRunTx env tenantId userId runId

/-- Alone, the statements are the operation. -/
theorem program_exec (x : RunTx) (env : Env) (runId : ℕ) (db : Db) :
    (x.program env runId).exec db = ((⟨env, x.op runId⟩ : Call).exec db).map Prod.snd := by
  cases x with
  | start taskId w =>
    rw [program, startTaskTx_exec]
    simp only [Call.exec, op, Op.exec]
    cases startTask env taskId w db <;> rfl
  | complete taskId w o a logs =>
    rw [program, completeTaskTx_exec]
    simp only [Call.exec, op, Op.exec]
    cases completeTask env taskId w o a logs db <;> rfl
  | cancel tenantId userId =>
    rw [program, cancelRunTx_exec]
    simp only [Call.exec, op, Op.exec]
    cases cancelRun env tenantId userId runId db <;> rfl

/-- The operation adds no run. -/
theorem moves {x : RunTx} {env : Env} {runId : ℕ} {db db' : Db} {reply : Reply} (hk : db.Keyed)
    (h : (x.op runId).exec env db = .ok (reply, db')) : Moves env (x.op runId) db db' := by
  rcases exec_moves hk h with hm | ⟨run, dag, hc⟩
  · exact hm
  · obtain ⟨_, _, _, _, _, _, hop⟩ := hc.isCreate
    cases x <;> cases hop

end RunTx

/-! ## The gate -/

section Gate

variable {I : Db → Prop} {runId : ℕ} {k : Result → SqlProgram}

/-- A `SELECT ... FOR UPDATE OF r,t` of one task of the run locks the run first. -/
theorem selectForUpdate_gated {p : TaskRun → Bool} (id : ℕ) (hid : ∀ t, p t = true → t.id = id)
    (hrun : ∀ db, I db → ∀ t ∈ db.taskRuns, t.id = id → t.workflowRunId = runId)
    (hk : ∀ r : Result, r.joined = [] → (k r).Barren) :
    Program.Gated (.run runId) I (.stmt (selectForUpdate p) k) := by
  have hkey : ∀ db, I db → ∀ tr ∈ db.tasksWithRun, p tr.1 = true →
      (tr.1.id, tr.2.id) = (id, runId) := by
    intro db hdb tr htr hp
    obtain ⟨ht, -, hrid⟩ := Table.mem_join.1 htr
    rw [hid _ hp, hrid, hrun db hdb _ ht (hid _ hp)]
  intro snap hsnap
  cases hf : snap.tasksWithRun.filter fun tr => p tr.1 with
  | nil =>
    refine .inl ⟨by simp [selectForUpdate, hf], fun db => hk _ ?_⟩
    exact List.filter_eq_nil_iff.2 fun tr _ =>
      Table.not_requalifies (List.filter_eq_nil_iff.1 hf) tr
  | cons o os =>
    obtain ⟨ho, hpo⟩ := List.mem_filter.1 (hf ▸ List.mem_cons_self)
    have hokey := hkey snap hsnap o ho hpo
    refine .inr ⟨by simpa [selectForUpdate, hf] using congrArg Prod.snd hokey, fun db hdb => ?_⟩
    refine ⟨?_, rfl⟩
    simp only [selectForUpdate, Table.filter_requalifies]
    congr 1
    refine List.filter_congr fun tr htr => Table.requalifies_of_mem ho hpo fun hp => ?_
    exact hokey.trans (hkey db hdb tr htr hp).symm

/-- An `UPDATE` of the run locks it. -/
theorem updateRuns_gated {p : Run → Bool} {f : Run → Run} (hid : ∀ r, p r = true → r.id = runId)
    (hk : ∀ r : Result, r.count = 0 → (k r).Barren) :
    Program.Gated (.run runId) I (.stmt (updateRuns p f) k) := by
  intro snap _
  cases hf : snap.workflowRuns.filter p with
  | nil =>
    refine .inl ⟨by simp [updateRuns, hf], fun db => hk _ ?_⟩
    exact List.countP_eq_zero.2 fun r _ =>
      Table.not_requalifies (List.filter_eq_nil_iff.1 hf) r
  | cons o os =>
    obtain ⟨ho, hpo⟩ := List.mem_filter.1 (hf ▸ List.mem_cons_self)
    have hqual : Table.requalifies Run.id p snap.workflowRuns = p :=
      funext fun r => Table.requalifies_of_mem ho hpo fun hp => (hid o hpo).trans (hid r hp).symm
    refine .inr ⟨by simpa [updateRuns, hf] using hid o hpo, fun db _ => ⟨?_, ?_⟩⟩
    · simp only [updateRuns, hqual, Table.countP_requalifies]
    · simp only [updateRuns, hqual, Table.update_requalifies]

end Gate

namespace RunTx

variable {I : Db → Prop} {runId : ℕ}

/-- The row of the run is the gate of the transactions on it. -/
theorem gated (x : RunTx) (env : Env)
    (hI : ∀ db, I db → ∀ t ∈ db.taskRuns, x.taskId = some t.id → t.workflowRunId = runId) :
    (x.program env runId).Gated (.run runId) I := by
  cases x with
  | start taskId w =>
    refine selectForUpdate_gated taskId (fun t ht => ?_)
      (fun db hdb t ht hid => hI db hdb t ht (by simp [RunTx.taskId, hid])) fun r hr => ?_
    · simp only [Bool.and_eq_true, heldBy_iff] at ht
      exact ht.1.1
    · simp only [hr]
      exact .rollback _
  | complete taskId w o a logs =>
    refine selectForUpdate_gated taskId (fun t ht => ?_)
      (fun db hdb t ht hid => hI db hdb t ht (by simp [RunTx.taskId, hid])) fun r hr => ?_
    · simp only [Bool.and_eq_true, heldBy_iff] at ht
      exact ht.1.1
    · simp only [hr]
      exact .rollback _
  | cancel tenantId userId =>
    refine updateRuns_gated (fun r hr => (of_decide_eq_true hr).1) fun r hr => ?_
    simp only [hr, if_true]
    exact .stmt (fun _ => rfl) fun _ => .rollback _

theorem insertEvents_raises {E : StoreError → Prop} {rest : SqlProgram} (h : rest.Raises E)
    (es : List OutboxEvent) : (insertEvents es rest).Raises E := by
  induction es with
  | nil => exact h
  | cons e es ih => exact .stmt fun _ => ih

/-- A start or a completion ends with `ErrLeaseLost` if it does not commit. -/
theorem raises {x : RunTx} (hx : x.taskId ≠ none) (env : Env) (runId : ℕ) :
    (x.program env runId).Raises (· = .leaseLost) := by
  cases x with
  | cancel => exact absurd rfl hx
  | start taskId w =>
    refine .stmt fun found => ?_
    split
    · exact .rollback rfl
    · split_ifs
      · refine .stmt fun started => ?_
        split
        · exact .rollback rfl
        · exact .stmt fun _ => .commit
      · exact .rollback rfl
  | complete taskId w o a logs =>
    refine .stmt fun found => ?_
    split
    · exact .rollback rfl
    · split
      · refine .stmt fun completed => ?_
        split
        · exact .rollback rfl
        · refine .stmt fun _ => .stmt fun _ => insertEvents_raises (.stmt fun _ => ?_) _
          split_ifs
          · exact .stmt fun _ => .commit
          · exact .commit
      · exact .rollback rfl

end RunTx

/-! ## Serial histories -/

/-- The calls one after the other, all of which succeed. -/
def execAll : List Call → Db → Except StoreError Db
  | [], db => .ok db
  | c :: cs, db => (c.exec db).map Prod.snd >>= execAll cs

theorem execAll_cons_ok {c : Call} {cs : List Call} {db db' : Db} :
    execAll (c :: cs) db = .ok db' ↔
      ∃ reply db₁, c.exec db = .ok (reply, db₁) ∧ execAll cs db₁ = .ok db' := by
  simp only [execAll, bind_eq_ok, map_eq_ok, Prod.exists]
  aesop

theorem execAll_append_ok {cs ds : List Call} : ∀ {db db' : Db},
    execAll (cs ++ ds) db = .ok db' →
      ∃ db₁, execAll cs db = .ok db₁ ∧ execAll ds db₁ = .ok db' := by
  induction cs with
  | nil => exact fun h => ⟨_, rfl, h⟩
  | cons c cs ih =>
    intro db db' h
    obtain ⟨reply, db₁, hc, h⟩ := execAll_cons_ok.1 h
    obtain ⟨db₂, hcs, hds⟩ := ih h
    exact ⟨db₂, execAll_cons_ok.2 ⟨reply, db₁, hc, hcs⟩, hds⟩

/-- What each successful call keeps. -/
theorem execAll_invariant {P : Db → Prop} {cs : List Call}
    (hstep : ∀ c ∈ cs, ∀ db reply db', P db → c.exec db = .ok (reply, db') → P db') :
    ∀ {db db' : Db}, P db → execAll cs db = .ok db' → P db' := by
  induction cs with
  | nil =>
    intro db db' hP h
    cases h
    exact hP
  | cons c cs ih =>
    intro db db' hP h
    obtain ⟨reply, db₁, hc, h⟩ := execAll_cons_ok.1 h
    exact ih (fun d hd => hstep d (by simp [hd])) (hstep c (by simp) db reply db₁ hP hc) h

/-- All rows of the run are cancelled. -/
def Db.Cancelled (db : Db) (runId : ℕ) : Prop :=
  ∀ r ∈ db.workflowRuns, r.id = runId → r.status = .cancelled

namespace RunTx

variable {x : RunTx} {env : Env} {runId : ℕ} {db db' : Db} {reply : Reply}

theorem cancelled_of_cancel {tenantId : ℕ} {userId : Option ℕ} (hk : db.Keyed)
    (h : cancelRun env tenantId userId runId db = .ok db') : db'.Cancelled runId := by
  obtain ⟨⟨r, hr, hid, htenant, hopen⟩, rfl⟩ := cancelRun_ok h
  intro r' hr' hid'
  obtain ⟨q, hq, rfl⟩ := Table.mem_update.1 hr'
  by_cases hp : q.id = runId ∧ q.tenantId = tenantId ∧ q.status.open = true
  · simp [hp]
  · simp only [hp, decide_false, Bool.false_eq_true, if_false] at hid'
    obtain rfl := Table.eq_of_key hk.runs hq hr (hid'.trans hid.symm)
    exact absurd ⟨hid, htenant, hopen⟩ hp

/-- Nothing commits on a cancelled run. -/
theorem not_ok_of_cancelled (hk : db.Keyed)
    (hon : ∀ t ∈ db.taskRuns, x.taskId = some t.id → t.workflowRunId = runId)
    (hc : db.Cancelled runId) : (x.op runId).exec env db ≠ .ok (reply, db') := by
  intro h
  cases x with
  | start taskId w =>
    simp only [op, Op.exec, map_eq_ok] at h
    obtain ⟨_, hok, -⟩ := h
    obtain ⟨t, r, hheld, rfl, -, hrun, -⟩ := startTask_ok hk hok
    have hcan := hc r hheld.run (hheld.runId.trans (hon t hheld.mem rfl))
    simp [hcan] at hrun
  | complete taskId w o a logs =>
    simp only [op, Op.exec, map_eq_ok] at h
    obtain ⟨_, hok, -⟩ := h
    obtain ⟨t, r, hheld, rfl, -, hrun, -⟩ := completeTask_ok hk hok
    have hcan := hc r hheld.run (hheld.runId.trans (hon t hheld.mem rfl))
    simp [hcan] at hrun
  | cancel tenantId userId =>
    simp only [op, Op.exec, map_eq_ok] at h
    obtain ⟨_, hok, -⟩ := h
    obtain ⟨⟨r, hr, hid, -, hopen⟩, -⟩ := cancelRun_ok hok
    simp [hc r hr hid, RunStatus.open] at hopen

end RunTx

/-! ## Concurrent wake-ups -/

/-- The event `task.ready` of the task. -/
def isReadyOf (id : ℕ) (e : OutboxEvent) : Bool :=
  e.eventType = .ready ∧ e.aggregateType = .taskRun ∧ e.aggregateId = id

theorem countP_readyEvents (env : Env) (runId id : ℕ) (children : List TaskRun) :
    (readyEvents env runId children).countP (isReadyOf id) = children.countP (·.id = id) := by
  have hfst : children.countP (·.id = id) = (children.zipIdx.map Prod.fst).countP (·.id = id) := by
    rw [List.zipIdx_map_fst]
  rw [hfst, readyEvents, List.countP_map, List.countP_map]
  refine List.countP_congr fun c _ => ?_
  simp [isReadyOf, newEvent]

/-- Among the events since `events` there is one `task.ready` of the task if it is ready,
and none if it is still blocked. -/
def WokenOnce (id : ℕ) (events : List OutboxEvent) (db : Db) : Prop :=
  ∃ t ∈ db.taskRuns, t.id = id ∧ ∃ new, db.outboxEvents = events ++ new ∧
    (t.status = .blocked ∧ new.countP (isReadyOf id) = 0 ∨
      t.status = .ready ∧ new.countP (isReadyOf id) = 1)

section WokenOnce

variable {env : Env} {id : ℕ} {events : List OutboxEvent} {db db' : Db}

/-- The number of the events a completion of `u` writes about the task. -/
theorem countP_wakes (hk : db.Keyed) {t u : TaskRun} (ht : t ∈ db.taskRuns) (hid : t.id = id) :
    (db.taskRuns.filter fun s => Wakes db u s).countP (·.id = id) =
      if Wakes db u t then 1 else 0 := by
  rw [List.countP_filter]
  have honly : ∀ s ∈ db.taskRuns, (decide (s.id = id) && decide (Wakes db u s)) = true → s = t := by
    intro s hs hp
    simp only [Bool.and_eq_true, decide_eq_true_eq] at hp
    exact Table.eq_of_key hk.tasks hs ht (hp.1.trans hid.symm)
  split_ifs with hw
  · exact Table.countP_eq_one hk.tasks.of_map ht (by simp [hid, hw]) honly
  · rw [List.countP_eq_zero]
    intro s hs hp
    rw [honly s hs hp] at hp
    simp [hw] at hp

theorem WokenOnce.start (h : WokenOnce id events db) (hk : db.Keyed) {taskId : ℕ} {w : String}
    {t' : TaskRun} (hok : startTask env taskId w db = .ok (t', db')) :
    WokenOnce id events db' := by
  obtain ⟨t, ht, hid, new, hnew, hst⟩ := h
  obtain ⟨u, r, hheld, rfl, hleased, -, -, rfl⟩ := startTask_ok hk hok
  have hne : t.id ≠ u.id := by
    intro heq
    rw [Table.eq_of_key hk.tasks ht hheld.mem heq, hleased] at hst
    simp at hst
  exact ⟨t, Table.mem_update.2 ⟨t, ht, by simp [hne]⟩, hid, new, hnew, hst⟩

/-- A completion wakes a blocked task at most, and then writes its event. -/
theorem WokenOnce.complete (h : WokenOnce id events db) (hk : db.Keyed) {taskId : ℕ}
    {w o a : String} {logs : List String} {t' : TaskRun}
    (hok : completeTask env taskId w o a logs db = .ok (t', db')) : WokenOnce id events db' := by
  obtain ⟨t, ht, hid, new, hnew, hst⟩ := h
  obtain ⟨u, r, hheld, rfl, hrunning, -, o', rfl, rfl⟩ := completeTask_ok hk hok
  have hne : t.id ≠ u.id := by
    intro heq
    rw [Table.eq_of_key hk.tasks ht hheld.mem heq, hrunning] at hst
    simp at hst
  let children := db.taskRuns.filter fun s => Wakes db u s
  let written := readyEvents env u.workflowRunId children ++
    [succeededEvent env children.length (succeed env o' a u)]
  have hcount : (new ++ written).countP (isReadyOf id) =
      new.countP (isReadyOf id) + if Wakes db u t then 1 else 0 := by
    rw [List.countP_append, List.countP_append, countP_readyEvents, countP_wakes hk ht hid]
    simp [succeededEvent, newEvent, isReadyOf]
  refine ⟨completeRow env db u o' a t, List.mem_map_of_mem ht, ?_, new ++ written, ?_, ?_⟩
  · rw [completeRow_id, hid]
  · change db.outboxEvents ++ written = events ++ (new ++ written)
    rw [hnew, List.append_assoc]
  · rw [hcount, completeRow, if_neg hne]
    by_cases hw : Wakes db u t
    · rcases hst with ⟨-, hzero⟩ | ⟨hready, -⟩
      · exact .inr ⟨by simp [hw, wake], by simp [hw, hzero]⟩
      · simp [hw.2.1] at hready
    · simpa [hw] using hst

end WokenOnce

/-! ## The result -/

/-- Transactions on one run, each with its time and UUIDs. -/
structure Contest (ι : Type*) where
  runId : ℕ
  env : ι → Env
  tx : ι → RunTx

namespace Contest

variable {ι : Type*} (c : Contest ι)

/-- The statements of transaction `i`. -/
def program (i : ι) : SqlProgram :=
  (c.tx i).program (c.env i) c.runId

/-- Transaction `i` as one step. -/
def call (i : ι) : Call :=
  ⟨c.env i, (c.tx i).op c.runId⟩

/-- The starts and completions are of tasks of the run. -/
def OnRun (db : Db) : Prop :=
  ∀ i, ∀ t ∈ db.taskRuns, (c.tx i).taskId = some t.id → t.workflowRunId = c.runId

variable {c} {db db' : Db} {reply : Reply} {i : ι}

theorem call_exec : (c.program i).exec db = ((c.call i).exec db).map Prod.snd :=
  (c.tx i).program_exec (c.env i) c.runId db

theorem serial_eq_execAll (is : List ι) : ∀ db : Db,
    serial c.program is db = execAll (is.map c.call) db := by
  induction is with
  | nil => exact fun _ => rfl
  | cons i is ih =>
    intro db
    rw [serial, List.map_cons, execAll, call_exec, funext ih]

/-- What the transactions keep. -/
structure Kept (c : Contest ι) (db : Db) : Prop where
  wellFormed : db.WellFormed
  exactlyReady : ExactlyReady db
  successExact : SuccessExact db
  onRun : c.OnRun db

theorem Kept.exec (h : c.Kept db) (hok : (c.call i).exec db = .ok (reply, db')) : c.Kept db' where
  wellFormed := (RunTx.moves h.wellFormed.toKeyed hok).wellFormed h.wellFormed
  exactlyReady := (RunTx.moves h.wellFormed.toKeyed hok).exactlyReady_of_exec h.wellFormed hok
    h.exactlyReady
  successExact := (RunTx.moves h.wellFormed.toKeyed hok).successExact_of_exec h.wellFormed hok
    h.successExact
  onRun j t' ht' hid := by
    obtain ⟨t, ht, hmove⟩ := (RunTx.moves h.wellFormed.toKeyed hok).of_mem_task ht'
    rw [hmove.workflowRunId]
    exact h.onRun j t ht (by rw [hid, hmove.id])

theorem Kept.execAll (h : c.Kept db) {is : List ι} (hok : execAll (is.map c.call) db = .ok db') :
    c.Kept db' := by
  refine execAll_invariant (fun d hd db reply db' hP hexec => ?_) h hok
  obtain ⟨i, -, rfl⟩ := List.mem_map.1 hd
  exact hP.exec hexec

/-- In a serial history a cancellation comes last. -/
theorem Kept.eq_nil_of_cancel (h : c.Kept db) {is js : List ι}
    (hok : RunMesh.execAll ((is ++ i :: js).map c.call) db = .ok db')
    (hi : (c.tx i).taskId = none) : js = [] := by
  rw [List.map_append] at hok
  obtain ⟨db₁, his, hjs⟩ := execAll_append_ok hok
  have hkept := h.execAll his
  obtain ⟨reply, db₂, hexec, hjs⟩ := execAll_cons_ok.1 hjs
  cases js with
  | nil => rfl
  | cons j js =>
    obtain ⟨reply', db₃, hnext, -⟩ := execAll_cons_ok.1 hjs
    have hkept₂ := hkept.exec hexec
    refine absurd hnext (RunTx.not_ok_of_cancelled hkept₂.wellFormed.toKeyed (hkept₂.onRun j) ?_)
    cases hx : c.tx i with
    | cancel tenantId userId =>
      simp only [call, hx, Call.exec, RunTx.op, Op.exec, map_eq_ok, Prod.mk.injEq] at hexec
      obtain ⟨_, hcancel, -, rfl⟩ := hexec
      exact RunTx.cancelled_of_cancel hkept.wellFormed.toKeyed hcancel
    | _ => simp [hx, RunTx.taskId] at hi

/-- In a serial history of starts and completions a task is woken once. -/
theorem Kept.wokenOnce (h : c.Kept db) {is : List ι} (hno : ∀ i, (c.tx i).taskId ≠ none)
    (hok : RunMesh.execAll (is.map c.call) db = .ok db') {t : TaskRun} (ht : t ∈ db.taskRuns)
    (hb : t.status = .blocked) : WokenOnce t.id db.outboxEvents db' := by
  refine (execAll_invariant (P := fun d => c.Kept d ∧ WokenOnce t.id db.outboxEvents d)
    (fun d hd db₁ reply db₂ hP hexec => ?_) ⟨h, t, ht, rfl, [], by simp, .inl ⟨hb, rfl⟩⟩ hok).2
  obtain ⟨i, -, rfl⟩ := List.mem_map.1 hd
  refine ⟨hP.1.exec hexec, ?_⟩
  cases hx : c.tx i with
  | start taskId w =>
    simp only [call, hx, Call.exec, RunTx.op, Op.exec, map_eq_ok, Prod.mk.injEq] at hexec
    obtain ⟨⟨_, _⟩, hstart, -, rfl⟩ := hexec
    exact hP.2.start hP.1.wellFormed.toKeyed hstart
  | complete taskId w o a logs =>
    simp only [call, hx, Call.exec, RunTx.op, Op.exec, map_eq_ok, Prod.mk.injEq] at hexec
    obtain ⟨⟨_, _⟩, hcomplete, -, rfl⟩ := hexec
    exact hP.2.complete hP.1.wellFormed.toKeyed hcomplete
  | cancel => exact absurd (by rw [hx]; rfl) (hno i)

variable [DecidableEq ι]

/-- The transactions under READ COMMITTED, after the steps `as` from `db`. -/
def after (c : Contest ι) (db : Db) (as : List (Action ι)) :
    System ι Db RowKey Result StoreError :=
  (readCommitted ι Db RowKey Result StoreError).run (.init db c.program) as

/-- The steps are possible one after the other from `db`. -/
def Steps (c : Contest ι) (db : Db) (as : List (Action ι)) : Prop :=
  (readCommitted ι Db RowKey Result StoreError).Valid (.init db c.program) as

instance [Fintype ι] (as : List (Action ι)) : Decidable (c.Steps db as) :=
  inferInstanceAs (Decidable (Machine.Valid _ _ as))

theorem Kept.serialised (h : c.Kept db) {as : List (Action ι)} (has : c.Steps db as) :
    Serialised (.run c.runId) c.Kept c.program db (c.after db as) := by
  refine gate_serial (fun i => (c.tx i).gated _ fun d hd => hd.onRun i) (fun i d d' hd hok => ?_)
    h has
  obtain ⟨⟨reply, _⟩, hcall, rfl⟩ := map_eq_ok.1 (call_exec.symm.trans hok)
  exact hd.exec hcall

/-- The committed transactions one after the other give the committed state. -/
theorem Kept.execAll_committed (h : c.Kept db) {as : List (Action ι)} (has : c.Steps db as) :
    RunMesh.execAll ((c.after db as).committed.map c.call) db = .ok (c.after db as).db := by
  rw [← serial_eq_execAll]
  exact (h.serialised has).serial

/-- Once a cancellation has committed, nothing else does. -/
theorem Kept.committed_of_cancel (h : c.Kept db) {as bs : List (Action ι)} (has : c.Steps db as)
    (hbs : bs <+: as) (hi : i ∈ (c.after db bs).committed) (hcancel : (c.tx i).taskId = none) :
    (c.after db as).committed = (c.after db bs).committed := by
  obtain ⟨cs, rfl⟩ := hbs
  have hrun : c.after db (bs ++ cs) = Machine.run _ (c.after db bs) cs := Machine.run_append ..
  obtain ⟨rest, hrest⟩ := committed_prefix_run cs (c.after db bs)
  obtain ⟨is, js, hij⟩ := List.append_of_mem hi
  have hall := h.execAll_committed has
  rw [hrun, ← hrest, hij, List.append_assoc, List.cons_append] at hall
  have hnil := List.append_eq_nil_iff.1 (h.eq_nil_of_cancel hall hcancel)
  rw [hrun, ← hrest, hnil.2, List.append_nil]

end Contest

/-- Completions serialise. Let any number of starts, completions and cancellations of one
run be interleaved statement by statement under READ COMMITTED, from any reachable state.
The committed state is that of the committed transactions one after the other, in the order
they committed in. Without a cancellation a blocked task all of whose upstreams have
succeeded is ready, with one `task.ready` event, and the run has succeeded if and only if
all its tasks have. Once a cancellation has committed, no other transaction commits, and a
start or a completion that ends from then on ends with `ErrLeaseLost`. -/
theorem completions_serialise {s : State} (h : Reachable s) {ι : Type*} [DecidableEq ι]
    (c : Contest ι) (hon : c.OnRun s.db) {as : List (Action ι)} (has : c.Steps s.db as) :
    (c.after s.db as).committed.Nodup ∧
    execAll ((c.after s.db as).committed.map c.call) s.db = .ok (c.after s.db as).db ∧
    ((∀ i, (c.tx i).taskId ≠ none) →
      (∀ t ∈ s.db.taskRuns, t.status = .blocked →
        (∀ u ∈ (c.after s.db as).db.upstream (c.after s.db as).db.taskRuns t,
          u.status = .succeeded) →
        ∃ t' ∈ (c.after s.db as).db.taskRuns, t'.id = t.id ∧ t'.status = .ready ∧
          ∃ new, (c.after s.db as).db.outboxEvents = s.db.outboxEvents ++ new ∧
            new.countP (isReadyOf t.id) = 1) ∧
      ∀ r ∈ (c.after s.db as).db.workflowRuns, r.id = c.runId →
        (r.status = .succeeded ↔ ∀ t ∈ (c.after s.db as).db.taskRuns,
          t.workflowRunId = c.runId → t.status = .succeeded)) ∧
    ∀ bs, bs <+: as → ∀ i ∈ (c.after s.db bs).committed, (c.tx i).taskId = none →
      (c.after s.db as).committed = (c.after s.db bs).committed ∧
      ∀ j, j ∉ (c.after s.db bs).committed → (c.tx j).taskId ≠ none →
        ∀ o, ((c.after s.db as).tx j).outcome = some o → o = .error .leaseLost := by
  have hkept : c.Kept s.db := ⟨h.wellFormed, h.exactlyReady, h.successExact, hon⟩
  have hall := hkept.execAll_committed has
  have hend := hkept.execAll hall
  have hrec := recorded_run s.db c.program has
  refine ⟨hrec.nodup, hall, fun hno => ⟨fun t ht hb hup => ?_, fun r hr hid => ?_⟩, ?_⟩
  · obtain ⟨t', ht', hid, new, hnew, hst⟩ := hkept.wokenOnce hno hall ht hb
    refine ⟨t', ht', hid, ?_⟩
    rcases hst with ⟨hblocked, -⟩ | ⟨hready, hone⟩
    · -- a task without an unfinished upstream is not blocked
      obtain ⟨u, hu, hne⟩ := (hend.exactlyReady t' ht' (by simp [hblocked])).1 hblocked
      have hu' : u ∈ (c.after s.db as).db.upstream (c.after s.db as).db.taskRuns t := by
        rw [Db.mem_upstream] at hu ⊢
        rwa [hid] at hu
      exact absurd (hup u hu') hne
    · exact ⟨hready, new, hnew, hone⟩
  · rw [← hid]
    exact hend.successExact r hr
  · intro bs hbs i hi hcancel
    have hcommitted := hkept.committed_of_cancel has hbs hi hcancel
    refine ⟨hcommitted, fun j hj hjx o ho => ?_⟩
    rw [← hcommitted] at hj
    cases o with
    | ok => exact absurd ((hrec.mem_iff j).2 ho) hj
    | error e =>
      have hraises : ((c.after s.db as).tx j).Raises (· = .leaseLost) :=
        raises_run (p := c.program) (RunTx.raises hjx _ _) as
      rw [hraises.outcome e ho]

/-- Two tasks, and a third that waits for both. -/
def joinDag : DAG where
  name := "join"
  tasks := [("a", plainTask "examples.greet" []), ("b", plainTask "examples.greet" []),
    ("c", plainTask "examples.upper" ["a", "b"])]
  nodup := by decide

/-- A database with this definition. -/
def joinDefined : State where
  db := ⟨[⟨1, 1, "join", 1, joinDag, none, 0⟩], [], [], [], [], [], [], []⟩
  clock := 0

theorem init_joinDefined : Init joinDefined where
  workflowRuns := rfl
  taskRuns := rfl
  taskDependencies := rfl
  taskAttempts := rfl
  outboxEvents := rfl
  accepted := by decide

/-- Both tasks are running, the third is blocked. -/
def joinRunning : State :=
  joinDefined.after [(1, .createRun 1 none 1 "k" "" none), (2, .dispatchReady (.ofList [3, 4])),
    (3, .leaseTask 3 "w" 100), (4, .leaseTask 4 "v" 100), (5, .startTask 3 "w"),
    (6, .startTask 4 "v")]

/-- Both tasks are completed. -/
def joinContest : Contest Bool where
  runId := 2
  env i := .at (if i then 8 else 7) (if i then 200 else 100)
  tx i := if i then .complete 4 "v" "" "" [] else .complete 3 "w" "" "" []

/-- Each completion has found its task before the other has a lock, and the one that came
second to the run is the one that wakes the third task. -/
def joinSteps : List (Action Bool) :=
  [.start false, .start true, .lock true, .lock true, .finish true,
    .start true, .lock true, .finish true, .start true, .lock true, .finish true,
    .start true, .finish true, .start true, .finish true, .start true, .finish true, .close true,
    .lock false, .lock false, .finish false,
    .start false, .lock false, .finish false, .start false, .lock false, .finish false,
    .start false, .lock false, .finish false, .start false, .finish false,
    .start false, .finish false, .start false, .finish false, .close false]

theorem completions_serialise_join :
    (joinContest.after joinRunning.db joinSteps).committed = [true, false] ∧
      ∃ t ∈ (joinContest.after joinRunning.db joinSteps).db.taskRuns, t.id = 5 ∧
        t.status = .ready ∧ ∃ new, (joinContest.after joinRunning.db joinSteps).db.outboxEvents =
          joinRunning.db.outboxEvents ++ new ∧ new.countP (isReadyOf 5) = 1 := by
  have hr : Reachable joinRunning := reachable_after init_joinDefined (by decide)
  have hon : joinContest.OnRun joinRunning.db := by unfold Contest.OnRun; decide +kernel
  have hsteps : joinContest.Steps joinRunning.db joinSteps := by decide +kernel
  obtain ⟨t, ht, hb, hid, hup⟩ : ∃ t ∈ joinRunning.db.taskRuns, t.status = .blocked ∧ t.id = 5 ∧
      ∀ u ∈ (joinContest.after joinRunning.db joinSteps).db.upstream
        (joinContest.after joinRunning.db joinSteps).db.taskRuns t, u.status = .succeeded := by
    decide +kernel
  refine ⟨by decide +kernel, ?_⟩
  rw [← hid]
  exact ((completions_serialise hr joinContest hon hsteps).2.2.1 (by decide)).1 t ht hb hup

end RunMesh
