import RunMesh.Events
import RunMesh.Readiness

/-!
# Cancellation

A cancelled run should stay so : no task of it waits, succeeds or is dispatched again
(`StaysCancelled`). A cancellation cancels the tasks that wait, and every later move of a
task asks for a running run or gives it the status of a cancelled one. All but two :
`retryRun` and `replayDead` ask whether a task is dead, and a cancelled run can have dead
tasks, if it failed with several and was partly replayed before it was cancelled.

`SparesCancelled` excludes exactly those calls, and `cancellation_final_iff` says that
cancellations are final in a history exactly when all its calls are of this kind.
-/

namespace RunMesh

open Fallible

variable {env : Env} {op : Op} {db db' : Db}

/-- The events `task.dispatch` of a run. -/
def Db.dispatchesOf (db : Db) (runId : ℕ) : List OutboxEvent :=
  db.outboxEvents.filter fun e => e.eventType = .dispatch ∧ e.payload.workflowRunId = some runId

/-- From `db` to `db'` the run stays cancelled, and it ends with no task that waits, no task
that has succeeded since, and no event `task.dispatch` emitted since. -/
structure StaysCancelled (db db' : Db) (runId : ℕ) : Prop where
  status : ∃ r ∈ db'.workflowRuns, r.id = runId ∧ r.status = .cancelled
  idle : ∀ t ∈ db'.taskRuns, t.workflowRunId = runId → t.status.waiting = false
  noSuccess : ∀ t ∈ db'.taskRuns, t.workflowRunId = runId → t.status = .succeeded →
    t ∈ db.taskRuns
  noDispatch : db'.dispatchesOf runId = db.dispatchesOf runId

/-- In every state of the history and from then on, every cancelled run stays so. -/
def CancellationsFinal (s₀ : State) (cs : List Call) : Prop :=
  ∀ bs ds, bs ++ ds <+: cs → ∀ r ∈ (controlPlane.run s₀ bs).db.workflowRuns,
    r.status = .cancelled →
    StaysCancelled (controlPlane.run s₀ bs).db (controlPlane.run s₀ (bs ++ ds)).db r.id

/-- The call does not retry a cancelled run that has a dead task, nor replay a dead task of
a cancelled run. -/
def SparesCancelled (db : Db) : Op → Prop
  | .retryRun tenantId _ id =>
    ∀ r ∈ db.workflowRuns, r.id = id → r.tenantId = tenantId → r.status = .cancelled →
      ∀ t ∈ db.taskRuns, t.workflowRunId = id → t.status ≠ .dead
  | .replayDead tenantId _ taskId =>
    ∀ t ∈ db.taskRuns, t.id = taskId → t.status = .dead →
      ∀ r ∈ db.workflowRuns, r.id = t.workflowRunId → r.tenantId = tenantId →
        r.status ≠ .cancelled
  | _ => True

/-- No task of a cancelled run waits. -/
def CancelledIdle (db : Db) : Prop :=
  ∀ r ∈ db.workflowRuns, r.status = .cancelled →
    ∀ t ∈ db.taskRuns, t.workflowRunId = r.id → t.status.waiting = false

/-! ## One call -/

/-- A cancelled run stays cancelled, unless it is retried. -/
theorem RunMove.cancelled {r r' : Run} (h : RunMove env db op r r') (hs : SparesCancelled db op)
    (hr : r ∈ db.workflowRuns) (hst : r.status = .cancelled) : r'.status = .cancelled := by
  cases h with
  | keep => exact hst
  | expire _ _ _ hrun => simp [hrun] at hst
  | complete _ _ hrun => simp [hrun] at hst
  | fail _ _ _ hrun => simp [hrun] at hst
  | cancel => rfl
  | retry htenant ht hrid hdead => exact absurd hdead (hs r hr rfl htenant hst _ ht hrid)
  | reopen _ _ _ _ hfailed => simp [hfailed] at hst

/-- A move of a task of a cancelled run does not make it wait, unless the run is retried or
a task of it replayed. -/
theorem TaskMove.idle {t t' : TaskRun} (h : TaskMove env db op t t') (hk : db.Keyed)
    (hs : SparesCancelled db op) (ht : t ∈ db.taskRuns) {r : Run} (hr : r ∈ db.workflowRuns)
    (hrid : t.workflowRunId = r.id) (hst : r.status = .cancelled)
    (hidle : t.status.waiting = false) : t'.status.waiting = false := by
  have hrun : ∀ q ∈ db.workflowRuns, q.id = t.workflowRunId → q = r := fun q hq hqid =>
    Table.eq_of_key hk.runs hq hr (hqid.trans hrid)
  rw [← Bool.not_eq_true] at hidle ⊢
  intro hwait
  rcases h.of_waiting ht hwait with hw | ⟨scan, q, -, he, hne, -⟩ | ⟨w, f, q, -, hheld, -, hne, -⟩ |
    ⟨_, _, q, hq, rfl, hqid, htenant, hdead⟩ |
    ⟨_, _, u, hu, q, hq, rfl, hqid, htenant, hdead, hrun'⟩
  · exact hidle hw
  · obtain ⟨-, hq, hqid, -⟩ := mem_expiredLeases he
    exact hne (hrun q hq hqid ▸ hst)
  · exact hne (hrun q hheld.run hheld.runId ▸ hst)
  · exact hs q hq hqid htenant (hrun q hq hqid ▸ hst) t ht rfl hdead
  · exact hs u hu rfl hdead q hq hqid htenant (hrun q hq (hqid.trans hrun'.symm) ▸ hst)

/-- A call that spares the cancelled runs keeps each of them cancelled. -/
theorem exec_staysCancelled (hw : db.WellFormed) (hf : db.Fresh env) {reply : Reply}
    (h : op.exec env db = .ok (reply, db')) (hs : SparesCancelled db op)
    (hidle : CancelledIdle db) {r : Run} (hr : r ∈ db.workflowRuns) (hst : r.status = .cancelled) :
    StaysCancelled db db' r.id := by
  have hmoves := exec_moves hw.toKeyed h
  refine ⟨?_, fun t' ht' hrid => ?_, fun t' ht' hrid hsucc => ?_, ?_⟩
  · rcases hmoves with hm | ⟨run, dag, hc⟩
    · obtain ⟨r', hr', hmove⟩ := hm.mem_run hr
      exact ⟨r', hr', hmove.id, hmove.cancelled hs hr hst⟩
    · exact ⟨r, by simp [hc.runs, hr], rfl, hst⟩
  · rcases hmoves with hm | ⟨run, dag, hc⟩
    · obtain ⟨t, ht, hmove⟩ := hm.of_mem_task ht'
      rw [hmove.workflowRunId] at hrid
      exact hmove.idle hw.toKeyed hs ht hr hrid hst (hidle r hr hst t ht hrid)
    · exact hidle r hr hst t' (hc.mem_of_old hf hr ht' hrid) hrid
  · rcases hmoves with hm | ⟨run, dag, hc⟩
    · obtain ⟨t, ht, hmove⟩ := hm.of_mem_task ht'
      rw [hmove.workflowRunId] at hrid
      rcases hmove.of_succeeded hsucc with hold | ⟨_, _, _, _, q, _, -, hheld, -, hrun, -⟩
      · rwa [hmove.eq_of_succeeded hold]
      · rw [Table.eq_of_key hw.runs hheld.run hr (hheld.runId.trans hrid), hst] at hrun
        cases hrun
    · exact hc.mem_of_old hf hr ht' hrid
  · obtain ⟨new, hnew, -, hev⟩ := exec_events hw.toKeyed h
    rw [Db.dispatchesOf, hnew, List.filter_append, Db.dispatchesOf, List.append_right_eq_self,
      List.filter_eq_nil_iff]
    intro e he hd
    obtain ⟨hdispatch, hrun⟩ := of_decide_eq_true hd
    obtain ⟨scan, t, q, n, -, hready, rfl⟩ := (hev e he).dispatch hdispatch
    obtain ⟨ht, -, -, hst', -⟩ := mem_readyTasks hready
    have := hidle r hr hst t ht (Option.some.inj hrun)
    simp [hst', TaskStatus.waiting] at this

/-- A call that spares the cancelled runs leaves every cancelled run idle. -/
theorem exec_cancelledIdle (hw : db.WellFormed) (hf : db.Fresh env) {reply : Reply}
    (h : op.exec env db = .ok (reply, db')) (hs : SparesCancelled db op)
    (hidle : CancelledIdle db) : CancelledIdle db' := by
  intro r' hr' hst' t' ht' hrid
  rcases exec_moves hw.toKeyed h with hm | ⟨run, dag, hc⟩
  · obtain ⟨r, hr, hmove⟩ := hm.of_mem_run hr'
    cases hmove with
    | keep => exact (exec_staysCancelled hw hf h hs hidle hr hst').idle t' ht' hrid
    | cancel =>
      simp only [Op.exec, map_eq_ok, Prod.mk.injEq] at h
      obtain ⟨_, hok, -, rfl⟩ := h
      rw [(cancelRun_ok hok).2] at ht'
      obtain ⟨t, -, rfl⟩ := List.mem_map.1 ht'
      unfold cancelWaiting at hrid ⊢
      split_ifs at hrid ⊢ with hwait
      · rfl
      · simpa [hrid] using hwait
    | _ => cases hst'
  · rw [hc.runs, List.mem_append, List.mem_singleton] at hr'
    rcases hr' with hr | rfl
    · exact hidle r' hr hst' t' (hc.mem_of_old hf hr ht' hrid) hrid
    · simp [hc.status] at hst'

/-! ## Histories -/

theorem StaysCancelled.refl (hidle : CancelledIdle db) {r : Run} (hr : r ∈ db.workflowRuns)
    (hst : r.status = .cancelled) : StaysCancelled db db r.id :=
  ⟨⟨r, hr, rfl, hst⟩, hidle r hr hst, fun _ ht _ _ => ht, rfl⟩

theorem StaysCancelled.trans {db₁ db₂ db₃ : Db} {runId : ℕ} (h₁ : StaysCancelled db₁ db₂ runId)
    (h₂ : StaysCancelled db₂ db₃ runId) : StaysCancelled db₁ db₃ runId where
  status := h₂.status
  idle := h₂.idle
  noSuccess t ht hrid hst := h₁.noSuccess t (h₂.noSuccess t ht hrid hst) hrid hst
  noDispatch := h₂.noDispatch.trans h₁.noDispatch

/-- What a history of sparing calls keeps. -/
def Sparing (s : State) : Prop :=
  s.db.WellFormed ∧ CancelledIdle s.db

theorem Sparing.next {s : State} {c : Call} (hI : Sparing s) (hc : controlPlane.allowed s c)
    (hs : SparesCancelled s.db c.op) : Sparing (controlPlane.next s c) :=
  controlPlane_step (P := fun db => db.WellFormed ∧ CancelledIdle db) hI fun _ _ hok =>
    ⟨exec_wellFormed hI.1 hc.2 hok, exec_cancelledIdle hI.1 hc.2 hok hs hI.2⟩

theorem Sparing.staysCancelled (ds : List Call) : ∀ {s : State}, Sparing s →
    controlPlane.Valid s ds → controlPlane.Along (fun s c => SparesCancelled s.db c.op) s ds →
    ∀ r ∈ s.db.workflowRuns, r.status = .cancelled →
      StaysCancelled s.db (controlPlane.run s ds).db r.id := by
  induction ds with
  | nil => intro s hI _ _ r hr hst; exact .refl hI.2 hr hst
  | cons c ds ih =>
    intro s hI hv hs r hr hst
    have hstep : StaysCancelled s.db (controlPlane.next s c).db r.id :=
      controlPlane_step (P := fun db => StaysCancelled s.db db r.id) (.refl hI.2 hr hst)
        fun _ _ hok => exec_staysCancelled hI.1 hv.1.2 hok hs.1 hI.2 hr hst
    obtain ⟨r', hr', hid, hst'⟩ := hstep.status
    exact hstep.trans (hid ▸ ih (hI.next hv.1 hs.1) hv.2 hs.2 r' hr' hst')

/-! ## The calls that undo a cancellation -/

/-- A retry of a run with a dead task leaves it running. -/
theorem retryRun_reopens (env : Env) (user : Option ℕ) {tenant id : ℕ} {r : Run}
    (hr : r ∈ db.workflowRuns) (hrid : r.id = id) (htenant : r.tenantId = tenant) {t : TaskRun}
    (ht : t ∈ db.taskRuns) (hrun : t.workflowRunId = id) (hdead : t.status = .dead) :
    ∃ db', retryRun env tenant user id db = .ok db' ∧
      ∀ r' ∈ db'.workflowRuns, r'.id = id → r'.status = .running := by
  have hany : (db.workflowRuns.any fun r => r.id = id ∧ r.tenantId = tenant) = true := by
    simpa using ⟨r, hr, hrid, htenant⟩
  have hdeads : (db.taskRuns.any fun t => t.workflowRunId = id ∧ t.status = .dead) = true := by
    simpa using ⟨t, ht, hrun, hdead⟩
  have hok : ∃ db', retryRun env tenant user id db = .ok db' :=
    ⟨_, by simp only [retryRun, hany, hdeads]; rfl⟩
  obtain ⟨db', hok⟩ := hok
  exact ⟨db', hok, fun r' hr' hid => retryRun_status hok hr' hid⟩

/-- A replay of a dead task leaves it ready. -/
theorem replayDead_revives (env : Env) (user : Option ℕ) {tenant : ℕ} {r : Run}
    (hr : r ∈ db.workflowRuns) {t : TaskRun} (ht : t ∈ db.taskRuns)
    (hrid : r.id = t.workflowRunId) (htenant : r.tenantId = tenant) (hdead : t.status = .dead) :
    ∃ db', replayDead env tenant user t.id db = .ok db' ∧
      ∃ t' ∈ db'.taskRuns, t'.workflowRunId = t.workflowRunId ∧ t'.status = .ready := by
  obtain ⟨tr, hfind⟩ : ∃ tr, (db.tasksWithRun.find? fun tr =>
      tr.1.id = t.id ∧ tr.2.tenantId = tenant ∧ tr.1.status = .dead) = some tr :=
    Table.exists_find?_join ht hr hrid (by simp [htenant, hdead])
  have hok : ∃ db', replayDead env tenant user t.id db = .ok db' :=
    ⟨_, by simp only [replayDead, hfind]; rfl⟩
  obtain ⟨db', hok⟩ := hok
  obtain ⟨u, hu, q, -, hid, -, -, -, hdb⟩ := replayDead_ok hok
  refine ⟨db', hok, replayRow env db u t, by rw [hdb]; exact List.mem_map_of_mem ht, ?_⟩
  simp [replayRow, hid, revive]

/-- Cancellation is final in a history exactly when no call of it retries a cancelled run
with a dead task or replays a dead task of a cancelled run. -/
theorem cancellation_final_iff {s₀ : State} (h0 : Init s₀) {cs : List Call}
    (hv : controlPlane.Valid s₀ cs) :
    CancellationsFinal s₀ cs ↔
      controlPlane.Along (fun s c => SparesCancelled s.db c.op) s₀ cs := by
  constructor
  · intro hfinal
    rw [controlPlane.along_iff_prefix]
    intro bs c hbs
    have hfin := hfinal bs [c] hbs
    rw [controlPlane.run_snoc, controlPlane_next_db, Call.after, Call.exec] at hfin
    cases hop : c.op <;> simp only [SparesCancelled]
    case retryRun tenant user id =>
      intro r hr hrid htenant hst t ht hrun hdead
      obtain ⟨db', hok, hrunning⟩ := retryRun_reopens c.env user hr hrid htenant ht hrun hdead
      have hfin := hfin r hr hst
      rw [hop, Op.exec, hok] at hfin
      obtain ⟨r', hr', hid', hst'⟩ := hfin.status
      rw [hrunning r' hr' (hid'.trans hrid)] at hst'
      cases hst'
    case replayDead tenant user taskId =>
      rintro t ht rfl hdead r hr hrid htenant hst
      obtain ⟨db', hok, t', ht', hrun', hready⟩ := replayDead_revives c.env user hr ht hrid htenant
        hdead
      have hfin := hfin r hr hst
      rw [hop, Op.exec, hok] at hfin
      have := hfin.idle t' ht' (hrun'.trans hrid.symm)
      simp [hready, TaskStatus.waiting] at this
  · intro hs bs ds hbs r hr hst
    have hvbs := (controlPlane.along_append _ bs ds s₀).1 (controlPlane.along_of_prefix hbs hv)
    have hsbs := (controlPlane.along_append _ bs ds s₀).1 (controlPlane.along_of_prefix hbs hs)
    have hI : Sparing (controlPlane.run s₀ bs) :=
      controlPlane.invariant_along (fun s c hI hc => Sparing.next hI hc.1 hc.2)
        ⟨h0.wellFormed, by simp [CancelledIdle, h0.workflowRuns]⟩
        ((controlPlane.along_and _ _ bs s₀).2 ⟨hvbs.1, hsbs.1⟩)
    rw [controlPlane.run_append]
    exact Sparing.staysCancelled ds hI hvbs.2 hsbs.2 r hr hst

/-- A run of the pair is cancelled while one of its tasks is leased. -/
def cancelledPair : List (ℤ × Op) :=
  [(1, .createRun 1 none 2 "k" "" none), (2, .dispatchReady (.ofList [4, 5])),
    (3, .leaseTask 4 "w" 100), (4, .cancelRun 1 none 3), (5, .startTask 4 "w"),
    (6, .failTask 4 "w" ⟨true, "Cancelled", "", ""⟩)]

theorem cancellation_final_iff_cancelledPair :
    CancellationsFinal twoDefinitions (play twoDefinitions cancelledPair) ∧
      (twoDefinitions.after cancelledPair).db.taskRuns.map TaskRun.status =
        [.cancelled, .cancelled] :=
  ⟨(cancellation_final_iff init_twoDefinitions (valid_play cancelledPair _ (by decide))).2
    ⟨trivial, trivial, trivial, trivial, trivial, trivial, trivial⟩, by decide⟩

/-- Both tasks of the pair fail for good, one is replayed, and the run is cancelled. -/
def cancelledWithDead : List (ℤ × Op) :=
  [(1, .createRun 1 none 2 "k" "" none), (2, .dispatchReady (.ofList [4, 5])),
    (3, .leaseTask 4 "w" 100), (4, .leaseTask 5 "w" 100),
    (5, .failTask 4 "w" ⟨false, "ValueError", "", ""⟩),
    (6, .failTask 5 "w" ⟨false, "ValueError", "", ""⟩), (7, .replayDead 1 none 4),
    (8, .cancelRun 1 none 3)]

/-- From there a retry makes the run run again, and a replay makes its tasks ready. -/
theorem cancelled_run_is_reopened :
    ∃ s, Reachable s ∧ s.db.workflowRuns.map Run.status = [.cancelled] ∧
      (∃ cs, controlPlane.Valid s cs ∧
        (controlPlane.run s cs).db.workflowRuns.map Run.status = [.running]) ∧
      ∃ cs, controlPlane.Valid s cs ∧
        (controlPlane.run s cs).db.taskRuns.map TaskRun.status = [.ready, .ready] :=
  ⟨twoDefinitions.after cancelledWithDead, reachable_after init_twoDefinitions (by decide),
    by decide,
    ⟨play (twoDefinitions.after cancelledWithDead) [(9, .retryRun 1 none 3)],
      valid_play _ _ (by decide), by decide⟩,
    play (twoDefinitions.after cancelledWithDead) [(9, .replayDead 1 none 5)],
    valid_play _ _ (by decide), by decide⟩

end RunMesh
