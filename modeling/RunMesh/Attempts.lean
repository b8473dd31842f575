import RunMesh.Integrity

/-!
# Attempts

A lease adds the attempt row of its attempt, and every later write to an attempt row is to
the current attempt of a task that is leased or running (`exec_attempts`). So the rows of
other tasks and of earlier attempts are as they were left, and no attempt is numbered past
its task's count (`AttemptsBounded`).
-/

namespace RunMesh

open Fallible

variable {env : Env} {op : Op} {db db' : Db}

/-- What a call does to the attempt rows. -/
structure AttemptMoves (env : Env) (db : Db) (op : Op) (db' : Db)
    (f : TaskAttempt → TaskAttempt) (new : List TaskAttempt) : Prop where
  eq : db'.taskAttempts = db.taskAttempts.map f ++ new
  key : ∀ a, (f a).taskRunId = a.taskRunId ∧ (f a).attemptNumber = a.attemptNumber ∧
    (f a).workerId = a.workerId
  current : ∀ a ∈ db.taskAttempts, f a = a ∨ ∃ t ∈ db.taskRuns, t.id = a.taskRunId ∧
    t.attemptCount = a.attemptNumber ∧ t.status.active = true
  added : ∀ a ∈ new, ∃ t ∈ db.taskRuns, ∃ w d, op = .leaseTask t.id w d ∧
    t.status = .dispatching ∧ a = newAttempt env w (lease env w d t)

/-- A call that leaves the attempts alone. -/
theorem AttemptMoves.of_eq (h : db'.taskAttempts = db.taskAttempts) :
    AttemptMoves env db op db' id [] :=
  ⟨by simp [h], fun _ => ⟨rfl, rfl, rfl⟩, fun _ _ => Or.inl rfl, by simp⟩

/-- A call that writes the current attempt of the active task `t`. -/
theorem AttemptMoves.of_update {t : TaskRun} {p : TaskAttempt → Bool}
    {f : TaskAttempt → TaskAttempt} (h : db'.taskAttempts = Table.update p f db.taskAttempts)
    (ht : t ∈ db.taskRuns) (hact : t.status.active = true)
    (hp : ∀ a, p a = true → t.id = a.taskRunId ∧ t.attemptCount = a.attemptNumber)
    (hf : ∀ a, (f a).taskRunId = a.taskRunId ∧ (f a).attemptNumber = a.attemptNumber ∧
      (f a).workerId = a.workerId) :
    AttemptMoves env db op db' (fun a => if p a then f a else a) [] := by
  refine ⟨by simp [h, Table.update], fun a => ?_, fun a _ => ?_, by simp⟩
  · split_ifs
    · exact hf a
    · exact ⟨rfl, rfl, rfl⟩
  · split_ifs with ha
    · exact Or.inr ⟨t, ht, (hp a ha).1, (hp a ha).2, hact⟩
    · exact Or.inl rfl

theorem endAttempt_key (env : Env) (e : TaskRun × Run) (a : TaskAttempt) :
    (endAttempt env e a).taskRunId = a.taskRunId ∧
      (endAttempt env e a).attemptNumber = a.attemptNumber ∧
      (endAttempt env e a).workerId = a.workerId := by
  unfold endAttempt
  split_ifs <;> exact ⟨rfl, rfl, rfl⟩

theorem recoverExpired_attempts (scan : Scan) :
    AttemptMoves env db (.recoverExpired scan) (recoverExpired env scan db)
      (fun a => (expiredLeases env scan db).foldl (fun a e => endAttempt env e a) a) [] := by
  rw [recoverExpired_eq]
  refine ⟨by simp, fun a => ?_, fun a _ => ?_, by simp⟩
  · generalize expiredLeases env scan db = es
    induction es generalizing a with
    | nil => exact ⟨rfl, rfl, rfl⟩
    | cons e es ih =>
      obtain ⟨h₁, h₂, h₃⟩ := endAttempt_key env e a
      obtain ⟨k₁, k₂, k₃⟩ := ih (endAttempt env e a)
      exact ⟨k₁.trans h₁, k₂.trans h₂, k₃.trans h₃⟩
  · by_cases hcur : ∃ e ∈ expiredLeases env scan db,
        a.taskRunId = e.1.id ∧ a.attemptNumber = e.1.attemptCount
    · obtain ⟨⟨t, r⟩, he, hid, hnum⟩ := hcur
      obtain ⟨ht, -, -, hact, -⟩ := mem_expiredLeases he
      exact Or.inr ⟨t, ht, hid.symm, hnum.symm, hact⟩
    · exact Or.inl (Table.foldl_eq_self fun e he => if_neg fun h => hcur ⟨e, he, h⟩)

/-- A successful call writes current attempts, and adds those of the leases. -/
theorem exec_attempts (hk : db.Keyed) {reply : Reply} (h : op.exec env db = .ok (reply, db')) :
    ∃ f new, AttemptMoves env db op db' f new := by
  cases op <;> simp only [Op.exec, map_eq_ok, Prod.mk.injEq, Except.ok.injEq] at h
  case createWorkflow =>
    obtain ⟨⟨d, _⟩, hop, rfl, rfl⟩ := h
    obtain ⟨-, -, audit, rfl⟩ := createWorkflow_ok hop
    exact ⟨_, _, .of_eq rfl⟩
  case createVersion =>
    obtain ⟨_, hop, -⟩ := h
    exact absurd hop createVersion_ne_ok
  case createRun =>
    obtain ⟨⟨r, _⟩, hop, rfl, rfl⟩ := h
    rcases createRun_ok hop with ⟨rfl, -, -⟩ | ⟨d, hd, uri, -, hins⟩
    · exact ⟨_, _, .of_eq rfl⟩
    · obtain ⟨-, -, artifacts, rfl⟩ := insertRun_ok hins
      exact ⟨_, _, .of_eq rfl⟩
  case promoteRetries =>
    obtain ⟨-, rfl⟩ := h
    exact ⟨_, _, .of_eq rfl⟩
  case recoverExpired scan =>
    obtain ⟨-, rfl⟩ := h
    exact ⟨_, _, recoverExpired_attempts scan⟩
  case dispatchReady scan =>
    obtain ⟨-, rfl⟩ := h
    exact ⟨_, _, .of_eq (by rw [dispatchReady_eq hk])⟩
  case leaseTask id w d =>
    obtain ⟨⟨⟨t', uri⟩, _⟩, hop, -, rfl⟩ := h
    obtain ⟨t, ht, rfl, hst, rfl, -, rfl⟩ := leaseTask_ok hk hop
    refine ⟨fun a => a, [newAttempt env w (lease env w d t)], by simp, fun _ => ⟨rfl, rfl, rfl⟩,
      fun _ _ => Or.inl rfl, fun a ha => ⟨t, ht, w, d, rfl, hst, List.mem_singleton.1 ha⟩⟩
  case startTask =>
    obtain ⟨⟨t', _⟩, hop, -, rfl⟩ := h
    obtain ⟨t, r, hheld, -, hst, -, -, hdb⟩ := startTask_ok hk hop
    refine ⟨_, _, .of_update (congrArg Db.taskAttempts hdb) hheld.mem
      (by simp [hst, TaskStatus.active]) (fun a ha => ?_) fun a => ⟨rfl, rfl, rfl⟩⟩
    have ha := of_decide_eq_true ha
    exact ⟨ha.1.symm, ha.2.1.symm⟩
  case heartbeatTask =>
    obtain ⟨⟨b, _⟩, hop, -, rfl⟩ := h
    obtain ⟨t, r, -, rfl, -, rfl, rfl⟩ := heartbeatTask_ok hk hop
    exact ⟨_, _, .of_eq rfl⟩
  case completeTask =>
    obtain ⟨⟨t', _⟩, hop, -, rfl⟩ := h
    obtain ⟨t, r, hheld, -, hst, -, o', -, hdb⟩ := completeTask_ok hk hop
    refine ⟨_, _, .of_update (congrArg Db.taskAttempts hdb) hheld.mem
      (by simp [hst, TaskStatus.active]) (fun a ha => ?_) fun a => ⟨rfl, rfl, rfl⟩⟩
    have ha := of_decide_eq_true ha
    exact ⟨ha.1.symm, ha.2.symm⟩
  case failTask =>
    obtain ⟨⟨t', _⟩, hop, -, rfl⟩ := h
    obtain ⟨t, r, hheld, -, hact, -, hdb⟩ := failTask_ok hk hop
    refine ⟨_, _, .of_update (congrArg Db.taskAttempts hdb) hheld.mem hact (fun a ha => ?_)
      fun a => ⟨rfl, rfl, rfl⟩⟩
    have ha := of_decide_eq_true ha
    exact ⟨ha.1.symm, ha.2.symm⟩
  case cancelRun =>
    obtain ⟨_, hop, -, rfl⟩ := h
    exact ⟨_, _, .of_eq (by rw [(cancelRun_ok hop).2])⟩
  case retryRun =>
    obtain ⟨_, hop, -, rfl⟩ := h
    exact ⟨_, _, .of_eq (by rw [(retryRun_ok hop).2.2])⟩
  case replayDead =>
    obtain ⟨_, hop, -, rfl⟩ := h
    obtain ⟨t, ht, r, -, rfl, -, rfl, -, rfl⟩ := replayDead_ok hop
    exact ⟨_, _, .of_eq rfl⟩

/-! ## What they keep -/

/-- The attempts of a task. -/
def Db.attemptsOf (db : Db) (taskId : ℕ) : List TaskAttempt :=
  db.taskAttempts.filter fun a => a.taskRunId = taskId

/-- A task that is neither dispatched nor leased keeps its attempts. -/
theorem exec_attemptsOf (hk : db.Keyed) {reply : Reply} (h : op.exec env db = .ok (reply, db'))
    {t : TaskRun} (ht : t ∈ db.taskRuns) (hact : t.status.active = false)
    (hst : t.status ≠ .dispatching) : db'.attemptsOf t.id = db.attemptsOf t.id := by
  obtain ⟨f, new, hm⟩ := exec_attempts hk h
  have hnew : new.filter (fun a => a.taskRunId = t.id) = [] := by
    rw [List.filter_eq_nil_iff]
    intro a ha hid
    obtain ⟨s, hs, w, d, -, hdisp, rfl⟩ := hm.added a ha
    rw [Table.eq_of_key hk.tasks hs ht (of_decide_eq_true hid)] at hdisp
    exact hst hdisp
  rw [Db.attemptsOf, hm.eq, List.filter_append, hnew, List.append_nil, List.filter_map]
  have hsame : ((fun a : TaskAttempt => decide (a.taskRunId = t.id)) ∘ f) =
      fun a => decide (a.taskRunId = t.id) := by
    funext a
    simp [(hm.key a).1]
  rw [hsame]
  refine (List.map_congr_left fun a ha => ?_).trans (List.map_id' _)
  obtain ⟨ha, hid⟩ := List.mem_filter.1 ha
  rcases hm.current a ha with hf | ⟨s, hs, hsid, -, hsact⟩
  · exact hf
  · rw [Table.eq_of_key hk.tasks hs ht (hsid.trans (of_decide_eq_true hid)), hact] at hsact
    cases hsact

/-- No attempt is numbered past the count of its task. -/
def AttemptsBounded (db : Db) : Prop :=
  ∀ a ∈ db.taskAttempts, ∃ t ∈ db.taskRuns, t.id = a.taskRunId ∧ a.attemptNumber ≤ t.attemptCount

theorem TaskMove.attemptCount_le {t t' : TaskRun} (h : TaskMove env db op t t') :
    t.attemptCount ≤ t'.attemptCount := by
  cases h with
  | lease => exact Nat.le_succ _
  | _ => exact le_refl t.attemptCount

/-- A task stays, and its attempt count does not go down. -/
theorem exec_attemptCount_le (hk : db.Keyed) {reply : Reply}
    (h : op.exec env db = .ok (reply, db')) {t : TaskRun} (ht : t ∈ db.taskRuns) :
    ∃ t' ∈ db'.taskRuns, t'.id = t.id ∧ t.attemptCount ≤ t'.attemptCount := by
  rcases exec_moves hk h with hm | ⟨run, dag, hc⟩
  · obtain ⟨t', ht', hmove⟩ := hm.mem_task ht
    exact ⟨t', ht', hmove.id, hmove.attemptCount_le⟩
  · exact ⟨t, hc.task_mem ht, rfl, le_refl _⟩

theorem exec_attemptsBounded (hk : db.Keyed) {reply : Reply}
    (h : op.exec env db = .ok (reply, db')) (hb : AttemptsBounded db) : AttemptsBounded db' := by
  obtain ⟨f, new, hm⟩ := exec_attempts hk h
  intro a' ha'
  rw [hm.eq, List.mem_append, List.mem_map] at ha'
  rcases ha' with ⟨a, ha, rfl⟩ | ha'
  · obtain ⟨t, ht, hid, hle⟩ := hb a ha
    obtain ⟨hkey, hnum, -⟩ := hm.key a
    obtain ⟨t', ht', hid', hle'⟩ := exec_attemptCount_le hk h ht
    rw [hkey, hnum]
    exact ⟨t', ht', hid'.trans hid, hle.trans hle'⟩
  · obtain ⟨t, ht, w, d, rfl, -, rfl⟩ := hm.added a' ha'
    simp only [Op.exec, map_eq_ok, Prod.mk.injEq] at h
    obtain ⟨⟨⟨t', uri⟩, _⟩, hop, -, rfl⟩ := h
    obtain ⟨s, -, hid, -, -, -, hdb⟩ := leaseTask_ok hk hop
    refine ⟨lease env w d t, ?_, rfl, le_refl _⟩
    rw [hdb]
    exact Table.mem_update.2 ⟨t, ht, by simp [hid]⟩

theorem Reachable.attemptsBounded {s : State} (h : Reachable s) : AttemptsBounded s.db :=
  (h.induction (P := fun db => db.WellFormed ∧ AttemptsBounded db)
    (fun _ h0 => ⟨h0.wellFormed, by simp [AttemptsBounded, h0.taskAttempts]⟩)
    fun _ _ _ _ hP hf hok => ⟨exec_wellFormed hP.1 hf hok,
      exec_attemptsBounded hP.1.toKeyed hok hP.2⟩).2

/-- A dispatched task can be leased. -/
theorem leaseTask_succeeds (env : Env) (hw : db.WellFormed) (hb : AttemptsBounded db) {t : TaskRun}
    (ht : t ∈ db.taskRuns) (hst : t.status = .dispatching) (w : String) (d : ℤ) :
    ∃ r, leaseTask env t.id w d db = .ok r := by
  obtain ⟨t₁, ht₁⟩ := Table.exists_head?_returning
    (p := fun u : TaskRun => decide (u.id = t.id ∧ u.status = .dispatching)) ht
    (decide_eq_true ⟨rfl, hst⟩) (lease env w d)
  obtain ⟨u, hu, hp, rfl⟩ := Table.head?_returning ht₁
  obtain rfl := Table.eq_of_key hw.tasks hu ht (of_decide_eq_true hp).1
  obtain ⟨r, hr, hrid⟩ := hw.runOf u hu
  have hfound : (db.workflowRuns.find? fun r =>
      decide (r.id = (lease env w d u).workflowRunId)).isSome :=
    List.find?_isSome.2 ⟨r, hr, decide_eq_true hrid⟩
  obtain ⟨run, hrun⟩ := Option.isSome_iff_exists.1 hfound
  have hattempts : (db.taskAttempts.all fun a => ¬(a.taskRunId = (lease env w d u).id ∧
      a.attemptNumber = (lease env w d u).attemptCount)) = true := by
    rw [List.all_eq_true]
    intro a ha
    refine decide_eq_true fun ⟨hid, hnum⟩ => ?_
    obtain ⟨v, hv, hvid, hle⟩ := hb a ha
    obtain rfl := Table.eq_of_key hw.tasks hv hu (hvid.trans hid)
    exact (Nat.lt_succ_self _).not_ge (hnum ▸ hle)
  simp only [leaseTask, bind_eq_ok, orError_eq_ok, require_eq_ok]
  exact ⟨_, _, ht₁, run, hrun, (), hattempts, rfl⟩

end RunMesh
