import RunMesh.Moves

/-!
# Integrity

The foreign keys and the shape of the dependency graph, in every reachable database :
a task has its run, a run has a task, a dependency joins two tasks of one run, and no
task waits for itself through other tasks. The graph of a run is the graph of its
definition, copied with fresh ids, so it inherits the search of `validateDAG`
(`Creates.acc_newTask`), and nothing changes it afterwards.
-/

namespace RunMesh

open Fallible

/-- The task `u` is an upstream of `t`, by ids. -/
def Db.DependsOn (db : Db) (u t : ℕ) : Prop :=
  ∃ d ∈ db.taskDependencies, d.taskRunId = t ∧ d.dependsOnTaskRunId = u

/-- The tables agree with each other. -/
structure Db.WellFormed (db : Db) : Prop extends Db.Keyed db where
  runOf : ∀ t ∈ db.taskRuns, ∃ r ∈ db.workflowRuns, r.id = t.workflowRunId
  nonempty : ∀ r ∈ db.workflowRuns, ∃ t ∈ db.taskRuns, t.workflowRunId = r.id
  edge : ∀ d ∈ db.taskDependencies,
    (∃ t ∈ db.taskRuns, t.id = d.taskRunId ∧ t.workflowRunId = d.workflowRunId) ∧
    ∃ u ∈ db.taskRuns, u.id = d.dependsOnTaskRunId ∧ u.workflowRunId = d.workflowRunId
  acyclic : ∀ t ∈ db.taskRuns, Acc db.DependsOn t.id
  accepted : ∀ d ∈ db.workflowDefinitions, validateDAG d.dag = .ok ()
  opened : ∀ r ∈ db.workflowRuns, r.status ≠ .pending

variable {env : Env} {op : Op} {db db' : Db}

/-- An upstream is in the same run. -/
theorem Db.WellFormed.upstream_run (hw : db.WellFormed) {t u : TaskRun} (ht : t ∈ db.taskRuns)
    (hu : u ∈ db.upstream db.taskRuns t) : u.workflowRunId = t.workflowRunId := by
  obtain ⟨hmem, d, hd, hdt, hdu⟩ := Db.mem_upstream.1 hu
  obtain ⟨⟨t₁, ht₁, hid₁, hrun₁⟩, ⟨u₁, hu₁, hid₂, hrun₂⟩⟩ := hw.edge d hd
  rw [← Table.eq_of_key hw.tasks ht₁ ht (hid₁.trans hdt),
    ← Table.eq_of_key hw.tasks hu₁ hmem (hid₂.trans hdu), hrun₁, hrun₂]

theorem Moves.wellFormed (h : Moves env op db db') (hw : db.WellFormed) : db'.WellFormed where
  toKeyed := h.keyed hw.toKeyed
  runOf t' ht' := by
    obtain ⟨t, ht, hmove⟩ := h.of_mem_task ht'
    obtain ⟨r, hr, hrid⟩ := hw.runOf t ht
    obtain ⟨r', hr', hrmove⟩ := h.mem_run hr
    exact ⟨r', hr', by rw [hrmove.id, hrid, hmove.workflowRunId]⟩
  nonempty r' hr' := by
    obtain ⟨r, hr, hrmove⟩ := h.of_mem_run hr'
    obtain ⟨t, ht, hrid⟩ := hw.nonempty r hr
    obtain ⟨t', ht', hmove⟩ := h.mem_task ht
    exact ⟨t', ht', by rw [hmove.workflowRunId, hrid, hrmove.id]⟩
  edge d hd := by
    rw [h.dependencies] at hd
    obtain ⟨⟨t, ht, hid, hrun⟩, ⟨u, hu, hid', hrun'⟩⟩ := hw.edge d hd
    obtain ⟨t', ht', hmove⟩ := h.mem_task ht
    obtain ⟨u', hu', hmove'⟩ := h.mem_task hu
    exact ⟨⟨t', ht', by rw [hmove.id, hid], by rw [hmove.workflowRunId, hrun]⟩,
      u', hu', by rw [hmove'.id, hid'], by rw [hmove'.workflowRunId, hrun']⟩
  acyclic t' ht' := by
    obtain ⟨t, ht, hmove⟩ := h.of_mem_task ht'
    have hdep : db'.DependsOn = db.DependsOn := by
      unfold Db.DependsOn
      rw [h.dependencies]
    rw [hmove.id, hdep]
    exact hw.acyclic t ht
  accepted d hd := (h.definitions d hd).elim (hw.accepted d) fun hd => hd
  opened r' hr' := by
    obtain ⟨r, hr, hrmove⟩ := h.of_mem_run hr'
    exact hrmove.ne_pending (hw.opened r hr)

/-! ## A new run -/

section

variable {run : Run} {dag : DAG}

theorem Db.Fresh.task_ne (hf : db.Fresh env) {t : TaskRun} (ht : t ∈ db.taskRuns) (n : ℕ) :
    t.id ≠ env.uuid n := fun h => by
  refine hf.notMem n ?_
  rw [← h]
  simp only [Db.ids, List.mem_append]
  exact Or.inl (Or.inr (List.mem_map_of_mem ht))

theorem Db.Fresh.run_ne (hf : db.Fresh env) {r : Run} (hr : r ∈ db.workflowRuns) (n : ℕ) :
    r.id ≠ env.uuid n := fun h => by
  refine hf.notMem n ?_
  rw [← h]
  simp only [Db.ids, List.mem_append]
  exact Or.inl (Or.inl (Or.inr (List.mem_map_of_mem hr)))

/-- Different keys get different ids. -/
theorem taskId_injective (hf : db.Fresh env) {key key' : String} (hkey : key ∈ dag.keys)
    (h : taskId env dag key = taskId env dag key') : key = key' := by
  have := hf.injective h
  exact (List.idxOf_inj hkey).1 (by omega)

theorem newTaskRun_status (env : Env) (run : Run) (dag : DAG) (entry : String × TaskSpec) :
    (newTaskRun env run dag entry).status = .ready ∨
      (newTaskRun env run dag entry).status = .blocked := by
  simp only [newTaskRun]
  split_ifs <;> simp

theorem mem_newDependencies {d : Dependency} :
    d ∈ newDependencies env run dag ↔ ∃ entry ∈ dag.tasks, ∃ dep ∈ entry.2.dependsOn,
      d = ⟨run.id, taskId env dag entry.1, taskId env dag dep⟩ := by
  simp [newDependencies, eq_comm]

namespace Creates

variable (h : Creates env op db db' run dag)

include h

theorem dep_mem_keys {entry : String × TaskSpec} (hentry : entry ∈ dag.tasks) {dep : String}
    (hdep : dep ∈ entry.2.dependsOn) : dep ∈ dag.keys := by
  have hins := h.dependenciesInsertable
  simp only [RunMesh.dependenciesInsertable, Bool.and_eq_true, List.all_eq_true,
    decide_eq_true_eq] at hins
  exact hins.1.1 entry hentry dep hdep

theorem keyed (hf : db.Fresh env) (hk : db.Keyed) : db'.Keyed := by
  constructor
  · rw [h.runs, List.map_append, List.nodup_append]
    refine ⟨hk.runs, by simp, ?_⟩
    intro i hi j hj hij
    obtain ⟨r, hr, rfl⟩ := List.mem_map.1 hi
    rw [List.map_singleton, List.mem_singleton, h.id] at hj
    exact hf.run_ne hr 0 (hij.trans hj)
  · rw [h.tasks, List.map_append, List.nodup_append]
    refine ⟨hk.tasks, ?_, ?_⟩
    · have hids : (dag.tasks.map (newTaskRun env run dag)).map TaskRun.id =
          dag.keys.map (taskId env dag) := by
        rw [DAG.keys, List.map_map, List.map_map]
        rfl
      rw [hids]
      exact List.Nodup.map_on (fun key hkey key' _ => taskId_injective hf hkey) dag.nodup
    · intro i hi j hj hij
      obtain ⟨t, ht, rfl⟩ := List.mem_map.1 hi
      obtain ⟨s, hs, rfl⟩ := List.mem_map.1 hj
      obtain ⟨entry, -, rfl⟩ := List.mem_map.1 hs
      exact hf.task_ne ht _ hij

theorem newTask_mem {entry : String × TaskSpec} (hentry : entry ∈ dag.tasks) :
    newTaskRun env run dag entry ∈ db'.taskRuns := by
  rw [h.tasks]
  exact List.mem_append_right _ (List.mem_map_of_mem hentry)

theorem task_mem {t : TaskRun} (ht : t ∈ db.taskRuns) : t ∈ db'.taskRuns := by
  rw [h.tasks]
  exact List.mem_append_left _ ht

/-- The tasks of an old run are old. -/
theorem mem_of_old (hf : db.Fresh env) {r : Run} (hr : r ∈ db.workflowRuns) {t : TaskRun}
    (ht : t ∈ db'.taskRuns) (hrid : t.workflowRunId = r.id) : t ∈ db.taskRuns := by
  rw [h.tasks, List.mem_append, List.mem_map] at ht
  rcases ht with ht | ⟨entry, -, rfl⟩
  · exact ht
  · exact absurd (hrid.symm.trans h.id) (hf.run_ne hr 0)

/-- The tasks of the new run are new. -/
theorem mem_of_new (hf : db.Fresh env) (hw : db.WellFormed) {t : TaskRun}
    (ht : t ∈ db'.taskRuns) (hrid : t.workflowRunId = run.id) :
    ∃ entry ∈ dag.tasks, t = newTaskRun env run dag entry := by
  rw [h.tasks, List.mem_append, List.mem_map] at ht
  rcases ht with ht | ⟨entry, hentry, rfl⟩
  · obtain ⟨r, hr, hrid'⟩ := hw.runOf t ht
    exact absurd (hrid'.trans (hrid.trans h.id)) (hf.run_ne hr 0)
  · exact ⟨entry, hentry, rfl⟩

/-- The task of a key. -/
theorem exists_task {key : String} (hkey : key ∈ dag.keys) :
    ∃ t ∈ db'.taskRuns, t.id = taskId env dag key ∧ t.workflowRunId = run.id := by
  obtain ⟨entry, hentry, rfl⟩ := List.mem_map.1 hkey
  exact ⟨_, h.newTask_mem hentry, rfl, rfl⟩

/-- An old task has its old upstreams. -/
theorem dependsOn_old (hf : db.Fresh env) {t : TaskRun} (ht : t ∈ db.taskRuns) (u : ℕ) :
    db'.DependsOn u t.id ↔ db.DependsOn u t.id := by
  simp only [Db.DependsOn, h.dependencies, List.mem_append, or_and_right, exists_or]
  refine or_iff_left ?_
  rintro ⟨d, hd, hdt, -⟩
  obtain ⟨entry, -, dep, -, rfl⟩ := mem_newDependencies.1 hd
  exact hf.task_ne ht _ hdt.symm

/-- The upstreams of a new task are the tasks of its dependencies. -/
theorem dependsOn_new (hf : db.Fresh env) (hw : db.WellFormed) {key : String}
    (hkey : key ∈ dag.keys) {u : ℕ} (hu : db'.DependsOn u (taskId env dag key)) :
    ∃ dep, dag.DependsOn dep key ∧ dep ∈ dag.keys ∧ u = taskId env dag dep := by
  obtain ⟨d, hd, hdt, rfl⟩ := hu
  rw [h.dependencies, List.mem_append] at hd
  rcases hd with hd | hd
  · obtain ⟨⟨t, ht, hid, -⟩, -⟩ := hw.edge d hd
    exact absurd (hid.trans hdt) (hf.task_ne ht _)
  · obtain ⟨⟨k, spec⟩, hentry, dep, hdep, rfl⟩ := mem_newDependencies.1 hd
    obtain rfl : key = k := taskId_injective hf hkey hdt.symm
    refine ⟨dep, ?_, h.dep_mem_keys hentry hdep, rfl⟩
    rw [DAG.DependsOn, dag.dependsOn_of_mem hentry]
    exact hdep

theorem acc_old (hf : db.Fresh env) (hw : db.WellFormed) {t : TaskRun} (ht : t ∈ db.taskRuns) :
    Acc db'.DependsOn t.id := by
  have hacc := hw.acyclic t ht
  generalize hi : t.id = i at hacc
  induction hacc generalizing t with
  | intro i _ ih =>
    subst hi
    refine Acc.intro _ fun u hu => ?_
    have hold := (h.dependsOn_old hf ht u).1 hu
    have ⟨d, hd, _, hdu⟩ := hold
    obtain ⟨-, v, hv, hid, -⟩ := hw.edge d hd
    exact ih u hold hv (hid.trans hdu)

/-- The search of `validateDAG` went through the new tasks. -/
theorem acc_newTask (hf : db.Fresh env) (hw : db.WellFormed) {key : String}
    (hkey : key ∈ dag.keys) : Acc db'.DependsOn (taskId env dag key) := by
  obtain ⟨d, hd, rfl⟩ := h.definition
  have hacc := acc_of_validateDAG (hw.accepted d hd) hkey
  induction hacc with
  | intro key _ ih =>
    refine Acc.intro _ fun u hu => ?_
    obtain ⟨dep, hdep, hmem, rfl⟩ := h.dependsOn_new hf hw hkey hu
    exact ih dep hdep hmem

theorem wellFormed (hf : db.Fresh env) (hw : db.WellFormed) : db'.WellFormed where
  toKeyed := h.keyed hf hw.toKeyed
  runOf t ht := by
    rw [h.runs]
    rw [h.tasks, List.mem_append, List.mem_map] at ht
    rcases ht with ht | ⟨entry, -, rfl⟩
    · obtain ⟨r, hr, hrid⟩ := hw.runOf t ht
      exact ⟨r, List.mem_append_left _ hr, hrid⟩
    · exact ⟨run, by simp, rfl⟩
  nonempty r hr := by
    rw [h.runs, List.mem_append, List.mem_singleton] at hr
    rcases hr with hr | rfl
    · obtain ⟨t, ht, hrid⟩ := hw.nonempty r hr
      exact ⟨t, h.task_mem ht, hrid⟩
    · obtain ⟨d, hd, rfl⟩ := h.definition
      obtain ⟨entry, hentry⟩ :=
        List.exists_mem_of_ne_nil _ (accepted_of_validateDAG (hw.accepted d hd)).nonempty
      exact ⟨_, h.newTask_mem hentry, rfl⟩
  edge d hd := by
    rw [h.dependencies, List.mem_append] at hd
    rcases hd with hd | hd
    · obtain ⟨⟨t, ht, hid⟩, ⟨u, hu, hid'⟩⟩ := hw.edge d hd
      exact ⟨⟨t, h.task_mem ht, hid⟩, u, h.task_mem hu, hid'⟩
    · obtain ⟨entry, hentry, dep, hdep, rfl⟩ := mem_newDependencies.1 hd
      exact ⟨h.exists_task (List.mem_map_of_mem hentry), h.exists_task (h.dep_mem_keys hentry hdep)⟩
  acyclic t ht := by
    rw [h.tasks, List.mem_append, List.mem_map] at ht
    rcases ht with ht | ⟨entry, hentry, rfl⟩
    · exact h.acc_old hf hw ht
    · exact h.acc_newTask hf hw (List.mem_map_of_mem hentry)
  accepted := h.definitions ▸ hw.accepted
  opened r hr := by
    rw [h.runs, List.mem_append, List.mem_singleton] at hr
    rcases hr with hr | rfl
    · exact hw.opened r hr
    · simp [h.status]

end Creates

end

theorem Init.wellFormed {s : State} (h : Init s) : s.db.WellFormed where
  runs := by simp [h.workflowRuns]
  tasks := by simp [h.taskRuns]
  runOf := by simp [h.taskRuns]
  nonempty := by simp [h.workflowRuns]
  edge := by simp [h.taskDependencies]
  acyclic := by simp [h.taskRuns]
  accepted := h.accepted
  opened := by simp [h.workflowRuns]

theorem exec_wellFormed (hw : db.WellFormed) (hf : db.Fresh env) {reply : Reply}
    (h : op.exec env db = .ok (reply, db')) : db'.WellFormed := by
  rcases exec_moves hw.toKeyed h with hm | ⟨run, dag, hc⟩
  · exact hm.wellFormed hw
  · exact hc.wellFormed hf hw

/-- Every reachable database is well formed. -/
theorem Reachable.wellFormed {s : State} (h : Reachable s) : s.db.WellFormed :=
  h.induction (fun _ h0 => h0.wellFormed) fun _ _ _ _ hw hf hok => exec_wellFormed hw hf hok

/-- What every new task has and every move keeps, every task has. -/
theorem Reachable.forall_task {P : TaskRun → Prop}
    (hnew : ∀ env run dag entry, P (newTaskRun env run dag entry))
    (hmove : ∀ env db op t t', TaskMove env db op t t' → P t → P t') {s : State}
    (h : Reachable s) : ∀ t ∈ s.db.taskRuns, P t := by
  refine (h.induction (P := fun db => db.WellFormed ∧ ∀ t ∈ db.taskRuns, P t)
    (fun _ h0 => ⟨h0.wellFormed, by simp [h0.taskRuns]⟩) ?_).2
  rintro c db reply db' ⟨hw, hP⟩ hf hok
  refine ⟨exec_wellFormed hw hf hok, fun t' ht' => ?_⟩
  rcases exec_moves hw.toKeyed hok with hm | ⟨run, dag, hc⟩
  · obtain ⟨t, ht, hm⟩ := hm.of_mem_task ht'
    exact hmove _ _ _ t t' hm (hP t ht)
  · rw [hc.tasks, List.mem_append, List.mem_map] at ht'
    rcases ht' with ht | ⟨entry, -, rfl⟩
    · exact hP t' ht
    · exact hnew _ run dag entry

/-- What every new run has and every move keeps, every run has. -/
theorem Reachable.forall_run {P : Run → Prop}
    (hnew : ∀ r : Run, r.status = .running → r.completedAt = none → P r)
    (hmove : ∀ env db op r r', RunMove env db op r r' → P r → P r') {s : State}
    (h : Reachable s) : ∀ r ∈ s.db.workflowRuns, P r := by
  refine (h.induction (P := fun db => db.WellFormed ∧ ∀ r ∈ db.workflowRuns, P r)
    (fun _ h0 => ⟨h0.wellFormed, by simp [h0.workflowRuns]⟩) ?_).2
  rintro c db reply db' ⟨hw, hP⟩ hf hok
  refine ⟨exec_wellFormed hw hf hok, fun r' hr' => ?_⟩
  rcases exec_moves hw.toKeyed hok with hm | ⟨run, dag, hc⟩
  · obtain ⟨r, hr, hm⟩ := hm.of_mem_run hr'
    exact hmove _ _ _ r r' hm (hP r hr)
  · rw [hc.runs, List.mem_append, List.mem_singleton] at hr'
    rcases hr' with hr | rfl
    · exact hP r' hr
    · exact hnew r' hc.status hc.completedAt

/-! ## How tasks and runs move together -/

/-- Two holders of leases on the same task hold the same rows. -/
theorem Holds.unique (hk : db.Keyed) {w w' : String} {t t' : TaskRun} {r r' : Run}
    (h : Holds env db w t r) (h' : Holds env db w' t' r') (hid : t'.id = t.id) :
    t' = t ∧ r' = r := by
  obtain rfl := Table.eq_of_key hk.tasks h'.mem h.mem hid
  exact ⟨rfl, Table.eq_of_key hk.runs h'.run h.run (h'.runId.trans h.runId.symm)⟩

/-- A completed task has succeeded. -/
theorem completeTask_succeeds (hk : db.Keyed) {w o a : String} {logs : List String}
    {id : ℕ} {t' t₁ : TaskRun} (h : completeTask env id w o a logs db = .ok (t₁, db'))
    (ht' : t' ∈ db'.taskRuns) (hid : t'.id = id) : t'.status = .succeeded := by
  obtain ⟨s, q, hheld, hst, -, -, o', -, hdb⟩ := completeTask_ok hk h
  rw [hdb] at ht'
  obtain ⟨u, -, rfl⟩ := List.mem_map.1 ht'
  unfold completeRow at hid ⊢
  split_ifs at hid ⊢ with hus hwake
  · rfl
  · exact absurd (hid.trans hst.symm) hus
  · exact absurd (hid.trans hst.symm) hus

/-- A failure that leaves its task dead fails the run. -/
theorem failTask_closes (hk : db.Keyed) {w : String} {f : Failure} {t t' : TaskRun} {r : Run}
    (hheld : Holds env db w t r) (h : failTask env t.id w f db = .ok (t', db'))
    (hst : reportStatus f t r = .dead ∨ reportStatus f t r = .cancelled) {r' : Run}
    (hr' : r' ∈ db'.workflowRuns) (hrid : r'.id = t.workflowRunId) : r'.status ≠ .running := by
  obtain ⟨s, q, hheld', hid, -, -, hdb⟩ := failTask_ok hk h
  obtain ⟨rfl, rfl⟩ := hheld.unique hk hheld' hid
  rw [hdb] at hr'
  rcases reportStatus_cases f s q with hc | hc | hc
  · simp only [hc.1, reduceCtorEq, if_false] at hr'
    rw [Table.eq_of_key hk.runs hr' hheld.run (hrid.trans hheld.runId.symm), hc.2]
    simp
  · simp [hc.1] at hst
  · simp only [hc.1, if_true] at hr'
    obtain ⟨p, -, rfl⟩ := List.mem_map.1 hr'
    unfold failRun at hrid ⊢
    split_ifs at hrid ⊢ with hp
    · simp
    · exact fun hrun => hp ⟨hrid, hrun⟩

/-- A recovery that leaves a task dead fails the run. -/
theorem recoverExpired_closes (hk : db.Keyed) {scan : Scan} {t : TaskRun} {r : Run}
    (he : (t, r) ∈ expiredLeases env scan db)
    (hst : expiryStatus (t, r) = .dead ∨ expiryStatus (t, r) = .cancelled) {r' : Run}
    (hr' : r' ∈ (recoverExpired env scan db).workflowRuns) (hrid : r'.id = t.workflowRunId) :
    r'.status ≠ .running := by
  rw [recoverExpired_eq] at hr'
  obtain ⟨p, hp, rfl⟩ := List.mem_map.1 hr'
  obtain ⟨-, hr, hrid', -⟩ := mem_expiredLeases he
  rw [expireRunRow_eq] at hrid ⊢
  split_ifs at hrid ⊢ with hfail
  · simp
  · intro hrun
    obtain rfl := Table.eq_of_key hk.runs hp hr (hrid.trans hrid'.symm)
    rcases expiryStatus_cases (t, p) with hc | hc | hc
    · simp [hrun] at hc
    · simp [hc.1] at hst
    · exact hfail ⟨hrun, _, he, hc.1, hrid.symm⟩

/-- A call that leaves a task dead or cancelled does not leave its run running. -/
theorem exec_closes (hk : db.Keyed) (hf : db.Fresh env) {reply : Reply}
    (h : op.exec env db = .ok (reply, db')) {t t' : TaskRun} (ht : t ∈ db.taskRuns)
    (ht' : t' ∈ db'.taskRuns) (hid : t'.id = t.id) (hne : t'.status ≠ t.status)
    (hst' : t'.status = .dead ∨ t'.status = .cancelled) {r' : Run}
    (hr' : r' ∈ db'.workflowRuns) (hrid : r'.id = t.workflowRunId) : r'.status ≠ .running := by
  rcases exec_moves hk h with hm | ⟨run, dag, hc⟩
  · obtain ⟨s, hs, hmove⟩ := hm.of_mem_task ht'
    obtain rfl := Table.eq_of_key hk.tasks hs ht (hmove.id.symm.trans hid)
    cases hmove with
    | keep => exact absurd rfl hne
    | expire he =>
      simp only [Op.exec, Except.ok.injEq, Prod.mk.injEq] at h
      obtain ⟨-, rfl⟩ := h
      exact recoverExpired_closes hk he hst' hr' hrid
    | fail hheld =>
      simp only [Op.exec, map_eq_ok, Prod.mk.injEq] at h
      obtain ⟨⟨t', _⟩, hok, -, rfl⟩ := h
      exact failTask_closes hk hheld hok hst' hr' hrid
    | failSibling hheld _ hdead hrun =>
      simp only [Op.exec, map_eq_ok, Prod.mk.injEq] at h
      obtain ⟨⟨t', _⟩, hok, -, rfl⟩ := h
      exact failTask_closes hk hheld hok (Or.inl hdead) hr' (hrid.trans hrun)
    | cancel hr hrid₁ htenant hopen =>
      simp only [Op.exec, map_eq_ok, Prod.mk.injEq] at h
      obtain ⟨_, hok, -, rfl⟩ := h
      rw [(cancelRun_ok hok).2] at hr'
      obtain ⟨p, hp, rfl⟩ := Table.mem_update.1 hr'
      split_ifs at hrid ⊢ with hcancel
      · simp
      · obtain rfl := Table.eq_of_key hk.runs hp hr (hrid.trans hrid₁.symm)
        exact absurd (by simp [hrid, htenant, hopen]) hcancel
    | rebuild =>
      simp only [RunMesh.rebuild] at hst'
      split_ifs at hst' <;> simp at hst'
    | renew => exact absurd rfl hne
    | _ => simp [lease, succeed, wake, revive] at hst'
  · have hk' := hc.keyed hf hk
    exact absurd (by rw [Table.eq_of_key hk'.tasks ht' (hc.task_mem ht) hid]) hne

/-- A run that is running with all its tasks succeeded was so before the call. -/
theorem exec_completes (hw : db.WellFormed) {reply : Reply}
    (h : op.exec env db = .ok (reply, db')) {r' : Run} (hr' : r' ∈ db'.workflowRuns)
    (hrun' : r'.status = .running)
    (hall : ∀ t' ∈ db'.taskRuns, t'.workflowRunId = r'.id → t'.status = .succeeded) :
    ∀ t ∈ db.taskRuns, t.workflowRunId = r'.id → t.status = .succeeded := by
  intro t ht hrid
  have hmoves := exec_moves hw.toKeyed h
  by_contra hst
  rcases hmoves with hm | ⟨run, dag, hc⟩
  · obtain ⟨t', ht', hmove⟩ := hm.mem_task ht
    have hst' := hall t' ht' (hmove.workflowRunId.trans hrid)
    -- the task succeeded in this call, so the call completed it, as the last of the run
    rcases hmove.of_succeeded hst' with hsucc | ⟨w, o, a, logs, r, -, rfl, hheld, -, hrun, -⟩
    · exact hst hsucc
    simp only [Op.exec, map_eq_ok, Prod.mk.injEq] at h
    obtain ⟨⟨t₁, _⟩, hok, -, rfl⟩ := h
    obtain ⟨s, q, hheld', hid, -, -, o', -, hdb⟩ := completeTask_ok hw.toKeyed hok
    obtain ⟨rfl, rfl⟩ := hheld.unique hw.toKeyed hheld' hid
    have hlast : ∀ u ∈ db.taskRuns, u.workflowRunId = s.workflowRunId →
        u.id = s.id ∨ u.status = .succeeded := by
      intro u hu hur
      have hrow := hall (completeRow env db s o' a u)
        (by rw [hdb]; exact List.mem_map_of_mem hu)
      unfold completeRow at hrow
      split_ifs at hrow with hus hwake
      · exact Or.inl hus
      · cases hrow (hur.trans hrid)
      · exact Or.inr (hrow (hur.trans hrid))
    rw [hdb] at hr'
    simp only [if_pos hlast] at hr'
    obtain ⟨p, hp, rfl⟩ := List.mem_map.1 hr'
    unfold completeRun at hrun' hrid
    split_ifs at hrun' hrid with hpr
    exact hpr ⟨hrid.symm, hrun'⟩
  · exact hst (hall t (hc.task_mem ht) hrid)

end RunMesh
