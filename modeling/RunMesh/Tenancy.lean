import RunMesh.Attempts
import RunMesh.Events

/-!
# The rows of a tenant

A row belongs to a tenant by its own column, or through the run or the task it refers to.
`Db.view A` is the database with the rows of `A` only. An operation with the tenant `A` as an
argument, or on a task of `A`, does the same in the whole database and among the rows of `A`.

Most operations on tasks and runs have no tenant in their statements. They find a task by its
id, and then the rows of its run. So it is enough that the task is one of `A`. Here the rows of
`A` are those of a set of runs which is `Closed` : it has the runs of `A`, and the tasks and the
dependencies of a run are all in or all out. `RunMesh.Confinement` takes the runs of `A` for it.
-/

namespace RunMesh

open Fallible

/-! ## Views -/

/-- The run is one of the tenant. -/
def Db.ownsRun (db : Db) (tenantId runId : ℕ) : Bool :=
  db.workflowRuns.any fun r => r.id = runId ∧ r.tenantId = tenantId

/-- The task is one of the tenant. -/
def Db.ownsTask (db : Db) (tenantId taskId : ℕ) : Bool :=
  db.taskRuns.any fun t => t.id = taskId ∧ db.ownsRun tenantId t.workflowRunId = true

/-- The rows of a tenant, `runs` and `tasks` being its runs and tasks. -/
def Db.only (db : Db) (tenantId : ℕ) (runs tasks : ℕ → Bool) : Db where
  workflowDefinitions := db.workflowDefinitions.filter fun d => d.tenantId = tenantId
  workflowRuns := db.workflowRuns.filter fun r => r.tenantId = tenantId
  taskRuns := db.taskRuns.filter fun t => runs t.workflowRunId
  taskDependencies := db.taskDependencies.filter fun d => runs d.workflowRunId
  taskAttempts := db.taskAttempts.filter fun a => tasks a.taskRunId
  outboxEvents := db.outboxEvents.filter fun e => runs e.orderingKey
  artifacts := db.artifacts.filter fun a => a.tenantId = tenantId
  auditEvents := db.auditEvents.filter fun a => a.tenantId = tenantId

/-- The rows of the tenant. -/
def Db.view (tenantId : ℕ) (db : Db) : Db :=
  db.only tenantId (db.ownsRun tenantId) (db.ownsTask tenantId)

variable {env : Env} {op : Op} {db db' : Db} {A B : ℕ} {R T : ℕ → Bool}

theorem Db.ownsRun_iff {runId : ℕ} :
    db.ownsRun A runId = true ↔ ∃ r ∈ db.workflowRuns, r.id = runId ∧ r.tenantId = A := by
  simp [ownsRun]

theorem Db.ownsTask_iff {taskId : ℕ} :
    db.ownsTask A taskId = true ↔
      ∃ t ∈ db.taskRuns, t.id = taskId ∧ db.ownsRun A t.workflowRunId = true := by
  simp [ownsTask]

/-- A set of runs, and of their tasks, that has the runs of the tenant. -/
structure Closed (db : Db) (A : ℕ) (R T : ℕ → Bool) : Prop where
  run : ∀ r ∈ db.workflowRuns, R r.id = true ↔ r.tenantId = A
  task : ∀ t ∈ db.taskRuns, T t.id = R t.workflowRunId
  dependent : ∀ d ∈ db.taskDependencies, ∀ t ∈ db.taskRuns, t.id = d.taskRunId →
    R d.workflowRunId = R t.workflowRunId
  upstream : ∀ d ∈ db.taskDependencies, ∀ t ∈ db.taskRuns, t.id = d.dependsOnTaskRunId →
    R d.workflowRunId = R t.workflowRunId

theorem Db.WellFormed.closed (hw : db.WellFormed) (A : ℕ) :
    Closed db A (db.ownsRun A) (db.ownsTask A) where
  run r hr := by
    rw [Db.ownsRun_iff]
    constructor
    · rintro ⟨r', hr', hid, htenant⟩
      rwa [← Table.eq_of_key hw.runs hr' hr hid]
    · intro htenant
      exact ⟨r, hr, rfl, htenant⟩
  task t ht := by
    rw [Bool.eq_iff_iff, Db.ownsTask_iff]
    constructor
    · rintro ⟨t', ht', hid, hrun⟩
      rwa [← Table.eq_of_key hw.tasks ht' ht hid]
    · intro hrun
      exact ⟨t, ht, rfl, hrun⟩
  dependent d hd t ht hid := by
    obtain ⟨⟨t', ht', hid', hrun⟩, -⟩ := hw.edge d hd
    rw [← hrun, Table.eq_of_key hw.tasks ht' ht (hid'.trans hid.symm)]
  upstream d hd t ht hid := by
    obtain ⟨-, t', ht', hid', hrun⟩ := hw.edge d hd
    rw [← hrun, Table.eq_of_key hw.tasks ht' ht (hid'.trans hid.symm)]

/-! ## Reading -/

namespace Closed

/-- The join of tasks and runs. -/
theorem tasksWithRun (hc : Closed db A R T) :
    (db.only A R T).tasksWithRun = db.tasksWithRun.filter fun tr => R tr.1.workflowRunId := by
  refine Table.join_filter_of fun t _ ht r hr hid => ?_
  rw [← hid] at ht
  exact decide_eq_true ((hc.run r hr).1 ht)

/-- A search of the join for a task that is in. -/
theorem find?_tasksWithRun (hc : Closed db A R T) {p : TaskRun × Run → Bool}
    (hp : ∀ t ∈ db.taskRuns, ∀ r ∈ db.workflowRuns, r.id = t.workflowRunId → p (t, r) = true →
      R t.workflowRunId = true) :
    (db.only A R T).tasksWithRun.find? p = db.tasksWithRun.find? p := by
  rw [hc.tasksWithRun]
  refine Table.find?_filter_of fun tr htr hptr => ?_
  obtain ⟨t, r⟩ := tr
  obtain ⟨ht, hr, hid⟩ := Table.mem_join.1 htr
  exact hp t ht r hr hid hptr

/-- The upstreams of a task that is in. -/
theorem upstream_eq (hc : Closed db A R T) {g : TaskRun → TaskRun}
    (hg : ∀ t ∈ db.taskRuns, (g t).id = t.id ∧ (g t).workflowRunId = t.workflowRunId)
    {t : TaskRun} (ht : ∃ t₀ ∈ db.taskRuns, t₀.id = t.id ∧ R t₀.workflowRunId = true) :
    (db.only A R T).upstream ((db.taskRuns.map g).filter fun t => R t.workflowRunId) t =
      db.upstream (db.taskRuns.map g) t := by
  obtain ⟨t₀, ht₀, hid₀, hR⟩ := ht
  have hjoin : Table.join Dependency.dependsOnTaskRunId TaskRun.id
      (db.taskDependencies.filter fun d => R d.workflowRunId)
      ((db.taskRuns.map g).filter fun t => R t.workflowRunId) =
      (Table.join Dependency.dependsOnTaskRunId TaskRun.id db.taskDependencies
        (db.taskRuns.map g)).filter fun du => R du.1.workflowRunId := by
    refine Table.join_filter_of fun d hd hRd u' hu' hid => ?_
    obtain ⟨u, hu, rfl⟩ := List.mem_map.1 hu'
    obtain ⟨hgid, hgrun⟩ := hg u hu
    rwa [hgrun, ← hc.upstream d hd u hu (hgid.symm.trans hid)]
  simp only [Db.upstream, Db.only]
  rw [hjoin, Table.filter_filter_of]
  rintro ⟨d, u⟩ hdu hp
  obtain ⟨hd, -, -⟩ := Table.mem_join.1 hdu
  rwa [hc.dependent d hd t₀ ht₀ (hid₀.trans (of_decide_eq_true hp).symm)]

theorem hasUnfinishedUpstream_eq (hc : Closed db A R T) {g : TaskRun → TaskRun}
    (hg : ∀ t ∈ db.taskRuns, (g t).id = t.id ∧ (g t).workflowRunId = t.workflowRunId)
    {t : TaskRun} (ht : ∃ t₀ ∈ db.taskRuns, t₀.id = t.id ∧ R t₀.workflowRunId = true) :
    (db.only A R T).hasUnfinishedUpstream ((db.taskRuns.map g).filter fun t => R t.workflowRunId)
      t = db.hasUnfinishedUpstream (db.taskRuns.map g) t := by
  rw [Db.hasUnfinishedUpstream, hc.upstream_eq hg ht, Db.hasUnfinishedUpstream]

end Closed

/-- The rows that are in, table by table. -/
theorem eq_only {d d' : Db}
    (hdefs : d.workflowDefinitions = d'.workflowDefinitions.filter fun d => d.tenantId = A)
    (hruns : d.workflowRuns = d'.workflowRuns.filter fun r => r.tenantId = A)
    (htasks : d.taskRuns = d'.taskRuns.filter fun t => R t.workflowRunId)
    (hdeps : d.taskDependencies = d'.taskDependencies.filter fun d => R d.workflowRunId)
    (hattempts : d.taskAttempts = d'.taskAttempts.filter fun a => T a.taskRunId)
    (hevents : d.outboxEvents = d'.outboxEvents.filter fun e => R e.orderingKey)
    (hartifacts : d.artifacts = d'.artifacts.filter fun a => a.tenantId = A)
    (haudits : d.auditEvents = d'.auditEvents.filter fun a => a.tenantId = A) :
    d = d'.only A R T := by
  cases d
  simp only [Db.only, Db.mk.injEq]
  exact ⟨hdefs, hruns, htasks, hdeps, hattempts, hevents, hartifacts, haudits⟩

/-- An update of rows that leaves the column of `q` alone. -/
theorem update_filter {α : Type*} {q p : α → Bool} {f : α → α} {t : List α}
    (hf : ∀ r, q (f r) = q r) : Table.update p f (t.filter q) = (Table.update p f t).filter q :=
  (Table.filter_update hf t).symm

/-- An update of all rows that leaves the column of `q` alone. -/
theorem map_filter_eq {α : Type*} {q : α → Bool} {f : α → α} {t : List α}
    (hf : ∀ r ∈ t, q (f r) = q r) : (t.filter q).map f = (t.map f).filter q := by
  rw [List.filter_map]
  exact congrArg _ (List.filter_congr fun r hr => (hf r hr).symm)

/-! ## The worker protocol -/

section Worker

variable {id : ℕ} {w : String}

theorem leaseTask_only (hc : Closed db A R T)
    (hown : ∀ t ∈ db.taskRuns, t.id = id → R t.workflowRunId = true) (d : ℤ) :
    leaseTask env id w d (db.only A R T) =
      (leaseTask env id w d db).map fun r => (r.1, r.2.only A R T) := by
  have hrows : Table.returning (fun t => decide (t.id = id ∧ t.status = .dispatching))
      (lease env w d) (db.only A R T).taskRuns = Table.returning
        (fun t => decide (t.id = id ∧ t.status = .dispatching)) (lease env w d) db.taskRuns :=
    Table.returning_filter_of (fun t ht hp => hown t ht (of_decide_eq_true hp).1) _
  simp only [leaseTask, hrows]
  refine bind_eq_map_bind fun t' ht' => ?_
  obtain ⟨t, ht, hp, rfl⟩ := Table.head?_returning (orError_eq_ok.1 ht')
  have hR : R t.workflowRunId = true := hown t ht (of_decide_eq_true hp).1
  have hrun : (db.only A R T).workflowRuns.find?
      (fun r => r.id = (lease env w d t).workflowRunId) = db.workflowRuns.find?
        (fun r => r.id = (lease env w d t).workflowRunId) := by
    refine Table.find?_filter_of fun r hr hid => decide_eq_true ((hc.run r hr).1 ?_)
    rwa [of_decide_eq_true hid]
  rw [hrun]
  refine bind_eq_map_bind fun r hr => ?_
  have hattempts : ((db.only A R T).taskAttempts.all fun a =>
      ¬(a.taskRunId = (lease env w d t).id ∧ a.attemptNumber = (lease env w d t).attemptCount)) =
      db.taskAttempts.all fun a =>
        ¬(a.taskRunId = (lease env w d t).id ∧
          a.attemptNumber = (lease env w d t).attemptCount) := by
    refine Table.all_filter_of fun a _ hp => ?_
    simp only [decide_eq_false_iff_not, not_not] at hp
    rw [hp.1]
    exact (hc.task t ht).trans hR
  rw [hattempts]
  refine bind_eq_map_bind fun _ _ => ?_
  have hT : T t.id = true := (hc.task t ht).trans hR
  refine congrArg (fun d => Except.ok (_, d)) (eq_only rfl rfl ?_ rfl ?_ ?_ rfl rfl)
  · exact update_filter fun _ => rfl
  · simp [Db.only, newAttempt, lease, hT]
  · simp [Db.only, leasedEvent, newEvent, OutboxEvent.orderingKey, lease, hR]

theorem heldBy_id {t : TaskRun} (h : heldBy env id w t = true) : t.id = id :=
  (heldBy_iff.1 h).1

theorem startTask_only (hc : Closed db A R T)
    (hown : ∀ t ∈ db.taskRuns, t.id = id → R t.workflowRunId = true) :
    startTask env id w (db.only A R T) =
      (startTask env id w db).map fun r => (r.1, r.2.only A R T) := by
  have hleased : ∀ t ∈ db.taskRuns, (heldBy env id w t && decide (t.status = .leased)) = true →
      R t.workflowRunId = true := fun t ht hp =>
    hown t ht (heldBy_id (Bool.and_eq_true_iff.1 hp).1)
  simp only [startTask]
  rw [hc.find?_tasksWithRun fun t ht r _ _ hp => hleased t ht hp]
  refine bind_eq_map_bind fun tr _ => bind_eq_map_bind fun _ _ => ?_
  simp only [Db.only, Table.returning_filter_of hleased]
  refine bind_eq_map_bind fun t' _ => ?_
  refine congrArg (fun d => Except.ok (_, d)) (eq_only rfl rfl ?_ rfl ?_ rfl rfl rfl)
  · exact update_filter fun _ => rfl
  · exact update_filter fun _ => rfl

theorem heartbeatTask_only (hc : Closed db A R T)
    (hown : ∀ t ∈ db.taskRuns, t.id = id → R t.workflowRunId = true) (d : ℤ) :
    heartbeatTask env id w d (db.only A R T) =
      (heartbeatTask env id w d db).map fun r => (r.1, r.2.only A R T) := by
  have hheld : ∀ t ∈ db.taskRuns, (heldBy env id w t && t.status.active) = true →
      R t.workflowRunId = true := fun t ht hp =>
    hown t ht (heldBy_id (Bool.and_eq_true_iff.1 hp).1)
  have hjoin : Table.join TaskRun.workflowRunId Run.id (Table.returning
      (fun t => heldBy env id w t && t.status.active)
      (fun t => { t with leaseExpiresAt := some (env.now + d), updatedAt := env.now })
      (db.only A R T).taskRuns) (db.only A R T).workflowRuns =
      Table.join TaskRun.workflowRunId Run.id (Table.returning
        (fun t => heldBy env id w t && t.status.active)
        (fun t => { t with leaseExpiresAt := some (env.now + d), updatedAt := env.now })
        db.taskRuns) db.workflowRuns := by
    simp only [Db.only, Table.returning_filter_of hheld]
    refine List.flatMap_congr fun t' ht' => ?_
    obtain ⟨t, ht, rfl⟩ := List.mem_map.1 ht'
    obtain ⟨ht, hp⟩ := List.mem_filter.1 ht
    rw [Table.filter_filter_of fun r hr hid => decide_eq_true ((hc.run r hr).1 ?_)]
    rw [of_decide_eq_true hid]
    exact hheld t ht hp
  simp only [heartbeatTask, hjoin]
  refine bind_eq_map_bind fun tr _ => ?_
  refine congrArg (fun d => Except.ok (_, d)) (eq_only rfl rfl ?_ rfl rfl rfl rfl rfl)
  exact update_filter fun _ => rfl

theorem failTask_only (hc : Closed db A R T)
    (hown : ∀ t ∈ db.taskRuns, t.id = id → R t.workflowRunId = true) (f : Failure) :
    failTask env id w f (db.only A R T) =
      (failTask env id w f db).map fun r => (r.1, r.2.only A R T) := by
  have hheld : ∀ t ∈ db.taskRuns, (heldBy env id w t && t.status.active) = true →
      R t.workflowRunId = true := fun t ht hp =>
    hown t ht (heldBy_id (Bool.and_eq_true_iff.1 hp).1)
  have howned : ∀ t ∈ db.taskRuns, decide (t.id = id ∧ t.leaseOwner = some w) = true →
      R t.workflowRunId = true := fun t ht hp => hown t ht (of_decide_eq_true hp).1
  simp only [failTask]
  rw [hc.find?_tasksWithRun fun t ht r _ _ hp => hheld t ht hp]
  refine bind_eq_map_bind fun tr htr => ?_
  obtain ⟨t, r⟩ := tr
  obtain ⟨ht, hr, -, hp⟩ := Table.find?_join (orError_eq_ok.1 htr)
  have hR := hheld t ht hp
  dsimp only
  generalize failureStatus r.status f.retryable t.attemptCount t.maximumAttempts = st
  have hrows : Table.returning (fun t => decide (t.id = id ∧ t.leaseOwner = some w))
      (endLease env st (failureAvailable env st t.attemptCount)) (db.only A R T).taskRuns =
      Table.returning (fun t => decide (t.id = id ∧ t.leaseOwner = some w))
        (endLease env st (failureAvailable env st t.attemptCount)) db.taskRuns :=
    Table.returning_filter_of howned _
  rw [hrows]
  refine bind_eq_map_bind fun t' _ => ?_
  refine congrArg (fun d => Except.ok (_, d)) (eq_only rfl ?_ ?_ rfl ?_ ?_ rfl rfl)
  · dsimp only
    split_ifs
    · exact map_filter_eq fun r _ => by unfold failRun; split_ifs <;> rfl
    · rfl
  · dsimp only
    have hupdate : Table.update (fun t => decide (t.id = id ∧ t.leaseOwner = some w))
        (endLease env st (failureAvailable env st t.attemptCount)) (db.only A R T).taskRuns =
        (Table.update (fun t => decide (t.id = id ∧ t.leaseOwner = some w))
          (endLease env st (failureAvailable env st t.attemptCount)) db.taskRuns).filter
            fun t => R t.workflowRunId := update_filter fun _ => rfl
    rw [hupdate]
    split_ifs
    · exact map_filter_eq fun t _ => by unfold cancelWaiting; split_ifs <;> rfl
    · rfl
  · exact update_filter fun _ => rfl
  · simp [Db.only, failedEvent, newEvent, OutboxEvent.orderingKey, hR]

/-- The wakeable tasks among those that are in. -/
theorem wakeable_only (hc : Closed db A R T) {g : TaskRun → TaskRun}
    (hg : ∀ t ∈ db.taskRuns, (g t).id = t.id ∧ (g t).workflowRunId = t.workflowRunId)
    {runId taskId : ℕ} {child : TaskRun}
    (hchild : ∃ t₀ ∈ db.taskRuns, t₀.id = child.id ∧ R t₀.workflowRunId = true) :
    wakeable (db.only A R T) ((db.taskRuns.map g).filter fun t => R t.workflowRunId) runId taskId
      child = wakeable db (db.taskRuns.map g) runId taskId child := by
  have hdeps : ((db.only A R T).taskDependencies.any fun d =>
      d.taskRunId = child.id && d.dependsOnTaskRunId = taskId) = db.taskDependencies.any fun d =>
        d.taskRunId = child.id && d.dependsOnTaskRunId = taskId := by
    obtain ⟨t₀, ht₀, hid, hR⟩ := hchild
    refine Table.any_filter_of fun d hd hp => ?_
    simp only [Bool.and_eq_true, decide_eq_true_eq] at hp
    rwa [hc.dependent d hd t₀ ht₀ (hid.trans hp.1.symm)]
  rw [wakeable, wakeable, hdeps, hc.hasUnfinishedUpstream_eq hg hchild]

/-- Whether a task that is in wakes does not depend on the others. -/
theorem Closed.wakeable_eq (hc : Closed db A R T) {g : TaskRun → TaskRun}
    (hg : ∀ t ∈ db.taskRuns, (g t).id = t.id ∧ (g t).workflowRunId = t.workflowRunId)
    {runId taskId : ℕ} : ∀ child ∈ (db.taskRuns.map g).filter fun t => R t.workflowRunId,
      wakeable (db.only A R T) ((db.taskRuns.map g).filter fun t => R t.workflowRunId) runId taskId
        child = wakeable db (db.taskRuns.map g) runId taskId child := by
  intro child hchild
  obtain ⟨hchild, hR⟩ := List.mem_filter.1 hchild
  obtain ⟨t, ht, rfl⟩ := List.mem_map.1 hchild
  obtain ⟨hid, hrun⟩ := hg t ht
  exact wakeable_only hc hg ⟨t, ht, hid.symm, by rwa [hrun] at hR⟩

/-- The tasks a completion wakes are in, and are the same. -/
theorem filter_wakeable_only (hc : Closed db A R T) {g : TaskRun → TaskRun}
    (hg : ∀ t ∈ db.taskRuns, (g t).id = t.id ∧ (g t).workflowRunId = t.workflowRunId)
    {runId taskId : ℕ} (hR : R runId = true) :
    ((db.taskRuns.map g).filter fun t => R t.workflowRunId).filter
        (wakeable (db.only A R T) ((db.taskRuns.map g).filter fun t => R t.workflowRunId) runId
          taskId) =
      (db.taskRuns.map g).filter (wakeable db (db.taskRuns.map g) runId taskId) := by
  rw [List.filter_congr (hc.wakeable_eq hg)]
  refine Table.filter_filter_of fun child _ hw => ?_
  simp only [wakeable, Bool.and_eq_true, decide_eq_true_eq] at hw
  rwa [hw.1.1.1]

/-- Waking the tasks that are in is waking the tasks. -/
theorem update_wakeable_only (hc : Closed db A R T) {g : TaskRun → TaskRun}
    (hg : ∀ t ∈ db.taskRuns, (g t).id = t.id ∧ (g t).workflowRunId = t.workflowRunId)
    {runId taskId : ℕ} :
    Table.update (wakeable (db.only A R T)
        ((db.taskRuns.map g).filter fun t => R t.workflowRunId) runId taskId) (wake env)
        ((db.taskRuns.map g).filter fun t => R t.workflowRunId) =
      (Table.update (wakeable db (db.taskRuns.map g) runId taskId) (wake env)
        (db.taskRuns.map g)).filter fun t => R t.workflowRunId := by
  refine Eq.trans ?_ (update_filter (f := wake env) fun _ => rfl)
  exact List.map_congr_left fun child hchild => by rw [hc.wakeable_eq hg child hchild]

theorem completeTask_only (hc : Closed db A R T)
    (hown : ∀ t ∈ db.taskRuns, t.id = id → R t.workflowRunId = true) (o a : String)
    (logs : List String) :
    completeTask env id w o a logs (db.only A R T) =
      (completeTask env id w o a logs db).map fun r => (r.1, r.2.only A R T) := by
  have hrunning : ∀ t ∈ db.taskRuns, (heldBy env id w t && decide (t.status = .running)) = true →
      R t.workflowRunId = true := fun t ht hp =>
    hown t ht (heldBy_id (Bool.and_eq_true_iff.1 hp).1)
  simp only [completeTask]
  rw [hc.find?_tasksWithRun fun t ht r _ _ hp => hrunning t ht hp]
  refine bind_eq_map_bind fun tr _ => bind_eq_map_bind fun _ _ => ?_
  generalize (if o = "" then "\x7b\x7d" else o) = o'
  have hrows : Table.returning (fun t => heldBy env id w t && decide (t.status = .running))
      (succeed env o' a) (db.only A R T).taskRuns = Table.returning
        (fun t => heldBy env id w t && decide (t.status = .running)) (succeed env o' a)
        db.taskRuns := Table.returning_filter_of hrunning _
  rw [hrows]
  refine bind_eq_map_bind fun t' ht' => ?_
  obtain ⟨t, ht, hp, rfl⟩ := Table.head?_returning (orError_eq_ok.1 ht')
  have hR := hrunning t ht hp
  -- the task rows after the completion, and those of them that are in
  set g : TaskRun → TaskRun := fun t =>
    if heldBy env id w t && decide (t.status = .running) then succeed env o' a t else t with hgdef
  have hg : ∀ t ∈ db.taskRuns, (g t).id = t.id ∧ (g t).workflowRunId = t.workflowRunId := by
    intro t _
    simp only [hgdef]
    split_ifs <;> exact ⟨rfl, rfl⟩
  have htasks : Table.update (fun t => heldBy env id w t && decide (t.status = .running))
      (succeed env o' a) (db.only A R T).taskRuns =
      (db.taskRuns.map g).filter fun t => R t.workflowRunId := update_filter fun _ => rfl
  have hremaining : ((Table.update (wakeable db (db.taskRuns.map g) t.workflowRunId t.id)
      (wake env) (db.taskRuns.map g)).filter fun t => R t.workflowRunId).countP
        (fun u => u.workflowRunId = t.workflowRunId ∧ u.status ≠ .succeeded) =
      (Table.update (wakeable db (db.taskRuns.map g) t.workflowRunId t.id) (wake env)
        (db.taskRuns.map g)).countP
          (fun u => u.workflowRunId = t.workflowRunId ∧ u.status ≠ .succeeded) := by
    refine Table.countP_filter_of fun u _ hp => ?_
    rwa [(of_decide_eq_true hp).1]
  have hupdate : Table.update (fun t => heldBy env id w t && decide (t.status = .running))
      (succeed env o' a) db.taskRuns = db.taskRuns.map g := rfl
  simp only [htasks, hupdate, show (succeed env o' a t).id = t.id from rfl,
    show (succeed env o' a t).workflowRunId = t.workflowRunId from rfl,
    filter_wakeable_only hc hg hR, update_wakeable_only hc hg, hremaining]
  refine congrArg (fun d => Except.ok (_, d)) (eq_only rfl ?_ rfl rfl ?_ ?_ rfl rfl)
  · dsimp only
    split_ifs
    · exact map_filter_eq fun r _ => by unfold completeRun; split_ifs <;> rfl
    · rfl
  · exact update_filter fun _ => rfl
  · have hevents : ∀ children : List TaskRun, ∀ e ∈ readyEvents env t.workflowRunId children ++
        [succeededEvent env children.length (succeed env o' a t)], R e.orderingKey = true := by
      intro children e he
      rcases List.mem_append.1 he with he | he
      · obtain ⟨c, -, rfl⟩ := List.mem_map.1 he
        exact hR
      · rw [List.mem_singleton.1 he]
        exact hR
    dsimp only
    rw [List.filter_append, List.filter_eq_self.2 (hevents _)]
    rfl

end Worker

/-! ## Operators -/

section Operators

variable {id : ℕ} {user : Option ℕ}

theorem filter_audit (hA : B = A) (es : List AuditEvent) (action resourceType : String) :
    (es ++ [newAuditEvent env B user action resourceType id]).filter (fun a => a.tenantId = A) =
      es.filter (fun a => a.tenantId = A) ++ [newAuditEvent env B user action resourceType id] := by
  simp [newAuditEvent, hA]

theorem cancelRun_only :
    cancelRun env A user id (db.only A R T) =
      (cancelRun env A user id db).map fun d => d.only A R T := by
  have hopen : ((db.only A R T).workflowRuns.any fun r =>
      decide (r.id = id ∧ r.tenantId = A ∧ r.status.open = true)) = db.workflowRuns.any fun r =>
        decide (r.id = id ∧ r.tenantId = A ∧ r.status.open = true) :=
    Table.any_filter_of fun r _ hp => decide_eq_true (of_decide_eq_true hp).2.1
  have hany : ((db.only A R T).workflowRuns.any fun r => decide (r.id = id ∧ r.tenantId = A)) =
      db.workflowRuns.any fun r => decide (r.id = id ∧ r.tenantId = A) :=
    Table.any_filter_of fun r _ hp => decide_eq_true (of_decide_eq_true hp).2
  simp only [cancelRun, hopen, hany]
  split_ifs
  · refine congrArg Except.ok (eq_only rfl ?_ ?_ rfl rfl rfl rfl ?_)
    · exact update_filter fun _ => rfl
    · exact map_filter_eq fun t _ => by unfold cancelWaiting; split_ifs <;> rfl
    · exact (filter_audit rfl _ _ _).symm
  · rfl
  · rfl

theorem retryRun_only (hc : Closed db A R T) :
    retryRun env A user id (db.only A R T) =
      (retryRun env A user id db).map fun d => d.only A R T := by
  have hany : ((db.only A R T).workflowRuns.any fun r => decide (r.id = id ∧ r.tenantId = A)) =
      db.workflowRuns.any fun r => decide (r.id = id ∧ r.tenantId = A) :=
    Table.any_filter_of fun r _ hp => decide_eq_true (of_decide_eq_true hp).2
  simp only [retryRun, hany]
  refine bind_eq_map_bind fun _ hfound => ?_
  obtain ⟨r, hr, hp⟩ := List.any_eq_true.1 (require_eq_ok.1 hfound)
  obtain ⟨rfl, htenant⟩ := of_decide_eq_true hp
  have hR : R r.id = true := (hc.run r hr).2 htenant
  have hdead : ((db.only A R T).taskRuns.any fun t =>
      decide (t.workflowRunId = r.id ∧ t.status = .dead)) = db.taskRuns.any fun t =>
        decide (t.workflowRunId = r.id ∧ t.status = .dead) :=
    Table.any_filter_of fun t _ hp => by rwa [(of_decide_eq_true hp).1]
  rw [hdead]
  refine bind_eq_map_bind fun _ _ => ?_
  refine congrArg Except.ok (eq_only rfl ?_ ?_ rfl rfl rfl rfl ?_)
  · exact update_filter fun _ => rfl
  · exact update_filter fun _ => rfl
  · exact (filter_audit rfl _ _ _).symm

theorem replayDead_only (hc : Closed db A R T) :
    replayDead env A user id (db.only A R T) =
      (replayDead env A user id db).map fun d => d.only A R T := by
  simp only [replayDead]
  rw [hc.find?_tasksWithRun fun t ht r hr hid hp => by
    rw [← hid]
    exact (hc.run r hr).2 (of_decide_eq_true hp).2.1]
  refine bind_eq_map_bind fun tr htr => ?_
  obtain ⟨t, r⟩ := tr
  obtain ⟨ht, hr, hrid, hp⟩ := Table.find?_join (orError_eq_ok.1 htr)
  have hR : R t.workflowRunId = true := by
    rw [← hrid]
    exact (hc.run r hr).2 (of_decide_eq_true hp).2.1
  set g : TaskRun → TaskRun := fun t => if decide (t.id = id) then revive env t else t with hgdef
  have hg : ∀ t ∈ db.taskRuns, (g t).id = t.id ∧ (g t).workflowRunId = t.workflowRunId := by
    intro t _
    simp only [hgdef]
    split_ifs <;> exact ⟨rfl, rfl⟩
  have htasks : Table.update (fun t => decide (t.id = id)) (revive env)
      (db.only A R T).taskRuns = (db.taskRuns.map g).filter fun t => R t.workflowRunId :=
    update_filter fun _ => rfl
  have hrebuild : ∀ s ∈ (db.taskRuns.map g).filter fun t => R t.workflowRunId,
      rebuild env (db.only A R T) ((db.taskRuns.map g).filter fun t => R t.workflowRunId) s =
        rebuild env db (db.taskRuns.map g) s := by
    intro s hs
    obtain ⟨hs, hRs⟩ := List.mem_filter.1 hs
    obtain ⟨t₀, ht₀, rfl⟩ := List.mem_map.1 hs
    obtain ⟨hid, hrun⟩ := hg t₀ ht₀
    rw [rebuild, hc.hasUnfinishedUpstream_eq hg ⟨t₀, ht₀, hid.symm, by rwa [hrun] at hRs⟩]
    rfl
  simp only [htasks]
  refine congrArg Except.ok (eq_only rfl ?_ ?_ rfl rfl ?_ rfl ?_)
  · exact map_filter_eq fun r _ => by unfold reopenRun; split_ifs <;> rfl
  · refine Eq.trans ?_ (update_filter (f := rebuild env db (db.taskRuns.map g)) fun _ => rfl)
    exact List.map_congr_left fun s hs => by rw [hrebuild s hs]
  · simp [Db.only, replayedEvent, newEvent, OutboxEvent.orderingKey, hR]
  · exact (filter_audit rfl _ _ _).symm

theorem createWorkflow_only {name : String} {dag : DAG} :
    createWorkflow env A user name dag (db.only A R T) =
      (createWorkflow env A user name dag db).map fun r => (r.1, r.2.only A R T) := by
  simp only [createWorkflow]
  refine bind_eq_map_bind fun _ _ => bind_eq_map_bind fun _ _ => ?_
  generalize (if name = "" then dag.name else name) = name
  have hnamed : ((db.only A R T).workflowDefinitions.all fun d =>
      ¬(d.tenantId = A ∧ d.name = name ∧ d.version = 1)) = db.workflowDefinitions.all fun d =>
        ¬(d.tenantId = A ∧ d.name = name ∧ d.version = 1) := by
    refine Table.all_filter_of fun d _ hp => ?_
    simp only [decide_eq_false_iff_not, not_not] at hp
    exact decide_eq_true hp.1
  rw [hnamed]
  refine bind_eq_map_bind fun _ _ => ?_
  refine congrArg (fun d => Except.ok (_, d)) (eq_only ?_ rfl rfl rfl rfl rfl rfl ?_)
  · simp [Db.only]
  · exact (filter_audit rfl _ _ _).symm

theorem createVersion_only {definitionId : ℕ} {dag : DAG} :
    createVersion env A user definitionId dag (db.only A R T) =
      (createVersion env A user definitionId dag db).map fun r => (r.1, r.2.only A R T) := by
  have hfind : (db.only A R T).workflowDefinitions.find?
      (fun d => d.id = definitionId ∧ d.tenantId = A) = db.workflowDefinitions.find?
        (fun d => d.id = definitionId ∧ d.tenantId = A) :=
    Table.find?_filter_of fun d _ hp => decide_eq_true (of_decide_eq_true hp).2
  simp only [createVersion, hfind]
  refine bind_eq_map_bind fun _ _ => bind_eq_map_bind fun named _ => ?_
  have hversions : (db.only A R T).workflowDefinitions.filter
      (fun d => d.tenantId = A ∧ d.name = named.name) = db.workflowDefinitions.filter
        (fun d => d.tenantId = A ∧ d.name = named.name) :=
    Table.filter_filter_of fun d _ hp => decide_eq_true (of_decide_eq_true hp).1
  rw [hversions]
  exact bind_eq_map_bind fun version _ => bind_eq_map_bind fun _ _ => rfl

end Operators

end RunMesh
