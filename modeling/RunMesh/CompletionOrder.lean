import RunMesh.Bookkeeping
import RunMesh.Creation
import RunMesh.Success
import RunMesh.TopologicalOrder

/-!
# The orders in which tasks complete

An execution creates a run and takes it forward : the phases of the scheduler's tick and the
calls of workers that lease, start and complete, with no failure, no cancellation, and no
lease expired at any call (`Execution`). The tasks of the run are the keys of its definition
and their upstreams are the dependencies, all through the execution (`Hosts`), and a task has
succeeded exactly if it has completed (`Tracks`). A completion finds its task running, so all
its dependencies have completed : the completions are a legal order of the definition. And
whatever key could come next in a legal order, its task is ready or already on its way, so
the execution can be extended to complete it next (`Tracks.finishes`).
-/

namespace RunMesh

open TopologicalOrder

variable {env : Env} {op : Op} {db db' : Db} {dag : DAG} {s : State} {c : Call}

/-! ## Executions -/

/-- The phases of a tick, and the calls of a worker that succeeds. -/
def Op.forward : Op → Bool
  | .promoteRetries | .recoverExpired _ | .dispatchReady _ => true
  | .leaseTask .. | .startTask .. | .completeTask .. => true
  | _ => false

/-- No lease has expired. -/
def Db.Unexpired (db : Db) (now : ℤ) : Prop :=
  ∀ t ∈ db.taskRuns, t.status.active = true → ∃ x, t.leaseExpiresAt = some x ∧ now < x

/-- A call without failure, expiry or cancellation. -/
structure Forward (s : State) (c : Call) : Prop where
  op : c.op.forward = true
  before : s.db.Unexpired c.env.now
  after : (controlPlane.next s c).db.Unexpired c.env.now

/-- The key of the task the call completes, if it completes one. -/
def completed (s : State) (c : Call) : List String :=
  match c.op, c.exec s.db with
  | .completeTask .., .ok (.task t, _) => [t.taskKey]
  | _, _ => []

/-- The keys of the tasks the calls complete, in order. -/
def completions : State → List Call → List String
  | _, [] => []
  | s, c :: cs => completed s c ++ completions (controlPlane.next s c) cs

/-- A run of `d` is created in `s₀` and taken forward. -/
structure Execution (s₀ : State) (d : Definition) where
  create : Call
  calls : List Call
  isCreate : ∃ userId key input artifactId,
    create.op = .createRun d.tenantId userId d.id key input artifactId
  created : ∃ r db', create.exec s₀.db = .ok (.run r true, db')
  allowed : controlPlane.allowed s₀ create
  valid : controlPlane.Valid (controlPlane.next s₀ create) calls
  forward : controlPlane.Along Forward (controlPlane.next s₀ create) calls

/-- Whole ticks, and calls of workers. -/
inductive Ticks : List Op → Prop
  | nil : Ticks []
  | tick {ops : List Op} (scan scan' : Scan) (h : Ticks ops) :
      Ticks (.promoteRetries :: .recoverExpired scan :: .dispatchReady scan' :: ops)
  | lease {ops : List Op} (id : ℕ) (w : String) (d : ℤ) (h : Ticks ops) :
      Ticks (.leaseTask id w d :: ops)
  | start {ops : List Op} (id : ℕ) (w : String) (h : Ticks ops) : Ticks (.startTask id w :: ops)
  | complete {ops : List Op} (id : ℕ) (w o a : String) (logs : List String) (h : Ticks ops) :
      Ticks (.completeTask id w o a logs :: ops)

theorem Ticks.append {ops ops' : List Op} (h : Ticks ops) (h' : Ticks ops') :
    Ticks (ops ++ ops') := by
  induction h with
  | nil => exact h'
  | tick scan scan' _ ih => exact .tick scan scan' ih
  | lease id w d _ ih => exact .lease id w d ih
  | start id w _ ih => exact .start id w ih
  | complete id w o a logs _ ih => exact .complete id w o a logs ih

namespace Execution

variable {s₀ : State} {d : Definition}

/-- The state after the run was created. -/
def start (e : Execution s₀ d) : State :=
  controlPlane.next s₀ e.create

/-- The state the execution leads to. -/
def final (e : Execution s₀ d) : State :=
  controlPlane.run e.start e.calls

/-- The keys of its tasks, in the order in which they complete. -/
def completions (e : Execution s₀ d) : List String :=
  RunMesh.completions e.start e.calls

/-- `e'` goes on from `e` with whole ticks and calls of workers. -/
def Extends (e e' : Execution s₀ d) : Prop :=
  e'.create = e.create ∧ ∃ cs, Ticks (cs.map Call.op) ∧ e'.calls = e.calls ++ cs

end Execution

/-- The beginning of a linear extension of `depends_on`. -/
def DAG.Topological (dag : DAG) (l : List String) : Prop :=
  ∃ l', LinearExtension dag.DependsOn dag.keys l' ∧ l <+: l'

theorem completions_append (cs cs' : List Call) : ∀ s : State,
    completions s (cs ++ cs') = completions s cs ++ completions (controlPlane.run s cs) cs' := by
  induction cs with
  | nil => intro s; rfl
  | cons c cs ih =>
    intro s
    simp only [List.cons_append, completions, ih, List.append_assoc, Machine.run_cons]

/-- What completes a task. -/
theorem completed_cases (hk : s.db.Keyed) : completed s c = [] ∨
    ∃ t r w o a logs t' db', c.op = .completeTask t.id w o a logs ∧ Holds c.env s.db w t r ∧
      t.status = .running ∧ r.status = .running ∧
      completeTask c.env t.id w o a logs s.db = .ok (t', db') ∧ completed s c = [t.taskKey] := by
  unfold completed
  split
  · rename_i op x id w o a logs t' db' hop hexec
    rw [Call.exec, hop] at hexec
    simp only [Op.exec, Fallible.map_eq_ok, Prod.mk.injEq, Reply.task.injEq] at hexec
    obtain ⟨⟨t₁, db₁⟩, hok, rfl, rfl⟩ := hexec
    have hdone := hok
    obtain ⟨t, r, hheld, rfl, hst, hrun, o', rfl, -⟩ := completeTask_ok hk hok
    exact Or.inr ⟨t, r, w, o, a, logs, _, _, hop, hheld, hst, hrun, hdone, rfl⟩
  · exact Or.inl rfl

/-! ## What holds along an execution -/

/-- The tasks are those of the definition, all of one run. -/
structure Hosts (dag : DAG) (db : Db) : Prop where
  mem : ∀ t ∈ db.taskRuns, t.taskKey ∈ dag.keys
  unique : ∀ t ∈ db.taskRuns, ∀ u ∈ db.taskRuns, t.taskKey = u.taskKey → t = u
  exists_task : ∀ key ∈ dag.keys, ∃ t ∈ db.taskRuns, t.taskKey = key
  upstream : ∀ t ∈ db.taskRuns, ∀ dep, dag.DependsOn dep t.taskKey ↔
    ∃ u ∈ db.upstream db.taskRuns t, u.taskKey = dep
  run : ∃ r, db.workflowRuns = [r]

/-- The statuses of a task that has not failed and was not cancelled. -/
def TaskStatus.onTrack : TaskStatus → Bool
  | .blocked | .ready | .dispatching | .leased | .running | .succeeded => true
  | _ => false

/-- `done` have completed, and nothing has gone wrong. -/
structure Tracks (dag : DAG) (s : State) (done : List String) : Prop where
  hosts : Hosts dag s.db
  succeeded : ∀ t ∈ s.db.taskRuns, t.status = .succeeded ↔ t.taskKey ∈ done
  onTrack : ∀ t ∈ s.db.taskRuns, t.status.onTrack = true
  available : ∀ t ∈ s.db.taskRuns, t.status = .ready → t.availableAt ≤ s.clock
  unexpired : s.db.Unexpired s.clock
  run : ∀ r ∈ s.db.workflowRuns, r.status = .running ∨ r.status = .succeeded
  legal : Legal dag.DependsOn dag.keys done

/-- Moves keep the tasks and their upstreams. -/
theorem Hosts.moves (h : Hosts dag db) (hm : Moves env op db db') (hk : db.Keyed) :
    Hosts dag db' where
  mem t' ht' := by
    obtain ⟨t, ht, hmove⟩ := hm.of_mem_task ht'
    rw [hmove.taskKey]
    exact h.mem t ht
  unique t' ht' u' hu' hkey := by
    obtain ⟨t, ht, htm⟩ := hm.of_mem_task ht'
    obtain ⟨u, hu, hum⟩ := hm.of_mem_task hu'
    rw [htm.taskKey, hum.taskKey] at hkey
    have hid : t'.id = u'.id := by rw [htm.id, hum.id, h.unique t ht u hu hkey]
    exact Table.eq_of_key (hm.keyed hk).tasks ht' hu' hid
  exists_task key hkey := by
    obtain ⟨t, ht, rfl⟩ := h.exists_task key hkey
    obtain ⟨t', ht', hmove⟩ := hm.mem_task ht
    exact ⟨t', ht', hmove.taskKey⟩
  upstream t' ht' dep := by
    obtain ⟨t, ht, hmove⟩ := hm.of_mem_task ht'
    rw [hmove.taskKey, h.upstream t ht dep]
    refine (hm.exists_upstream_iff hmove.id fun u u' hu => ?_).symm
    rw [hu.taskKey]
  run := by
    obtain ⟨r, hr⟩ := h.run
    obtain ⟨f, hf, -⟩ := hm.runs
    exact ⟨f r, by rw [hf, hr, List.map_singleton]⟩

/-- A forward operation moves the tasks there are. -/
theorem moves_of_forward (hop : op.forward = true) (hk : db.Keyed) {reply : Reply}
    (hok : op.exec env db = .ok (reply, db')) : Moves env op db db' := by
  rcases exec_moves hk hok with hm | ⟨run, dag, hcr⟩
  · exact hm
  · obtain ⟨_, _, _, _, _, _, rfl⟩ := hcr.isCreate
    cases hop

theorem Db.Unexpired.notMem_expiredLeases (h : db.Unexpired env.now) {scan : Scan} {t : TaskRun}
    {r : Run} : (t, r) ∉ expiredLeases env scan db := by
  intro he
  obtain ⟨hmem, -, -, hact, x, hx, hle⟩ := mem_expiredLeases he
  obtain ⟨y, hy, hlt⟩ := h t hmem hact
  rw [hx, Option.some.injEq] at hy
  omega

/-- A forward call keeps tasks on track. -/
theorem TaskMove.onTrack {t t' : TaskRun} (h : TaskMove env db op t t')
    (hop : op.forward = true) (hun : db.Unexpired env.now) (ht : t.status.onTrack = true) :
    t'.status.onTrack = true := by
  cases h with
  | keep => exact ht
  | promote hst => rw [hst] at ht; cases ht
  | expire he => exact (hun.notMem_expiredLeases he).elim
  | dispatch | lease | start | succeed | wake => rfl
  | _ => cases hop

/-- A forward call leaves the run running, or completes it. -/
theorem RunMove.onTrack {r r' : Run} (h : RunMove env db op r r') (hop : op.forward = true)
    (hun : db.Unexpired env.now) (hr : r.status = .running ∨ r.status = .succeeded) :
    r'.status = .running ∨ r'.status = .succeeded := by
  cases h with
  | keep => exact hr
  | expire he => exact (hun.notMem_expiredLeases he).elim
  | complete => exact Or.inr rfl
  | _ => cases hop

namespace Tracks

variable {done : List String}

/-- What a completed task waited for has completed. -/
theorem next_of_running (h : Tracks dag s done) (hr : Reachable s) {t : TaskRun}
    (ht : t ∈ s.db.taskRuns) (hst : t.status = .running) :
    Next dag.DependsOn dag.keys done t.taskKey where
  mem := h.hosts.mem t ht
  notMem hdone := by
    have hsucc := (h.succeeded t ht).2 hdone
    simp [hst] at hsucc
  needed dep hdep := by
    obtain ⟨u, hu, rfl⟩ := (h.hosts.upstream t ht dep).1 hdep
    refine (h.succeeded u (Db.mem_upstream.1 hu).1).1 ?_
    by_contra hne
    have hb := (hr.exactlyReady t ht (by simp [hst])).2 ⟨u, hu, hne⟩
    simp [hst] at hb

/-- A call that changes nothing but the clock. -/
theorem clock (h : Tracks dag s done) {now : ℤ} (hle : s.clock ≤ now)
    (hun : s.db.Unexpired now) : Tracks dag ⟨s.db, now⟩ done :=
  ⟨h.hosts, h.succeeded, h.onTrack, fun t ht hst => (h.available t ht hst).trans hle, hun, h.run,
    h.legal⟩

/-- The tasks that have succeeded after a call are those that had, and the completed one. -/
theorem succeeded_next (h : Tracks dag s done) (hk : s.db.Keyed) {reply : Reply}
    (hok : c.exec s.db = .ok (reply, db')) (hm : Moves c.env c.op s.db db') {t' : TaskRun}
    (ht' : t' ∈ db'.taskRuns) :
    t'.status = .succeeded ↔ t'.taskKey ∈ done ++ completed s c := by
  obtain ⟨t, ht, hmove⟩ := hm.of_mem_task ht'
  rw [hmove.taskKey, List.mem_append]
  constructor
  · intro hst'
    rcases hmove.of_succeeded hst' with hst | ⟨w, o, a, logs, r, o', hop, -, -, -, -⟩
    · exact Or.inl ((h.succeeded t ht).1 hst)
    · -- the call succeeded, so it completed this task
      right
      rw [Call.exec, hop] at hok
      simp only [Op.exec, Fallible.map_eq_ok, Prod.mk.injEq] at hok
      obtain ⟨⟨t₁, db₁⟩, hdone, -, -⟩ := hok
      have hexec : c.exec s.db = .ok (.task t₁, db₁) := by
        rw [Call.exec, hop, Op.exec, hdone]
        rfl
      obtain ⟨t₂, r₂, hheld, hid, -, -, o₂, rfl, -⟩ := completeTask_ok hk hdone
      obtain rfl := Table.eq_of_key hk.tasks hheld.mem ht hid
      simp [completed, hop, hexec, succeed]
  · rintro (hkey | hkey)
    · have hst := (h.succeeded t ht).2 hkey
      rw [hmove.eq_of_succeeded hst, hst]
    · rcases completed_cases (c := c) hk with
        hnil | ⟨u, r, w, o, a, logs, t₁, db₁, hop, hheld, -, -, hdone, hc⟩
      · simp [hnil] at hkey
      · rw [hc, List.mem_singleton] at hkey
        obtain rfl := h.hosts.unique t ht u hheld.mem hkey
        rw [Call.exec, hop, Op.exec, hdone] at hok
        cases hok
        exact completeTask_succeeds hk hdone ht' hmove.id

/-- One call. -/
theorem next (h : Tracks dag s done) (hr : Reachable s) (hc : controlPlane.allowed s c)
    (hfwd : Forward s c) : Tracks dag (controlPlane.next s c) (done ++ completed s c) := by
  have hk := hr.wellFormed.toKeyed
  have hlegal : Legal dag.DependsOn dag.keys (done ++ completed s c) := by
    rcases completed_cases (c := c) hk with
      hnil | ⟨t, r, w, o, a, logs, t₁, db₁, hop, hheld, hst, -, -, hc⟩
    · rw [hnil, List.append_nil]
      exact h.legal
    · rw [hc]
      exact legal_snoc.2 ⟨h.legal, h.next_of_running hr hheld.mem hst⟩
  cases hexec : c.exec s.db with
  | error e =>
    have hnil : completed s c = [] := by
      rw [completed, hexec]
      split <;> simp_all
    rw [hnil, List.append_nil]
    have hnext : controlPlane.next s c = ⟨s.db, c.env.now⟩ := by
      rw [controlPlane_next, Call.after_of_error hexec]
    rw [hnext]
    exact h.clock hc.1 hfwd.before
  | ok r =>
    obtain ⟨reply, db'⟩ := r
    have hm := moves_of_forward hfwd.op hk hexec
    have hnext : controlPlane.next s c = ⟨db', c.env.now⟩ := by
      rw [controlPlane_next, Call.after_of_ok hexec]
    have hun := hfwd.after
    rw [hnext] at hun ⊢
    refine ⟨h.hosts.moves hm hk, fun t' ht' => h.succeeded_next hk hexec hm ht', ?_, ?_, hun, ?_,
      hlegal⟩
    · intro t' ht'
      obtain ⟨t, ht, hmove⟩ := hm.of_mem_task ht'
      exact hmove.onTrack hfwd.op hfwd.before (h.onTrack t ht)
    · intro t' ht' hst'
      obtain ⟨t, ht, hmove⟩ := hm.of_mem_task ht'
      exact hmove.available (fun hst => (h.available t ht hst).trans hc.1) hst'
    · intro r' hr'
      obtain ⟨r, hrmem, hmove⟩ := hm.of_mem_run hr'
      exact hmove.onTrack hfwd.op hfwd.before (h.run r hrmem)

/-- Any number of calls. -/
theorem run_calls (cs : List Call) : ∀ {s : State} {done : List String}, Tracks dag s done →
    Reachable s → controlPlane.Valid s cs → controlPlane.Along Forward s cs →
      Tracks dag (controlPlane.run s cs) (done ++ completions s cs) ∧
        Reachable (controlPlane.run s cs) := by
  induction cs with
  | nil =>
    intro s done h hr _ _
    rw [completions, List.append_nil]
    exact ⟨h, hr⟩
  | cons c cs ih =>
    intro s done h hr hv hfwd
    rw [completions, ← List.append_assoc]
    exact ih (h.next hr hv.1 hfwd.1) (hr.next hv.1) hv.2 hfwd.2

end Tracks

/-! ## Going on -/

/-- Forward operations keep the leases unexpired, if a lease is granted for some time. -/
theorem TaskMove.unexpired {t t' : TaskRun} (h : TaskMove env db op t t') (ht : t ∈ db.taskRuns)
    (hop : op.forward = true) (hd : ∀ id w d, op = .leaseTask id w d → 0 < d)
    (hun : db.Unexpired env.now) (hact : t'.status.active = true) :
    ∃ x, t'.leaseExpiresAt = some x ∧ env.now < x := by
  cases h with
  | keep => exact hun t ht hact
  | expire he => exact (hun.notMem_expiredLeases he).elim
  | lease hst =>
    have hpos := hd _ _ _ rfl
    exact ⟨_, rfl, by omega⟩
  | start hheld hst hrun => exact hun t ht (by rw [hst]; rfl)
  | promote | dispatch | succeed | wake => cases hact
  | _ => cases hop

/-- The time of the last call, and the next UUIDs. -/
def State.nextEnv (s : State) : Env :=
  Env.at s.clock s.db.nextId

/-- The next call of an operation, at the time of the last one. -/
def State.call (s : State) (op : Op) : Call :=
  ⟨s.nextEnv, op⟩

theorem State.allowed_call (s : State) (op : Op) : controlPlane.allowed s (s.call op) :=
  ⟨le_refl _, Db.fresh_at s.db.lt_nextId _⟩

/-- The operations can be called from `s`, and complete the task of `key`. -/
def Leads (s : State) (ops : List Op) (key : String) : Prop :=
  ∃ cs, cs.map Call.op = ops ∧ controlPlane.Valid s cs ∧ controlPlane.Along Forward s cs ∧
    completions s cs = [key]

/-- Whole ticks and calls of workers complete the task of `key` next. -/
def Finishes (s : State) (key : String) : Prop :=
  ∃ ops, Ticks ops ∧ Leads s ops key

namespace Tracks

variable {done : List String}

theorem forward_call (h : Tracks dag s done) (hr : Reachable s) (hop : op.forward = true)
    (hd : ∀ id w d, op = .leaseTask id w d → 0 < d) : Forward s (s.call op) := by
  refine ⟨hop, h.unexpired, ?_⟩
  refine controlPlane_step (P := fun db => db.Unexpired s.clock) h.unexpired ?_
  intro reply db' hok t' ht' hact
  obtain ⟨t, ht, hmove⟩ := (moves_of_forward hop hr.wellFormed.toKeyed hok).of_mem_task ht'
  exact hmove.unexpired ht hop hd h.unexpired hact

/-- A worker holds each leased or running task, and the run is open. -/
theorem exists_holds (h : Tracks dag s done) (hr : Reachable s) {t : TaskRun}
    (ht : t ∈ s.db.taskRuns) (hact : t.status.active = true) :
    ∃ w r, Holds s.nextEnv s.db w t r ∧ r.status = .running := by
  obtain ⟨x, hx, hlt⟩ := h.unexpired t ht hact
  obtain ⟨w, hw⟩ := Option.ne_none_iff_exists'.1 ((hr.bookkept t ht).owned.2 (Or.inl hact))
  obtain ⟨r, hrm, hrid⟩ := hr.wellFormed.runOf t ht
  refine ⟨w, r, ⟨ht, hrm, hrid, hw, x, hx, hlt⟩, (h.run r hrm).resolve_right fun hsucc => ?_⟩
  -- a succeeded run has succeeded tasks only
  have hst := (hr.successExact r hrm).1 hsucc t ht hrid.symm
  rw [hst] at hact
  cases hact

/-- One more operation before those that complete the task. -/
theorem leads_cons (h : Tracks dag s done) (hr : Reachable s) (hop : op.forward = true)
    (hd : ∀ id w d, op = .leaseTask id w d → 0 < d) (hnone : completed s (s.call op) = [])
    {ops : List Op} {key : String} (hrest : Leads (controlPlane.next s (s.call op)) ops key) :
    Leads s (op :: ops) key := by
  obtain ⟨cs, rfl, hv, hfwd, hc⟩ := hrest
  refine ⟨s.call op :: cs, rfl, ⟨s.allowed_call op, hv⟩, ⟨h.forward_call hr hop hd, hfwd⟩, ?_⟩
  rw [completions, hnone, hc, List.nil_append]

/-- After an operation that completes nothing, as many tasks are done. -/
theorem next_call (h : Tracks dag s done) (hr : Reachable s) (hop : op.forward = true)
    (hd : ∀ id w d, op = .leaseTask id w d → 0 < d) (hnone : completed s (s.call op) = []) :
    Tracks dag (controlPlane.next s (s.call op)) done := by
  have hnext := h.next hr (s.allowed_call op) (h.forward_call hr hop hd)
  rwa [hnone, List.append_nil] at hnext

theorem finishes_running (h : Tracks dag s done) (hr : Reachable s) {t : TaskRun}
    (ht : t ∈ s.db.taskRuns) (hst : t.status = .running) : Finishes s t.taskKey := by
  have hk := hr.wellFormed.toKeyed
  obtain ⟨w, r, hheld, hrun⟩ := h.exists_holds hr ht (by rw [hst]; rfl)
  obtain ⟨t', db', hdone⟩ := completeTask_of_holds hk hheld hst hrun "" "" []
  obtain ⟨t₁, r₁, hheld₁, hid, -, -, o', rfl, -⟩ := completeTask_ok hk hdone
  obtain rfl := Table.eq_of_key hk.tasks hheld₁.mem ht hid
  have hc : completed s (s.call (.completeTask t₁.id w "" "" [])) = [t₁.taskKey] := by
    have hexec : (s.call (.completeTask t₁.id w "" "" [])).exec s.db =
        .ok (.task (succeed s.nextEnv o' "" t₁), db') := by
      rw [Call.exec, State.call, Op.exec, hdone]
      rfl
    rw [completed, hexec]
    rfl
  refine ⟨_, .complete t₁.id w "" "" [] .nil, [_], rfl, ⟨s.allowed_call _, trivial⟩,
    ⟨h.forward_call hr rfl (by simp), trivial⟩, ?_⟩
  rw [completions, hc]
  rfl

theorem finishes_leased (h : Tracks dag s done) (hr : Reachable s) {t : TaskRun}
    (ht : t ∈ s.db.taskRuns) (hst : t.status = .leased) : Finishes s t.taskKey := by
  have hk := hr.wellFormed.toKeyed
  obtain ⟨w, r, hheld, hrun⟩ := h.exists_holds hr ht (by rw [hst]; rfl)
  obtain ⟨t', db', hok⟩ := startTask_of_holds hk hheld hst hrun
  have hexec : (s.call (.startTask t.id w)).exec s.db = .ok (.task t', db') := by
    rw [Call.exec, State.call, Op.exec, hok]
    rfl
  obtain ⟨t₁, r₁, hheld₁, hid, -, -, rfl, rfl⟩ := startTask_ok hk hok
  obtain rfl := Table.eq_of_key hk.tasks hheld₁.mem ht hid
  have hstarted : { t₁ with status := .running, updatedAt := s.nextEnv.now } ∈
      (controlPlane.next s (s.call (.startTask t₁.id w))).db.taskRuns := by
    rw [controlPlane_next_db, Call.after_of_ok hexec]
    exact Table.mem_update.2 ⟨t₁, ht, by simp⟩
  obtain ⟨ops, hticks, hleads⟩ := (h.next_call hr rfl (by simp) rfl).finishes_running
    (hr.next (s.allowed_call (.startTask t₁.id w))) hstarted rfl
  exact ⟨_, .start t₁.id w hticks, h.leads_cons hr rfl (by simp) rfl hleads⟩

theorem finishes_dispatching (h : Tracks dag s done) (hr : Reachable s) {t : TaskRun}
    (ht : t ∈ s.db.taskRuns) (hst : t.status = .dispatching) : Finishes s t.taskKey := by
  have hk := hr.wellFormed.toKeyed
  obtain ⟨⟨⟨t', uri⟩, db'⟩, hok⟩ :=
    leaseTask_succeeds s.nextEnv hr.wellFormed hr.attemptsBounded ht hst "" 1
  have hexec : (s.call (.leaseTask t.id "" 1)).exec s.db = .ok (.leased t' uri, db') := by
    rw [Call.exec, State.call, Op.exec, hok]
    rfl
  obtain ⟨t₁, ht₁, hid, -, rfl, -, rfl⟩ := leaseTask_ok hk hok
  obtain rfl := Table.eq_of_key hk.tasks ht₁ ht hid
  have hleased : RunMesh.lease s.nextEnv "" 1 t₁ ∈
      (controlPlane.next s (s.call (.leaseTask t₁.id "" 1))).db.taskRuns := by
    rw [controlPlane_next_db, Call.after_of_ok hexec]
    exact Table.mem_update.2 ⟨t₁, ht, by simp⟩
  have hpos : ∀ id w d, Op.leaseTask t₁.id "" 1 = .leaseTask id w d → 0 < d := by
    rintro id w d ⟨⟩
    decide
  obtain ⟨ops, hticks, hleads⟩ := (h.next_call hr rfl hpos rfl).finishes_leased
    (hr.next (s.allowed_call (.leaseTask t₁.id "" 1))) hleased rfl
  exact ⟨_, .lease t₁.id "" 1 hticks, h.leads_cons hr rfl hpos rfl hleads⟩

/-- A dispatch that sees a ready task. -/
theorem mem_dispatched (h : Tracks dag s done) (hr : Reachable s) {t : TaskRun}
    (ht : t ∈ s.db.taskRuns) (hst : t.status = .ready) :
    { t with status := .dispatching, updatedAt := s.nextEnv.now } ∈
      (controlPlane.next s (s.call (.dispatchReady (.ofList [t.id])))).db.taskRuns := by
  have hk := hr.wellFormed.toKeyed
  obtain ⟨r, hrm, hrid⟩ := hr.wellFormed.runOf t ht
  have hsel : (t, r) ∈ readyTasks s.nextEnv (.ofList [t.id]) s.db :=
    mem_readyTasks_of_mem_scan hk (by simp [Scan.ofList]) (by simp [Scan.ofList]) ht hrm hrid hst
      (h.available t ht hst)
  have hafter : (s.call (.dispatchReady (.ofList [t.id]))).after s.db =
      dispatchReady s.nextEnv (.ofList [t.id]) s.db :=
    Call.after_of_ok rfl
  rw [controlPlane_next_db, hafter, dispatchReady_eq hk]
  exact List.mem_map.2 ⟨t, ht, if_pos (List.mem_map.2 ⟨(t, r), hsel, rfl⟩)⟩

/-- A whole tick dispatches a ready task. -/
theorem finishes_ready (h : Tracks dag s done) (hr : Reachable s) {t : TaskRun}
    (ht : t ∈ s.db.taskRuns) (hst : t.status = .ready) : Finishes s t.taskKey := by
  set s₁ := controlPlane.next s (s.call .promoteRetries) with hs₁
  set s₂ := controlPlane.next s₁ (s₁.call (.recoverExpired (.ofList []))) with hs₂
  have hr₁ : Reachable s₁ := hr.next (s.allowed_call _)
  have hr₂ : Reachable s₂ := hr₁.next (s₁.allowed_call _)
  have h₁ : Tracks dag s₁ done := h.next_call hr rfl (by simp) rfl
  have h₂ : Tracks dag s₂ done := h₁.next_call hr₁ rfl (by simp) rfl
  -- neither of the first two phases touches the task
  have ht₁ : t ∈ s₁.db.taskRuns := List.mem_map.2 ⟨t, ht, by simp [promote, hst]⟩
  have ht₂ : t ∈ s₂.db.taskRuns := ht₁
  obtain ⟨ops, hticks, hleads⟩ := (h₂.next_call hr₂ rfl (by simp) rfl).finishes_dispatching
    (hr₂.next (s₂.allowed_call _)) (h₂.mem_dispatched hr₂ ht₂ hst) rfl
  exact ⟨_, .tick (.ofList []) (.ofList [t.id]) hticks,
    h.leads_cons hr rfl (by simp) rfl (h₁.leads_cons hr₁ rfl (by simp) rfl
      (h₂.leads_cons hr₂ rfl (by simp) rfl hleads))⟩

/-- The execution can complete any task next whose dependencies have completed. -/
theorem finishes (h : Tracks dag s done) (hr : Reachable s) {key : String}
    (hnext : Next dag.DependsOn dag.keys done key) : Finishes s key := by
  obtain ⟨t, ht, rfl⟩ := h.hosts.exists_task key hnext.mem
  have hblocked : t.status ≠ .blocked := by
    intro hst
    obtain ⟨u, hu, hne⟩ := (hr.exactlyReady t ht (by simp [hst])).1 hst
    refine hne ((h.succeeded u (Db.mem_upstream.1 hu).1).2 (hnext.needed _ ?_))
    exact (h.hosts.upstream t ht _).2 ⟨u, hu, rfl⟩
  have htrack := h.onTrack t ht
  cases hst : t.status with
  | blocked => exact absurd hst hblocked
  | ready => exact h.finishes_ready hr ht hst
  | dispatching => exact h.finishes_dispatching hr ht hst
  | leased => exact h.finishes_leased hr ht hst
  | running => exact h.finishes_running hr ht hst
  | succeeded => exact absurd ((h.succeeded t ht).1 hst) hnext.notMem
  | _ => rw [hst] at htrack; cases htrack

end Tracks

/-! ## The first call -/

/-- The upstreams of a new task are the tasks of its dependencies. -/
theorem Creates.upstream_iff {run : Run} (h : Creates env op db db' run dag) (hf : db.Fresh env)
    (hw : db.WellFormed) (htasks : db.taskRuns = []) {key : String} {spec : TaskSpec}
    (he : (key, spec) ∈ dag.tasks) (dep : String) : dag.DependsOn dep key ↔
      ∃ u ∈ db'.upstream db'.taskRuns (newTaskRun env run dag (key, spec)), u.taskKey = dep := by
  constructor
  · intro hdep
    rw [DAG.DependsOn, dag.dependsOn_of_mem he] at hdep
    obtain ⟨e', he', rfl⟩ := List.mem_map.1 (h.dep_mem_keys he hdep)
    refine ⟨_, Db.mem_upstream.2 ⟨h.newTask_mem he', ⟨run.id, taskId env dag key,
      taskId env dag e'.1⟩, ?_, rfl, rfl⟩, rfl⟩
    rw [h.dependencies]
    exact List.mem_append_right _ (mem_newDependencies.2 ⟨_, he, _, hdep, rfl⟩)
  · rintro ⟨u, hu, rfl⟩
    obtain ⟨hu, hd⟩ := Db.mem_upstream.1 hu
    obtain ⟨dep, hdep, -, hid⟩ := h.dependsOn_new hf hw (List.mem_map_of_mem he) hd
    rw [h.tasks, htasks, List.nil_append] at hu
    obtain ⟨e', he', rfl⟩ := List.mem_map.1 hu
    obtain rfl := taskId_injective hf (List.mem_map_of_mem he') hid
    exact hdep

/-- A new run hosts its definition, if it is the only one. -/
theorem Creates.hosts {run : Run} (h : Creates env op db db' run dag) (hf : db.Fresh env)
    (hw : db.WellFormed) (hruns : db.workflowRuns = []) (htasks : db.taskRuns = []) :
    Hosts dag db' := by
  have hmem : ∀ t ∈ db'.taskRuns, ∃ entry ∈ dag.tasks, newTaskRun env run dag entry = t := by
    intro t ht
    rw [h.tasks, htasks, List.nil_append] at ht
    exact List.mem_map.1 ht
  constructor
  · intro t ht
    obtain ⟨entry, he, rfl⟩ := hmem t ht
    exact List.mem_map_of_mem he
  · intro t ht u hu hkey
    obtain ⟨entry, he, rfl⟩ := hmem t ht
    obtain ⟨entry', he', rfl⟩ := hmem u hu
    rw [List.inj_on_of_nodup_map dag.nodup he he' hkey]
  · intro key hkey
    obtain ⟨entry, he, rfl⟩ := List.mem_map.1 hkey
    exact ⟨_, h.newTask_mem he, rfl⟩
  · intro t ht dep
    obtain ⟨⟨key, spec⟩, he, rfl⟩ := hmem t ht
    exact h.upstream_iff hf hw htasks he dep
  · exact ⟨run, by rw [h.runs, hruns, List.nil_append]⟩

/-- Nothing has completed in a new run. -/
theorem Creates.tracks {run : Run} {now : ℤ} (h : Creates env op db db' run dag)
    (hf : db.Fresh env) (hw : db.WellFormed) (hruns : db.workflowRuns = [])
    (htasks : db.taskRuns = []) (hnow : env.now = now) : Tracks dag ⟨db', now⟩ [] := by
  have hmem : ∀ t ∈ db'.taskRuns, ∃ entry, newTaskRun env run dag entry = t := by
    intro t ht
    rw [h.tasks, htasks, List.nil_append] at ht
    obtain ⟨entry, -, rfl⟩ := List.mem_map.1 ht
    exact ⟨entry, rfl⟩
  refine ⟨h.hosts hf hw hruns htasks, ?_, ?_, ?_, ?_, ?_, legal_nil⟩
  · intro t ht
    obtain ⟨entry, rfl⟩ := hmem t ht
    rcases newTaskRun_status env run dag entry with hst | hst <;> simp [hst]
  · intro t ht
    obtain ⟨entry, rfl⟩ := hmem t ht
    rcases newTaskRun_status env run dag entry with hst | hst <;> rw [hst] <;> rfl
  · intro t ht _
    obtain ⟨entry, rfl⟩ := hmem t ht
    exact hnow.le
  · intro t ht hact
    obtain ⟨entry, rfl⟩ := hmem t ht
    rcases newTaskRun_status env run dag entry with hst | hst <;> rw [hst] at hact <;> cases hact
  · intro r hr
    change r ∈ db'.workflowRuns at hr
    rw [h.runs, hruns, List.nil_append, List.mem_singleton] at hr
    rw [hr]
    exact Or.inl h.status

namespace Execution

variable {s₀ : State} {d : Definition}

/-- The first call creates a run of the definition. -/
theorem creates (e : Execution s₀ d)
    (hfind : s₀.db.workflowDefinitions.find? (fun x => x.id = d.id ∧ x.tenantId = d.tenantId) =
      some d) : ∃ run, Creates e.create.env e.create.op s₀.db e.start.db run d.dag := by
  obtain ⟨user, key, input, artifact, hop⟩ := e.isCreate
  obtain ⟨r, db', hexec⟩ := e.created
  have hdb : e.start.db = db' := Call.after_of_ok hexec
  rw [Call.exec, hop, Op.exec] at hexec
  simp only [Fallible.map_eq_ok, Prod.mk.injEq, Reply.run.injEq] at hexec
  obtain ⟨⟨⟨r₁, created⟩, db₁⟩, hok, ⟨rfl, rfl⟩, rfl⟩ := hexec
  simp only [createRun, Fallible.bind_eq_ok, Fallible.orError_eq_ok, Fallible.require_eq_ok,
    hfind, Option.some.injEq] at hok
  obtain ⟨-, -, uri, -, _, rfl, hok⟩ := hok
  split at hok
  · cases hok
  · simp only [Fallible.bind_eq_ok] at hok
    obtain ⟨db₂, hins, hok⟩ := hok
    cases hok
    obtain ⟨htasks, hdeps, artifacts, rfl⟩ := insertRun_ok hins
    rw [hdb, hop]
    exact ⟨_, ⟨_, _, _, _, _, _, rfl⟩, ⟨d, List.mem_of_find?_eq_some hfind, rfl⟩, rfl, rfl, rfl,
      htasks, hdeps, rfl, rfl, rfl, rfl, rfl, rfl⟩

theorem tracks_start (e : Execution s₀ d) (h0 : Init s₀)
    (hfind : s₀.db.workflowDefinitions.find? (fun x => x.id = d.id ∧ x.tenantId = d.tenantId) =
      some d) : Tracks d.dag e.start [] ∧ Reachable e.start := by
  obtain ⟨run, hcr⟩ := e.creates hfind
  refine ⟨?_, h0.reachable.next e.allowed⟩
  exact hcr.tracks e.allowed.2 h0.wellFormed h0.workflowRuns h0.taskRuns rfl

theorem tracks_final (e : Execution s₀ d) (h0 : Init s₀)
    (hfind : s₀.db.workflowDefinitions.find? (fun x => x.id = d.id ∧ x.tenantId = d.tenantId) =
      some d) : Tracks d.dag e.final e.completions ∧ Reachable e.final := by
  obtain ⟨h, hr⟩ := e.tracks_start h0 hfind
  exact h.run_calls e.calls hr e.valid e.forward

/-- An execution, and calls that go on from it. -/
def append (e : Execution s₀ d) (cs : List Call) (hv : controlPlane.Valid e.final cs)
    (hfwd : controlPlane.Along Forward e.final cs) : Execution s₀ d where
  create := e.create
  calls := e.calls ++ cs
  isCreate := e.isCreate
  created := e.created
  allowed := e.allowed
  valid := (controlPlane.along_append _ _ _ _).2 ⟨e.valid, hv⟩
  forward := (controlPlane.along_append _ _ _ _).2 ⟨e.forward, hfwd⟩

theorem completions_append_calls (e : Execution s₀ d) {cs : List Call}
    (hv : controlPlane.Valid e.final cs) (hfwd : controlPlane.Along Forward e.final cs) :
    (e.append cs hv hfwd).completions = e.completions ++ RunMesh.completions e.final cs :=
  completions_append e.calls cs e.start

section

variable (h0 : Init s₀)
  (hfind : s₀.db.workflowDefinitions.find? (fun x => x.id = d.id ∧ x.tenantId = d.tenantId) =
    some d)

include h0 hfind

/-- An execution can complete any key next that is next in a legal order. -/
theorem exists_extends (e : Execution s₀ d) {key : String}
    (hnext : Next d.dag.DependsOn d.dag.keys e.completions key) :
    ∃ e', e.Extends e' ∧ e'.completions = e.completions ++ [key] := by
  obtain ⟨h, hr⟩ := e.tracks_final h0 hfind
  obtain ⟨ops, hticks, cs, rfl, hv, hfwd, hc⟩ := h.finishes hr hnext
  refine ⟨e.append cs hv hfwd, ⟨rfl, cs, hticks, rfl⟩, ?_⟩
  rw [completions_append_calls, hc]

/-- A run is created if every priority fits its column. -/
theorem exists_calls_nil (hfits : ∀ entry ∈ d.dag.tasks, isInteger entry.2.priority = true) :
    ∃ e : Execution s₀ d, e.calls = [] := by
  have hvalid := h0.accepted d (List.mem_of_find?_eq_some hfind)
  obtain ⟨r, db', hok⟩ := (createRun_creates_iff (s₀.allowed_call .promoteRetries).2 hvalid hfind
    (show "run" ≠ "" by decide) (by simp [h0.workflowRuns]) none "").2 hfits
  have hexec : (s₀.call (.createRun d.tenantId none d.id "run" "" none)).exec s₀.db =
      .ok (.run r true, db') := by
    rw [Call.exec, State.call, Op.exec]
    exact Fallible.map_eq_ok.2 ⟨_, hok, rfl⟩
  exact ⟨⟨_, [], ⟨_, _, _, _, rfl⟩, ⟨r, db', hexec⟩, s₀.allowed_call _, trivial, trivial⟩, rfl⟩

/-- Every legal order is the order of completions of an execution in whole ticks. -/
theorem exists_of_legal (hfits : ∀ entry ∈ d.dag.tasks, isInteger entry.2.priority = true)
    {l : List String} (hl : Legal d.dag.DependsOn d.dag.keys l) :
    ∃ e : Execution s₀ d, Ticks (e.calls.map Call.op) ∧ e.completions = l := by
  induction l using List.reverseRecOn with
  | nil =>
    obtain ⟨e, he⟩ := exists_calls_nil h0 hfind hfits
    exact ⟨e, by rw [he]; exact .nil, by rw [Execution.completions, he]; rfl⟩
  | append_singleton l key ih =>
    obtain ⟨hl, hnext⟩ := legal_snoc.1 hl
    obtain ⟨e, hticks, rfl⟩ := ih hl
    obtain ⟨e', ⟨-, cs, hcs, hcalls⟩, hc⟩ := e.exists_extends h0 hfind hnext
    refine ⟨e', ?_, hc⟩
    rw [hcalls, List.map_append]
    exact hticks.append hcs

/-- An execution that cannot complete another task has completed them all, and the run has
succeeded. -/
theorem finished_of_maximal (e : Execution s₀ d)
    (hmax : ∀ e', e.Extends e' → e'.completions = e.completions) :
    e.completions.Perm d.dag.keys ∧
      e.final.db.workflowRuns.map Run.status = [.succeeded] := by
  obtain ⟨h, hr⟩ := e.tracks_final h0 hfind
  have hvalid := h0.accepted d (List.mem_of_find?_eq_some hfind)
  have hall : d.dag.keys ⊆ e.completions := by
    intro key hkey
    by_contra hleft
    obtain ⟨key', hnext⟩ := exists_next (fun k hk dep hdep => dependsOn_mem_keys hvalid hk hdep)
      (fun k hk => acc_of_validateDAG hvalid hk) hkey hleft
    obtain ⟨e', hext, hc⟩ := e.exists_extends h0 hfind hnext
    have hlen := congrArg List.length ((hmax e' hext).symm.trans hc)
    simp at hlen
  refine ⟨(h.legal.linearExtension d.dag.nodup hall).perm, ?_⟩
  obtain ⟨r, hruns⟩ := h.hosts.run
  have hrm : r ∈ e.final.db.workflowRuns := by rw [hruns]; exact List.mem_singleton_self r
  rw [hruns, List.map_singleton, (hr.successExact r hrm).2 fun t ht _ =>
    (h.succeeded t ht).2 (hall (h.hosts.mem t ht))]

end

end Execution

/-! ## The orders -/

theorem legal_iff_topological (h : validateDAG dag = .ok ()) {l : List String} :
    Legal dag.DependsOn dag.keys l ↔ dag.Topological l :=
  legal_iff_exists_extension (fun _ hk _ hdep => dependsOn_mem_keys h hk hdep)
    (fun _ hk => acc_of_validateDAG h hk) dag.nodup

/-- Completion orders are exactly the topological orders, of any accepted definition whose
priorities fit their column, and of no other. The phases of a tick may come singly and in
any order, but whole ticks are enough; and an execution that cannot be extended to complete
another task has completed each task once, and its run has succeeded. -/
theorem completion_orders_iff {s₀ : State} (h0 : Init s₀) {d : Definition}
    (hfind : s₀.db.workflowDefinitions.find? (fun x => x.id = d.id ∧ x.tenantId = d.tenantId) =
      some d) :
    ((∀ l, (∃ e : Execution s₀ d, e.completions = l) ↔ d.dag.Topological l) ∧
      (∀ l, (∃ e : Execution s₀ d, Ticks (e.calls.map Call.op) ∧ e.completions = l) ↔
        d.dag.Topological l) ∧
      ∀ e : Execution s₀ d, (∀ e', e.Extends e' → e'.completions = e.completions) →
        e.completions.Perm d.dag.keys ∧
          e.final.db.workflowRuns.map Run.status = [.succeeded]) ↔
      ∀ entry ∈ d.dag.tasks, isInteger entry.2.priority = true := by
  have hvalid := h0.accepted d (List.mem_of_find?_eq_some hfind)
  have hlegal : ∀ e : Execution s₀ d, d.dag.Topological e.completions := fun e =>
    (legal_iff_topological hvalid).1 (e.tracks_final h0 hfind).1.legal
  constructor
  · rintro ⟨horders, -, -⟩ entry hentry
    obtain ⟨e, -⟩ := (horders []).2 ((legal_iff_topological hvalid).1 legal_nil)
    obtain ⟨run, hcr⟩ := e.creates hfind
    exact (taskRunInsertable_iff (checkedEntry_of_validateDAG hvalid hentry)).1
      (hcr.insertable entry hentry)
  · intro hfits
    have hexists : ∀ l, d.dag.Topological l →
        ∃ e : Execution s₀ d, Ticks (e.calls.map Call.op) ∧ e.completions = l := fun l hl =>
      Execution.exists_of_legal h0 hfind hfits ((legal_iff_topological hvalid).2 hl)
    refine ⟨fun l => ⟨?_, fun hl => ?_⟩, fun l => ⟨?_, hexists l⟩,
      fun e hmax => e.finished_of_maximal h0 hfind hmax⟩
    · rintro ⟨e, rfl⟩
      exact hlegal e
    · obtain ⟨e, -, he⟩ := hexists l hl
      exact ⟨e, he⟩
    · rintro ⟨e, -, rfl⟩
      exact hlegal e

/-- In the chain, `a` and then `b`. -/
theorem completion_orders_iff_chain :
    ∃ d ∈ twoDefinitions.db.workflowDefinitions, d.dag = chainDag ∧
      ∃ e : Execution twoDefinitions d, e.completions = ["a", "b"] := by
  have hfind : twoDefinitions.db.workflowDefinitions.find? (fun x => x.id = 1 ∧ x.tenantId = 1) =
    some ⟨1, 1, "chain", 1, chainDag, none, 0⟩ := by decide
  refine ⟨_, List.mem_of_find?_eq_some hfind, rfl, ?_⟩
  refine (((completion_orders_iff init_twoDefinitions hfind).2 (by decide)).1 _).2 ?_
  refine (legal_iff_topological (by decide)).1 ?_
  refine legal_snoc.2 ⟨legal_snoc.2 ⟨legal_nil, ?_⟩, ?_⟩
  · exact ⟨by decide, by decide, show ∀ dep ∈ chainDag.dependsOn "a", dep ∈ [] by decide⟩
  · exact ⟨by decide, by decide, show ∀ dep ∈ chainDag.dependsOn "b", dep ∈ ["a"] by decide⟩

/-- A definition with a priority that does not fit its column. -/
def urgentDefinition : Definition :=
  ⟨1, 1, "urgent", 1, urgentDag, none, 0⟩

/-- A database with this definition. -/
def urgentOnly : State where
  db := ⟨[urgentDefinition], [], [], [], [], [], [], []⟩
  clock := 0

/-- The definition is accepted and has an order, and no run of it can be created. -/
theorem urgent_has_no_execution :
    Init urgentOnly ∧ urgentDag.Topological ["a"] ∧
      IsEmpty (Execution urgentOnly urgentDefinition) := by
  refine ⟨⟨rfl, rfl, rfl, rfl, rfl, by decide⟩, ⟨["a"], ⟨List.Perm.refl _, ?_⟩,
    List.prefix_refl _⟩, ⟨fun e => ?_⟩⟩
  · intro pre k hpre dep hdep
    obtain rfl : k = "a" := by simpa using hpre.subset (List.mem_append_right _ (by simp))
    exact absurd hdep (show dep ∉ urgentDag.dependsOn "a" by simp [urgentDag, DAG.dependsOn])
  · obtain ⟨run, hcr⟩ := e.creates (by decide)
    have hins := hcr.insertable _ (List.mem_singleton_self _)
    revert hins
    decide

end RunMesh
