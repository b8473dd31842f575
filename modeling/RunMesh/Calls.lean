import RunMesh.Scheduler
import RunMesh.Trace
import Mathlib.Data.List.Dedup

/-!
# The control plane as a machine

A `Call` is one transaction : an operation with its arguments, and the time and UUIDs it
runs with. `Call.exec` runs it, and `Call.after` is the database it leaves, which is the
one it found if it returned an error. `controlPlane` is the machine these calls drive, in
any order, from a database without runs (`Init`), the clock never going back. A state is
`Reachable` if some such history of calls leads to it.
-/

namespace RunMesh

/-- The operations and their arguments. -/
inductive Op
  | createWorkflow (tenantId : ℕ) (userId : Option ℕ) (name : String) (dag : DAG)
  | createVersion (tenantId : ℕ) (userId : Option ℕ) (definitionId : ℕ) (dag : DAG)
  | createRun (tenantId : ℕ) (userId : Option ℕ) (definitionId : ℕ)
      (idempotencyKey input : String) (inputArtifactId : Option ℕ)
  | promoteRetries
  | recoverExpired (scan : Scan)
  | dispatchReady (scan : Scan)
  | leaseTask (taskId : ℕ) (workerId : String) (duration : ℤ)
  | startTask (taskId : ℕ) (workerId : String)
  | heartbeatTask (taskId : ℕ) (workerId : String) (duration : ℤ)
  | completeTask (taskId : ℕ) (workerId output artifactUri : String)
      (logArtifactUris : List String)
  | failTask (taskId : ℕ) (workerId : String) (failure : Failure)
  | cancelRun (tenantId : ℕ) (userId : Option ℕ) (id : ℕ)
  | retryRun (tenantId : ℕ) (userId : Option ℕ) (id : ℕ)
  | replayDead (tenantId : ℕ) (userId : Option ℕ) (taskId : ℕ)
  deriving DecidableEq

/-- The values the operations return. -/
inductive Reply
  | done
  | definition (d : Definition)
  | run (r : Run) (created : Bool)
  | leased (t : TaskRun) (inputArtifactUri : Option String)
  | task (t : TaskRun)
  | heartbeat (expires : ℤ) (cancelled : Bool)
  deriving DecidableEq

/-- Run an operation. -/
def Op.exec (env : Env) (db : Db) : Op → Except StoreError (Reply × Db)
  | createWorkflow tenantId userId name dag =>
    (RunMesh.createWorkflow env tenantId userId name dag db).map fun r => (.definition r.1, r.2)
  | createVersion tenantId userId definitionId dag =>
    (RunMesh.createVersion env tenantId userId definitionId dag db).map fun r =>
      (.definition r.1, r.2)
  | createRun tenantId userId definitionId idempotencyKey input inputArtifactId =>
    (RunMesh.createRun env tenantId userId definitionId idempotencyKey input inputArtifactId
      db).map fun r => (.run r.1.1 r.1.2, r.2)
  | promoteRetries => .ok (.done, RunMesh.promoteRetries env db)
  | recoverExpired scan => .ok (.done, RunMesh.recoverExpired env scan db)
  | dispatchReady scan => .ok (.done, RunMesh.dispatchReady env scan db)
  | leaseTask taskId workerId duration =>
    (RunMesh.leaseTask env taskId workerId duration db).map fun r => (.leased r.1.1 r.1.2, r.2)
  | startTask taskId workerId =>
    (RunMesh.startTask env taskId workerId db).map fun r => (.task r.1, r.2)
  | heartbeatTask taskId workerId duration =>
    (RunMesh.heartbeatTask env taskId workerId duration db).map fun r =>
      (.heartbeat r.1.1 r.1.2, r.2)
  | completeTask taskId workerId output artifactUri logArtifactUris =>
    (RunMesh.completeTask env taskId workerId output artifactUri logArtifactUris db).map fun r =>
      (.task r.1, r.2)
  | failTask taskId workerId failure =>
    (RunMesh.failTask env taskId workerId failure db).map fun r => (.task r.1, r.2)
  | cancelRun tenantId userId id =>
    (RunMesh.cancelRun env tenantId userId id db).map fun db => (.done, db)
  | retryRun tenantId userId id =>
    (RunMesh.retryRun env tenantId userId id db).map fun db => (.done, db)
  | replayDead tenantId userId taskId =>
    (RunMesh.replayDead env tenantId userId taskId db).map fun db => (.done, db)

theorem of_map_done {x : Except StoreError Db} {reply : Reply} {db' : Db}
    (h : (x.map fun db => (Reply.done, db)) = .ok (reply, db')) : x = .ok db' := by
  cases x <;> cases h
  rfl

/-- One transaction. -/
structure Call where
  env : Env
  op : Op

/-- Run the transaction. -/
def Call.exec (c : Call) (db : Db) : Except StoreError (Reply × Db) :=
  c.op.exec c.env db

/-- The database after the transaction : unchanged if it rolled back. -/
def Call.after (c : Call) (db : Db) : Db :=
  match c.exec db with
  | .ok r => r.2
  | .error _ => db

theorem Call.after_of_ok {c : Call} {db db' : Db} {reply : Reply}
    (h : c.exec db = .ok (reply, db')) : c.after db = db' := by
  rw [Call.after, h]

theorem Call.after_of_error {c : Call} {db : Db} {e : StoreError}
    (h : c.exec db = .error e) : c.after db = db := by
  rw [Call.after, h]

/-- The database and the time of the last transaction. -/
structure State where
  db : Db
  clock : ℤ

/-- The control plane : any transaction may come next, the clock does not go back, and
the UUIDs it draws are new. -/
def controlPlane : Machine State Call where
  next s c := ⟨c.after s.db, c.env.now⟩
  allowed s c := s.clock ≤ c.env.now ∧ s.db.Fresh c.env

/-- No run yet, and only accepted definitions. -/
structure Init (s : State) : Prop where
  workflowRuns : s.db.workflowRuns = []
  taskRuns : s.db.taskRuns = []
  taskDependencies : s.db.taskDependencies = []
  taskAttempts : s.db.taskAttempts = []
  outboxEvents : s.db.outboxEvents = []
  accepted : ∀ d ∈ s.db.workflowDefinitions, validateDAG d.dag = .ok ()

/-- Some history of calls leads to the state. -/
def Reachable (s : State) : Prop :=
  ∃ s₀ cs, Init s₀ ∧ controlPlane.Valid s₀ cs ∧ controlPlane.run s₀ cs = s

theorem controlPlane_next (s : State) (c : Call) :
    controlPlane.next s c = ⟨c.after s.db, c.env.now⟩ :=
  rfl

@[simp] theorem controlPlane_next_db (s : State) (c : Call) :
    (controlPlane.next s c).db = c.after s.db :=
  rfl

theorem Init.reachable {s : State} (h : Init s) : Reachable s :=
  ⟨s, [], h, trivial, rfl⟩

/-- A call leads from a reachable state to a reachable one. -/
theorem Reachable.next {s : State} {c : Call} (h : Reachable s)
    (hc : controlPlane.allowed s c) : Reachable (controlPlane.next s c) := by
  obtain ⟨s₀, cs, h0, hv, rfl⟩ := h
  exact ⟨s₀, cs ++ [c], h0, (controlPlane.along_snoc _ s₀ cs c).2 ⟨hv, hc⟩,
    controlPlane.run_snoc s₀ cs c⟩

/-- A property of the database is kept by a call if it is kept when the call succeeds. -/
theorem controlPlane_step {P : Db → Prop} {s : State} {c : Call} (hs : P s.db)
    (hok : ∀ (reply : Reply) (db' : Db), c.exec s.db = .ok (reply, db') → P db') :
    P (controlPlane.next s c).db := by
  rw [controlPlane_next_db]
  cases he : c.exec s.db with
  | error e => rwa [Call.after_of_error he]
  | ok r =>
    obtain ⟨reply, db'⟩ := r
    rw [Call.after_of_ok he]
    exact hok reply db' he

/-- What holds initially and is kept by each successful call holds in every reachable
state. -/
theorem Reachable.induction {P : Db → Prop} (hinit : ∀ s, Init s → P s.db)
    (hstep : ∀ (c : Call) (db : Db) (reply : Reply) (db' : Db), P db → db.Fresh c.env →
      c.exec db = .ok (reply, db') → P db') {s : State} (h : Reachable s) : P s.db := by
  obtain ⟨s₀, cs, h0, hv, rfl⟩ := h
  exact controlPlane.invariant (P := fun s => P s.db)
    (fun s c hP hc => controlPlane_step hP fun reply db' => hstep c s.db reply db' hP hc.2)
    (hinit s₀ h0) hv

/-- What holds initially and is kept by each call from a reachable state holds in every
reachable state. -/
theorem Reachable.induction_next {P : State → Prop} (hinit : ∀ s, Init s → P s)
    (hstep : ∀ s c, Reachable s → controlPlane.allowed s c → P s → P (controlPlane.next s c))
    {s : State} (h : Reachable s) : P s := by
  obtain ⟨s₀, cs, h0, hv, rfl⟩ := h
  exact (controlPlane.invariant (P := fun s => Reachable s ∧ P s)
    (fun s c hs hc => ⟨hs.1.next hc, hstep s c hs.1 hc hs.2⟩)
    ⟨h0.reachable, hinit s₀ h0⟩ hv).2

/-! ## Histories by operation -/

/-- A UUID past all those in use. -/
def Db.nextId (db : Db) : ℕ :=
  db.ids.foldr max 0 + 1

theorem Db.lt_nextId (db : Db) : ∀ i ∈ db.ids, i < db.nextId := by
  unfold nextId
  induction db.ids with
  | nil => simp
  | cons j js ih =>
    intro i hi
    rw [List.foldr_cons]
    rcases List.mem_cons.1 hi with rfl | hi
    · omega
    · have := ih i hi
      omega

/-- The scan that sees the rows in this order. -/
def Scan.ofList (ids : List ℕ) : Scan :=
  ⟨ids.dedup, ids.nodup_dedup⟩

/-- The calls of the given operations at the given times, each drawing the next UUIDs. -/
def play : State → List (ℤ × Op) → List Call
  | _, [] => []
  | s, (now, op) :: rest =>
    ⟨Env.at now s.db.nextId, op⟩ ::
      play (controlPlane.next s ⟨Env.at now s.db.nextId, op⟩) rest

/-- Operations in the order of their times make a valid history. -/
theorem valid_play (ops : List (ℤ × Op)) :
    ∀ s : State, (s.clock :: ops.map Prod.fst).IsChain (· ≤ ·) →
      controlPlane.Valid s (play s ops) := by
  induction ops with
  | nil => intro s _; trivial
  | cons o ops ih =>
    intro s hs
    rw [List.map_cons, List.isChain_cons_cons] at hs
    exact ⟨⟨hs.1, Db.fresh_at s.db.lt_nextId o.1⟩, ih _ hs.2⟩

/-- The state after the operations. -/
def State.after (s : State) (ops : List (ℤ × Op)) : State :=
  controlPlane.run s (play s ops)

theorem reachable_after {s : State} (h : Init s) {ops : List (ℤ × Op)}
    (hops : (s.clock :: ops.map Prod.fst).IsChain (· ≤ ·)) : Reachable (s.after ops) :=
  ⟨s, play s ops, h, valid_play ops s hops, rfl⟩

end RunMesh
