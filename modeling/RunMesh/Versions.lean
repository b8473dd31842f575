import RunMesh.Creation
import RunMesh.ReadCommitted

/-!
# Concurrent calls of `CreateVersion`

`CreateVersion` reads the name of the definition, locks the row of the largest version of that
name (`SELECT version ... ORDER BY version DESC LIMIT 1 FOR UPDATE`), inserts the next version, and
inserts an audit row with `jsonb_build_object('version',$4)`. PostgreSQL cannot determine the type
of that parameter and refuses the statement, so the transaction is rolled back.

`createVersionTx` is the transaction as a program of its statements, for any number of calls to be
interleaved under READ COMMITTED. `VersionStage` says where a call stands, and none of its stages
leads to a commit. The tables stay as they are, a call that ends does so with the error of the
database, and the calls are never stuck (`createVersion_never_commits`).
-/

namespace RunMesh

open ReadCommitted Fallible

/-! ## The transaction -/

/-- A call of `Store.CreateVersion`. -/
structure VersionCall where
  env : Env
  tenantId : ℕ
  userId : Option ℕ
  definitionId : ℕ
  dag : DAG

/-- What a statement can wait for : a row of `workflow_definitions`, or another transaction's
entry in the index of `UNIQUE (tenant_id,name,version)`. -/
inductive VersionLock
  | row (key : ℕ × String) (version : ℕ)
  | entry (key : ℕ × String) (version : ℕ)
  deriving DecidableEq, Repr

/-- What a statement returns. -/
structure VersionResult where
  name : Option String := none
  version : Option ℕ := none
  inserted : Option Definition := none
  audited : Bool := false

/-- The statements of a call. -/
abbrev VersionProgram := Program Db VersionLock VersionResult StoreError

/-- A call between its steps. -/
abbrev VersionTx := ReadCommitted.Tx Db VersionLock VersionResult StoreError

/-- The versions of a `(tenant_id, name)`. -/
def Db.versions (db : Db) (key : ℕ × String) : List ℕ :=
  (db.workflowDefinitions.filter fun d => d.tenantId = key.1 ∧ d.name = key.2).map
    Definition.version

namespace VersionCall

variable (c : VersionCall)

/-- `SELECT name FROM workflow_definitions WHERE id=$1 AND tenant_id=$2`. -/
def name (db : Db) : Option String :=
  (db.workflowDefinitions.find? fun d => d.id = c.definitionId ∧ d.tenantId = c.tenantId).map
    Definition.name

/-- The row of a version. -/
def definition (name : String) (version : ℕ) : Definition :=
  ⟨c.env.uuid 0, c.tenantId, name, version, c.dag, c.userId, c.env.now⟩

/-- The version is taken, or does not fit its column. -/
def Refused (name : String) (version : ℕ) (db : Db) : Prop :=
  version ∈ db.versions (c.tenantId, name) ∨ isInteger version = false

instance (name : String) (version : ℕ) (db : Db) : Decidable (c.Refused name version db) :=
  inferInstanceAs (Decidable (_ ∨ _))

/-- The table with the row of a version. -/
def insertRow (name : String) (version : ℕ) (db : Db) : Db :=
  if c.Refused name version db then db
  else { db with workflowDefinitions := db.workflowDefinitions ++ [c.definition name version] }

/-- The tables with the audit row of a version. -/
def recordVersion (d : Definition) (db : Db) : Except StoreError Db :=
  (insertAuditEvent versionAuditParameters
    (newAuditEvent c.env c.tenantId c.userId "workflow.version" "workflow" d.id)
    db.auditEvents).map fun auditEvents => { db with auditEvents }

end VersionCall

/-- The name of the definition. -/
def selectName (c : VersionCall) : Stmt Db VersionLock VersionResult where
  locks _ := []
  result snap _ := { name := c.name snap }
  write _ db := db

/-- `SELECT version FROM workflow_definitions WHERE tenant_id=$1 AND name=$2 ORDER BY version DESC
LIMIT 1 FOR UPDATE`. The row is that of the snapshot, and is evaluated again once it is locked. -/
def selectVersion (key : ℕ × String) : Stmt Db VersionLock VersionResult where
  locks snap := (snap.versions key).max?.toList.map (.row key)
  result snap db := { version := (snap.versions key).max?.filter (· ∈ db.versions key) }
  write _ db := db

/-- `INSERT INTO workflow_definitions`. It waits for a transaction that has inserted the same
version. -/
def insertVersion (c : VersionCall) (name : String) (version : ℕ) :
    Stmt Db VersionLock VersionResult where
  locks _ := [.entry (c.tenantId, name) version]
  result _ db :=
    { inserted := if c.Refused name version db then none else some (c.definition name version) }
  write _ db := c.insertRow name version db

/-- `INSERT INTO audit_events`. -/
def insertVersionAudit (c : VersionCall) (d : Definition) : Stmt Db VersionLock VersionResult where
  locks _ := []
  result _ db := { audited := (c.recordVersion d db).isOk }
  write _ db := (c.recordVersion d db).toOption.getD db

/-- From the audit row on. -/
def auditTx (c : VersionCall) (d : Definition) : VersionProgram :=
  .stmt (insertVersionAudit c d) fun r => if r.audited then .commit else .rollback .database

/-- From the insert on. -/
def insertTx (c : VersionCall) (name : String) (version : ℕ) : VersionProgram :=
  .stmt (insertVersion c name (version + 1)) fun r =>
    match r.inserted with
    | none => .rollback .database
    | some d => auditTx c d

/-- From the locking `SELECT` on. -/
def selectTx (c : VersionCall) (name : String) : VersionProgram :=
  .stmt (selectVersion (c.tenantId, name)) fun r =>
    match r.version with
    | none => .rollback .noRows
    | some version => insertTx c name version

/-- The statements of a call with a valid DAG. -/
def nameTx (c : VersionCall) : VersionProgram :=
  .stmt (selectName c) fun r =>
    match r.name with
    | none => .rollback .notFound
    | some name => selectTx c name

/-- `Store.CreateVersion`. -/
def createVersionTx (c : VersionCall) : VersionProgram :=
  match validateDAG c.dag with
  | .error e => .rollback (.invalidDag e)
  | .ok _ => nameTx c

/-- The row that was found is still there when it is evaluated again. -/
theorem filter_max?_versions {db : Db} {key : ℕ × String} {v : ℕ}
    (h : (db.versions key).max? = some v) :
    (db.versions key).max?.filter (· ∈ db.versions key) = some v := by
  rw [h, Option.filter_some_pos]
  exact decide_eq_true (List.max?_eq_some_iff.1 h).1

/-- From the insert on, the transaction alone fails. -/
theorem insertTx_exec (c : VersionCall) (name : String) (v : ℕ) (db : Db) :
    (insertTx c name v).exec db = .error .database := by
  by_cases hrefused : c.Refused name (v + 1) db
  · simp [insertTx, Program.exec, insertVersion, hrefused]
  · simp [insertTx, Program.exec, insertVersion, hrefused, auditTx, insertVersionAudit,
      VersionCall.recordVersion, Except.map, Except.isOk, Except.toBool]

/-- The definition of the call is one of the versions. -/
theorem VersionCall.exists_max {c : VersionCall} {db : Db} {name : String}
    (h : c.name db = some name) : ∃ v, (db.versions (c.tenantId, name)).max? = some v := by
  obtain ⟨d, hfind, rfl⟩ := Option.map_eq_some_iff.1 h
  have hp := List.find?_some hfind
  have htenant : d.tenantId = c.tenantId := (of_decide_eq_true hp).2
  have hmem : d.version ∈ db.versions (c.tenantId, d.name) := List.mem_map_of_mem
    (List.mem_filter.2 ⟨List.mem_of_find?_eq_some hfind, decide_eq_true ⟨htenant, rfl⟩⟩)
  exact Option.isSome_iff_exists.1 (List.isSome_max?_of_ne_nil (List.ne_nil_of_mem hmem))

/-- Alone, the statements are `createVersion`. -/
theorem createVersionTx_exec (c : VersionCall) (db : Db) :
    (createVersionTx c).exec db =
      (createVersion c.env c.tenantId c.userId c.definitionId c.dag db).map Prod.snd := by
  unfold createVersionTx
  cases hvalid : validateDAG c.dag with
  | error e =>
    simp only [createVersion, hvalid]
    rfl
  | ok order =>
    cases hfind : db.workflowDefinitions.find? fun d =>
        d.id = c.definitionId ∧ d.tenantId = c.tenantId with
    | none =>
      simp only [nameTx, Program.exec, selectName, VersionCall.name, createVersion, hvalid, hfind]
      rfl
    | some d =>
      have hname : c.name db = some d.name := by rw [VersionCall.name, hfind, Option.map_some]
      obtain ⟨v, hmax⟩ := VersionCall.exists_max hname
      simp only [nameTx, Program.exec, selectName, hname, selectTx, selectVersion,
        filter_max?_versions hmax, insertTx_exec, createVersion_eq_error hvalid hfind hmax]
      rfl

/-! ## Where a call stands -/

/-- The stages of a call that finds the name `name` and the largest version `v` in `db`. -/
inductive VersionStage (c : VersionCall) (name : String) (db : Db) (v : ℕ) : VersionTx → Prop
  | naming : VersionStage c name db v ⟨nameTx c, id, none, [], 0, none⟩
  | named : VersionStage c name db v ⟨nameTx c, id, some (db, []), [], 0, none⟩
  | reading : VersionStage c name db v ⟨selectTx c name, id, none, [], 1, none⟩
  /-- In the locking `SELECT`, which waits for the row. -/
  | waiting : VersionStage c name db v
      ⟨selectTx c name, id, some (db, [.row (c.tenantId, name) v]), [], 1, none⟩
  | locked : VersionStage c name db v
      ⟨selectTx c name, id, some (db, []), [.row (c.tenantId, name) v], 1, none⟩
  | inserting : VersionStage c name db v
      ⟨insertTx c name v, id, none, [.row (c.tenantId, name) v], 2, none⟩
  /-- In the insert, which waits for the entry of the index. -/
  | queued : VersionStage c name db v
      ⟨insertTx c name v, id, some (db, [.entry (c.tenantId, name) (v + 1)]),
        [.row (c.tenantId, name) v], 2, none⟩
  | admitted : VersionStage c name db v
      ⟨insertTx c name v, id, some (db, []),
        [.entry (c.tenantId, name) (v + 1), .row (c.tenantId, name) v], 2, none⟩
  /-- The row of the new version is inserted. -/
  | inserted (running : Option Db) : VersionStage c name db v
      ⟨auditTx c (c.definition name (v + 1)), c.insertRow name (v + 1), running.map (·, []),
        [.entry (c.tenantId, name) (v + 1), .row (c.tenantId, name) v], 3, none⟩
  | refused (writes : Db → Db) (n : ℕ) : VersionStage c name db v
      ⟨.rollback .database, writes, none,
        [.entry (c.tenantId, name) (v + 1), .row (c.tenantId, name) v], n, none⟩
  | ended (writes : Db → Db) (n : ℕ) : VersionStage c name db v
      ⟨.rollback .database, writes, none, [], n, some (.error .database)⟩

namespace VersionStage

variable {c : VersionCall} {name : String} {db : Db} {v : ℕ} {t : VersionTx}

theorem start (h : VersionStage c name db v t)
    (hmax : (db.versions (c.tenantId, name)).max? = some v) (hst : t.rest.isStmt = true)
    (hrun : t.running = none) : VersionStage c name db v (t.start db) := by
  cases h with
  | naming => exact .named
  | reading =>
    have hlocks : (selectVersion (c.tenantId, name)).locks db = [.row (c.tenantId, name) v] := by
      simp [selectVersion, hmax]
    simp only [ReadCommitted.Tx.start, selectTx, id, hlocks]
    exact .waiting
  | inserting => exact .queued
  | inserted => exact .inserted (some _)
  | refused | ended => cases hst
  | _ => cases hrun

theorem lock (h : VersionStage c name db v t) {snap : Db} {r : VersionLock} {rs : List VersionLock}
    (hrun : t.running = some (snap, r :: rs)) : VersionStage c name db v t.lock := by
  cases h with
  | waiting => exact .locked
  | queued => exact .admitted
  | inserted running => cases running <;> cases hrun
  | _ => cases hrun

theorem finish (h : VersionStage c name db v t) (hname : c.name db = some name)
    (hmax : (db.versions (c.tenantId, name)).max? = some v) {snap : Db}
    (hrun : t.running = some (snap, [])) : VersionStage c name db v (t.finish db) := by
  cases h with
  | named =>
    simp only [ReadCommitted.Tx.finish, nameTx, selectName, hname]
    exact .reading
  | locked =>
    simp only [ReadCommitted.Tx.finish, selectTx, selectVersion, id, filter_max?_versions hmax]
    exact .inserting
  | admitted =>
    by_cases hrefused : c.Refused name (v + 1) db
    · simp only [ReadCommitted.Tx.finish, insertTx, insertVersion, id, hrefused, if_true]
      exact .refused _ _
    · simp only [ReadCommitted.Tx.finish, insertTx, insertVersion, id, hrefused, if_false]
      exact .inserted none
  | inserted running =>
    cases running with
    | none => cases hrun
    | some snap => exact .refused _ _
  | _ => cases hrun

theorem close (h : VersionStage c name db v t) (hst : t.rest.isStmt = false)
    (hout : t.outcome = none) :
    t.rest = .rollback .database ∧ VersionStage c name db v t.close := by
  cases h with
  | refused writes n => exact ⟨rfl, .ended writes n⟩
  | ended => cases hout
  | _ => cases hst

/-- A call that holds an entry of the index holds the row of the version before. -/
theorem row_of_entry (h : VersionStage c name db v t) {key : ℕ × String} {w : ℕ}
    (hmem : .entry key (w + 1) ∈ t.held) : .row key w ∈ t.held := by
  cases h <;> simp_all

theorem outcome_eq (h : VersionStage c name db v t) {outcome : Except StoreError Unit}
    (hout : t.outcome = some outcome) : outcome = .error .database := by
  cases h with
  | ended => exact (Option.some.inj hout).symm
  | _ => cases hout

end VersionStage

/-! ## All calls -/

/-- The call has a valid DAG and names a definition of its tenant. -/
structure VersionCall.On (c : VersionCall) (db : Db) : Prop where
  valid : validateDAG c.dag = .ok ()
  named : ∃ name, c.name db = some name

section Calls

variable {ι : Type*} [DecidableEq ι]

/-- The calls between their steps. -/
abbrev VersionSystem (ι : Type*) := System ι Db VersionLock VersionResult StoreError

/-- The calls before their first statements. -/
def versionInit (calls : ι → VersionCall) (db₀ : Db) : VersionSystem ι :=
  .init db₀ fun i => createVersionTx (calls i)

/-- The calls under READ COMMITTED. -/
abbrev versionCalls (ι : Type*) [DecidableEq ι] : Machine (VersionSystem ι) (Action ι) :=
  readCommitted ι Db VersionLock VersionResult StoreError

/-- Each call is at a stage, and none has committed. -/
structure Versioning (calls : ι → VersionCall) (db₀ : Db) (names : ι → String) (tops : ι → ℕ)
    (s : VersionSystem ι) : Prop where
  db : s.db = db₀
  committed : s.committed = []
  stage : ∀ i, VersionStage (calls i) (names i) db₀ (tops i) (s.tx i)
  exclusive : ReadCommitted.Exclusive s

namespace Versioning

variable {calls : ι → VersionCall} {db₀ : Db} {names : ι → String} {tops : ι → ℕ}
  {s : VersionSystem ι} {i : ι}

/-- A call takes a step of its own. -/
theorem set (h : Versioning calls db₀ names tops s) {t : VersionTx}
    (hstage : VersionStage (calls i) (names i) db₀ (tops i) t)
    (hexclusive : ReadCommitted.Exclusive (s.set i t)) :
    Versioning calls db₀ names tops (s.set i t) := by
  refine ⟨h.db, h.committed, fun j => ?_, hexclusive⟩
  by_cases hji : j = i
  · subst hji
    rwa [set_tx_self]
  · rw [set_tx_of_ne hji]
    exact h.stage j

theorem next (h : Versioning calls db₀ names tops s)
    (hnames : ∀ i, (calls i).name db₀ = some (names i))
    (htops : ∀ i, (db₀.versions ((calls i).tenantId, names i)).max? = some (tops i))
    {a : Action ι} (ha : s.Enabled a) : Versioning calls db₀ names tops (s.next a) := by
  have hexclusive := h.exclusive.next ha
  cases a with
  | start i =>
    obtain ⟨-, hrun⟩ := enabled_start ha
    refine h.set ?_ hexclusive
    rw [h.db]
    exact (h.stage i).start (htops i) ha.1 hrun
  | lock i =>
    obtain ⟨snap, r, rs, hrun, -⟩ := enabled_lock ha
    exact h.set ((h.stage i).lock hrun) hexclusive
  | finish i =>
    obtain ⟨snap, hrun⟩ := enabled_finish ha
    refine h.set ?_ hexclusive
    rw [h.db]
    exact (h.stage i).finish (hnames i) (htops i) hrun
  | close i =>
    obtain ⟨hrest, hstage⟩ := (h.stage i).close ha.1 (enabled_close ha).1
    rw [next_close_rollback hrest] at hexclusive ⊢
    exact h.set hstage hexclusive

omit [DecidableEq ι] in
/-- A call that has locked its row goes on. -/
theorem enabled_of_held (h : Versioning calls db₀ names tops s) {r : VersionLock}
    (hr : r ∈ (s.tx i).held) : ∃ a, s.Enabled a := by
  have hstage := h.stage i
  generalize hi : s.tx i = t at hstage hr
  cases hstage with
  | locked | admitted => exact ⟨.finish i, by simp [System.Enabled, hi]⟩
  | inserting => exact ⟨.start i, by simp [System.Enabled, hi, insertTx, Program.isStmt]⟩
  | queued =>
    refine ⟨.lock i, .entry ((calls i).tenantId, names i) (tops i + 1), by simp [hi],
      fun j hji hj => ?_⟩
    exact hji (h.exclusive _ j i ((h.stage j).row_of_entry hj) (by simp [hi]))
  | inserted running =>
    cases running with
    | none => exact ⟨.start i, by simp [System.Enabled, hi, auditTx, Program.isStmt]⟩
    | some snap => exact ⟨.finish i, by simp [System.Enabled, hi]⟩
  | refused => exact ⟨.close i, by simp [System.Enabled, hi, Program.isStmt]⟩
  | _ => simp at hr

omit [DecidableEq ι] in
/-- There is no deadlock. -/
theorem exists_enabled (h : Versioning calls db₀ names tops s) (hout : (s.tx i).outcome = none) :
    ∃ a, s.Enabled a := by
  by_cases hheld : (s.tx i).held = []
  · have hstage := h.stage i
    generalize hi : s.tx i = t at hstage hout hheld
    cases hstage with
    | naming => exact ⟨.start i, by simp [System.Enabled, hi, nameTx, Program.isStmt]⟩
    | named => exact ⟨.finish i, by simp [System.Enabled, hi]⟩
    | reading => exact ⟨.start i, by simp [System.Enabled, hi, selectTx, Program.isStmt]⟩
    | waiting =>
      by_cases hfree : ∀ j, j ≠ i → .row ((calls i).tenantId, names i) (tops i) ∉ (s.tx j).held
      · exact ⟨.lock i, _, by simp [hi], hfree⟩
      · push Not at hfree
        obtain ⟨j, -, hj⟩ := hfree
        exact h.enabled_of_held hj
    | ended => cases hout
    | _ => simp at hheld
  · obtain ⟨r, hr⟩ := List.exists_mem_of_ne_nil _ hheld
    exact h.enabled_of_held hr

end Versioning

/-- No call of `CreateVersion` commits. Whatever calls on existing workflows are interleaved, and
however, the tables stay as they are, a call that has ended did so with the error of the database,
and as long as one has not ended a call can take a step. -/
theorem createVersion_never_commits (calls : ι → VersionCall) (db₀ : Db)
    (hcalls : ∀ i, (calls i).On db₀) (as : List (Action ι))
    (hv : (versionCalls ι).Valid (versionInit calls db₀) as) {s : VersionSystem ι}
    (hs : s = (versionCalls ι).run (versionInit calls db₀) as) :
    s.db = db₀ ∧ s.committed = [] ∧
      (∀ i outcome, (s.tx i).outcome = some outcome → outcome = .error .database) ∧
      ∀ i, (s.tx i).outcome = none → ∃ a, s.Enabled a := by
  choose names hnames using fun i => (hcalls i).named
  choose tops htops using fun i => VersionCall.exists_max (hnames i)
  have hinit : Versioning calls db₀ names tops (versionInit calls db₀) := by
    refine ⟨rfl, rfl, fun i => ?_, exclusive_init _ _⟩
    simp only [versionInit, System.init, createVersionTx, (hcalls i).valid]
    exact .naming
  have h : Versioning calls db₀ names tops s := by
    rw [hs]
    exact (versionCalls ι).invariant (fun s a hs ha => hs.next hnames htops ha) hinit hv
  exact ⟨h.db, h.committed, fun i outcome => (h.stage i).outcome_eq, fun i => h.exists_enabled⟩

end Calls

/-! ## Fixed calls -/

/-- A call for a version of the calm workflow. -/
def calmVersion (i : Bool) : VersionCall :=
  ⟨Env.at 0 (i.toNat + 2), 1, none, 1, calmDag⟩

theorem on_calmVersion (i : Bool) : (calmVersion i).On (.ofDefinition calmDefinition) where
  valid := show validateDAG calmDag = .ok () by decide
  named := ⟨"calm", rfl⟩

/-- The steps of a call that nothing delays. -/
def inOneGo : List (Action Unit) :=
  [.start (), .finish (), .start (), .lock (), .finish (), .start (), .lock (), .finish (),
    .start (), .finish (), .close ()]

/-- A call with a valid graph and no other call at the same time fails, and the definition stays
the only one. -/
theorem lone_version_refused :
    (calmVersion true).On (.ofDefinition calmDefinition) ∧
      (versionCalls Unit).Valid
        (versionInit (fun _ => calmVersion true) (.ofDefinition calmDefinition)) inOneGo ∧
      (((versionCalls Unit).run
        (versionInit (fun _ => calmVersion true) (.ofDefinition calmDefinition)) inOneGo).tx
          ()).outcome = some (.error .database) ∧
      ((versionCalls Unit).run
        (versionInit (fun _ => calmVersion true) (.ofDefinition calmDefinition))
          inOneGo).db.versions (1, "calm") = [1] := by
  refine ⟨on_calmVersion true, ?_, ?_, ?_⟩ <;> decide +kernel

/-- The second call starts its locking `SELECT` while the first holds the row. -/
def overlapping : List (Action Bool) :=
  [.start false, .finish false, .start true, .finish true, .start false, .lock false, .start true,
    .finish false, .start false, .lock false, .finish false, .start false, .finish false,
    .close false, .lock true, .finish true, .start true, .lock true, .finish true, .start true,
    .finish true, .close true]

theorem createVersion_never_commits_overlapping :
    (versionCalls Bool).Valid (versionInit calmVersion (.ofDefinition calmDefinition))
        overlapping ∧
      (((versionCalls Bool).run (versionInit calmVersion (.ofDefinition calmDefinition))
        overlapping).tx false).outcome = some (.error .database) ∧
      (((versionCalls Bool).run (versionInit calmVersion (.ofDefinition calmDefinition))
        overlapping).tx true).outcome = some (.error .database) := by
  have hv : (versionCalls Bool).Valid (versionInit calmVersion (.ofDefinition calmDefinition))
      overlapping := by decide +kernel
  have hended : ∀ i, (((versionCalls Bool).run
      (versionInit calmVersion (.ofDefinition calmDefinition)) overlapping).tx i).outcome.isSome :=
    by decide +kernel
  have h := createVersion_never_commits calmVersion (.ofDefinition calmDefinition) on_calmVersion
    overlapping hv rfl
  have houtcome : ∀ i, (((versionCalls Bool).run
      (versionInit calmVersion (.ofDefinition calmDefinition)) overlapping).tx i).outcome =
        some (.error .database) := by
    intro i
    obtain ⟨outcome, hout⟩ := Option.isSome_iff_exists.1 (hended i)
    rw [hout, h.2.2.1 i outcome hout]
  exact ⟨hv, houtcome false, houtcome true⟩

end RunMesh
