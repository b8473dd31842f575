import RunMesh.Mediation

/-!
# The service refines the control plane

The results on the control plane are about the machine of `RunMesh.Calls`, whose steps are single
operations of the store. The service of `RunMesh.Traffic` does more : requests are authenticated
and checked, a handler runs several transactions with others in between, artifacts are uploaded
and completed, keys are made, and most of that is not an operation of the store.

Still, if the clock does not go back, the tables the service reaches are tables the control plane
reaches, but for rows of the audit log (`service_refines_control_plane`). The operations do not
look at the audit log, nor at artifacts unless they name one (`exec_reframe`), and a run that takes
its input from an artifact finds it if the control plane had it all along. So the invariant is that
the tables are reached with any artifacts that are not in use yet (`Db.Attained`).
-/

namespace RunMesh

open Fallible Handler

variable {env : Env} {db db' : Db}

/-! ## What operations do not look at -/

/-- Other artifacts, and more rows at the start of the audit log. -/
def Db.reframe (artifacts : List Artifact) (log : List AuditEvent) (db : Db) : Db :=
  { db with artifacts := artifacts, auditEvents := log ++ db.auditEvents }

/-- The operation does not name an artifact. -/
def Op.bare : Op → Bool
  | createRun _ _ _ _ _ (some _) => false
  | _ => true

section Operations

variable (artifacts : List Artifact) (log : List AuditEvent)

theorem recoverExpired_reframe (scan : Scan) :
    recoverExpired env scan (db.reframe artifacts log) =
      (recoverExpired env scan db).reframe artifacts log := by
  have hfold : ∀ (es : List ((TaskRun × Run) × ℕ)) (db : Db),
      es.foldl (recoverLease env) (db.reframe artifacts log) =
        (es.foldl (recoverLease env) db).reframe artifacts log := by
    intro es
    induction es with
    | nil => exact fun _ => rfl
    | cons e es ih => exact fun db => ih (recoverLease env db e)
  exact hfold _ db

theorem dispatchReady_reframe (scan : Scan) :
    dispatchReady env scan (db.reframe artifacts log) =
      (dispatchReady env scan db).reframe artifacts log := by
  have hstep : ∀ (st : Db × ℕ) (e : TaskRun × Run),
      dispatchTask env (st.1.reframe artifacts log, st.2) e =
        ((dispatchTask env st e).1.reframe artifacts log, (dispatchTask env st e).2) := by
    intro st e
    by_cases hready : st.1.taskRuns.countP (isReady e.1.id) = 1
    · simp only [dispatchTask, Db.reframe, hready, if_true]
    · simp only [dispatchTask, Db.reframe, hready, if_false]
  have hfold : ∀ (es : List (TaskRun × Run)) (st : Db × ℕ),
      es.foldl (dispatchTask env) (st.1.reframe artifacts log, st.2) =
        ((es.foldl (dispatchTask env) st).1.reframe artifacts log,
          (es.foldl (dispatchTask env) st).2) := by
    intro es
    induction es with
    | nil => exact fun _ => rfl
    | cons e es ih =>
      intro st
      rw [List.foldl_cons, hstep, ih, List.foldl_cons]
  exact congrArg Prod.fst (hfold _ (db, 0))

theorem insertRun_reframe {user : Option ℕ} {run : Run} {dag : DAG} :
    insertRun env user none run dag (db.reframe artifacts log) =
      (insertRun env user none run dag db).map (Db.reframe artifacts log) := by
  unfold insertRun
  simp only [attachInputArtifact, ok_bind]
  refine bind_eq_map_bind fun _ _ => bind_eq_map_bind fun _ _ => ?_
  simp [Db.reframe, Except.map, pure, Except.pure]

/-- The rest of an operation that appends to the audit log. -/
theorem map_map_reframe {α : Type} {x y : Except StoreError (α × Db)} {k : α → Reply}
    (h : y = x.map (Prod.map id (Db.reframe artifacts log))) :
    (y.map fun r => (k r.1, r.2)) =
      (x.map fun r => (k r.1, r.2)).map (Prod.map id (Db.reframe artifacts log)) := by
  rw [h]
  cases x <;> rfl

theorem map_done_reframe {x y : Except StoreError Db}
    (h : y = x.map (Db.reframe artifacts log)) :
    (y.map fun db => (Reply.done, db)) =
      (x.map fun db => (Reply.done, db)).map (Prod.map id (Db.reframe artifacts log)) := by
  rw [h]
  cases x <;> rfl

/-- An operation that names no artifact does not look at the artifacts or at the log. -/
theorem exec_reframe {op : Op} (hop : op.bare = true) :
    op.exec env (db.reframe artifacts log) =
      (op.exec env db).map (Prod.map id (Db.reframe artifacts log)) := by
  cases op with
  | createWorkflow =>
    refine map_map_reframe artifacts log (k := Reply.definition) (bind_eq_map_bind fun _ _ =>
      bind_eq_map_bind fun _ _ => bind_eq_map_bind fun _ _ => ?_)
    simp [Db.reframe, Except.map, pure, Except.pure]
  | createVersion =>
    exact map_map_reframe artifacts log (k := Reply.definition) (bind_eq_map_bind fun _ _ =>
      bind_eq_map_bind fun _ _ => bind_eq_map_bind fun _ _ => bind_eq_map_bind fun _ _ => rfl)
  | createRun tenantId userId definitionId key input artifactId =>
    cases artifactId with
    | some id => cases hop
    | none =>
      refine map_map_reframe artifacts log (k := fun r : Run × Bool => Reply.run r.1 r.2)
        (bind_eq_map_bind fun _ _ => bind_eq_map_bind fun _ _ => bind_eq_map_bind fun _ _ => ?_)
      dsimp only
      split <;> rename_i hkey
      · rw [show db.workflowRuns.find? _ = _ from hkey]
        rfl
      · rw [show db.workflowRuns.find? _ = _ from hkey]
        dsimp only
        rw [insertRun_reframe]
        exact map_bind_eq_map_bind fun _ _ => rfl
  | promoteRetries => rfl
  | recoverExpired scan =>
    exact congrArg (fun db => Except.ok (Reply.done, db))
      (recoverExpired_reframe artifacts log scan)
  | dispatchReady scan =>
    exact congrArg (fun db => Except.ok (Reply.done, db)) (dispatchReady_reframe artifacts log scan)
  | leaseTask taskId workerId duration =>
    refine map_map_reframe artifacts log
      (k := fun r : TaskRun × Option String => Reply.leased r.1 r.2)
      (bind_eq_map_bind fun _ _ => bind_eq_map_bind fun _ _ => bind_eq_map_bind fun _ _ => rfl)
  | heartbeatTask taskId workerId duration =>
    exact map_map_reframe artifacts log (k := fun r : ℤ × Bool => Reply.heartbeat r.1 r.2)
      (bind_eq_map_bind fun _ _ => rfl)
  | startTask | completeTask =>
    exact map_map_reframe artifacts log (k := Reply.task) (bind_eq_map_bind fun _ _ =>
      bind_eq_map_bind fun _ _ => bind_eq_map_bind fun _ _ => rfl)
  | failTask taskId workerId failure =>
    exact map_map_reframe artifacts log (k := Reply.task) (bind_eq_map_bind fun _ _ =>
      bind_eq_map_bind fun _ _ => rfl)
  | cancelRun tenantId userId id =>
    have h : cancelRun env tenantId userId id (db.reframe artifacts log) =
        (cancelRun env tenantId userId id db).map (Db.reframe artifacts log) := by
      dsimp only [cancelRun, Db.reframe]
      split_ifs
      · rw [List.append_assoc]
        rfl
      · rfl
      · rfl
    exact map_done_reframe artifacts log h
  | retryRun tenantId userId id =>
    refine map_done_reframe artifacts log
      (bind_eq_map_bind fun _ _ => bind_eq_map_bind fun _ _ => ?_)
    simp [Db.reframe, Except.map, pure, Except.pure]
  | replayDead tenantId userId taskId =>
    have hrebuild : rebuild env (db.reframe artifacts log) = rebuild env db := rfl
    refine map_done_reframe artifacts log (bind_eq_map_bind fun _ _ => ?_)
    dsimp only
    rw [hrebuild]
    simp [Db.reframe, Except.map, pure, Except.pure]

end Operations

/-- Operations write artifacts and the log only if they name an artifact. -/
theorem exec_framed {op : Op} (hop : op.bare = true) {reply : Reply}
    (h : op.exec env db = .ok (reply, db')) : db'.artifacts = db.artifacts ∧
      ∀ artifacts log, ∃ log',
        op.exec env { db with artifacts := artifacts, auditEvents := log } =
          .ok (reply, { db' with artifacts := artifacts, auditEvents := log' }) := by
  -- the tables are those without artifacts and log, reframed
  let bare : Db := { db with artifacts := [], auditEvents := [] }
  have hframed : ∀ artifacts log,
      op.exec env { db with artifacts := artifacts, auditEvents := log } =
      (op.exec env bare).map (Prod.map id (Db.reframe artifacts log)) := by
    intro artifacts log
    rw [← exec_reframe artifacts log hop]
    simp only [Db.reframe, bare, List.append_nil]
  have hself := hframed db.artifacts db.auditEvents
  rw [show op.exec env _ = _ from h] at hself
  obtain ⟨⟨reply', db₀⟩, hok, heq⟩ := map_eq_ok.1 hself.symm
  cases heq
  refine ⟨rfl, fun artifacts log => ⟨log ++ db₀.auditEvents, ?_⟩⟩
  rw [hframed, hok]
  rfl

/-! ## Tables the control plane reaches -/

/-- Artifacts that could be in the place of those of the tables : the rows of those that are in
use are among them. -/
structure Db.Fits (db : Db) (artifacts : List Artifact) : Prop where
  ids : (artifacts.map Artifact.id).Nodup
  used : ∀ a ∈ db.artifacts, a.status = .ready → a.workflowRunId ≠ none → a ∈ artifacts

/-- With any artifacts that fit, the control plane reaches the tables by the time `now`, but for the
audit log. -/
def Db.Attained (now : ℤ) (db : Db) : Prop :=
  ∀ artifacts, db.Fits artifacts → ∃ log clock, clock ≤ now ∧
    Reachable ⟨{ db with artifacts := artifacts, auditEvents := log }, clock⟩

section Attained

variable {now : ℤ}

theorem Db.Attained.mono {later : ℤ} (h : db.Attained now) (hle : now ≤ later) :
    db.Attained later := by
  intro artifacts hfits
  obtain ⟨log, clock, hclock, hreach⟩ := h artifacts hfits
  exact ⟨log, clock, hclock.trans hle, hreach⟩

/-- Uploads and completions leave the artifacts that are in use. -/
theorem Db.Attained.artifacts (h : db.Attained now) {rows : List Artifact}
    (hkept : ∀ a ∈ db.artifacts, a.status = .ready → a ∈ rows) :
    Db.Attained now { db with artifacts := rows } := by
  intro artifacts hfits
  exact h artifacts ⟨hfits.ids, fun a ha hready => hfits.used a (hkept a ha hready) hready⟩

/-- An operation on tables that are reached. -/
theorem Reachable.exec {clock : ℤ} {op : Op} {reply : Reply} (h : Reachable ⟨db, clock⟩)
    (hclock : clock ≤ env.now) (hf : db.Fresh env) (hok : op.exec env db = .ok (reply, db')) :
    Reachable ⟨db', env.now⟩ := by
  have hafter : (⟨env, op⟩ : Call).after db = db' := Call.after_of_ok hok
  have hnext := h.next (c := ⟨env, op⟩) ⟨hclock, hf⟩
  rwa [controlPlane_next, hafter] at hnext

theorem Db.Attained.exec_bare (h : db.Attained now) (hnow : now ≤ env.now) (hf : db.Fresh env)
    {op : Op} (hop : op.bare = true) {reply : Reply} (hok : op.exec env db = .ok (reply, db')) :
    db'.Attained env.now := by
  obtain ⟨hartifacts, hframed⟩ := exec_framed hop hok
  intro artifacts hfits
  obtain ⟨log, clock, hclock, hreach⟩ := h artifacts ⟨hfits.ids, hartifacts ▸ hfits.used⟩
  obtain ⟨log', hok'⟩ := hframed artifacts log
  exact ⟨log', env.now, le_refl _, hreach.exec (hclock.trans hnow) ⟨hf.notMem, hf.injective⟩ hok'⟩

end Attained

/-! ## Inputs from artifacts -/

section Attach

variable {id runId : ℕ} {artifacts artifacts' : List Artifact} {a : Artifact}

/-- The artifact with the id, attached to the run. -/
def attached (id runId : ℕ) : List Artifact → List Artifact :=
  Table.update (fun a => a.id = id) fun a => { a with workflowRunId := some runId }

/-- The artifact with the id, before it is attached. -/
def detached (id : ℕ) : List Artifact → List Artifact :=
  Table.update (fun a => a.id = id) fun a => { a with workflowRunId := none }

theorem map_id_detached :
    (detached id artifacts).map Artifact.id = artifacts.map Artifact.id := by
  rw [detached, Table.map_update]
  exact fun _ => rfl

/-- An artifact that is not in use can be attached. -/
theorem attachInputArtifact_of_free (hids : (artifacts.map Artifact.id).Nodup)
    (ha : a ∈ artifacts) (hfree : a.workflowRunId = none) :
    attachInputArtifact (some a.id) runId artifacts = .ok (attached a.id runId artifacts) := by
  have hp : decide (a.id = a.id ∧ a.workflowRunId = none) = true := decide_eq_true ⟨rfl, hfree⟩
  have hcount : artifacts.countP (fun b => decide (b.id = a.id ∧ b.workflowRunId = none)) = 1 :=
    Table.countP_eq_one (List.Nodup.of_map _ hids) ha hp fun b hb hbp =>
      Table.eq_of_key hids hb ha (of_decide_eq_true hbp).1
  simp only [attachInputArtifact, hcount, if_true]
  rw [Table.update_eq_of_key hids ha hp fun b _ hbp => (of_decide_eq_true hbp).1]
  rfl

/-- An artifact that was attached was not in use. -/
theorem free_of_attachInputArtifact (hids : (artifacts.map Artifact.id).Nodup)
    (ha : a ∈ artifacts) (h : attachInputArtifact (some a.id) runId artifacts = .ok artifacts') :
    a.workflowRunId = none ∧ artifacts' = attached a.id runId artifacts := by
  have hfree : a.workflowRunId = none := by
    simp only [attachInputArtifact] at h
    split_ifs at h with hcount
    obtain ⟨b, hb, hbp⟩ := List.countP_pos_iff.1 (hcount ▸ Nat.one_pos)
    rw [← Table.eq_of_key hids hb ha (of_decide_eq_true hbp).1]
    exact (of_decide_eq_true hbp).2
  rw [attachInputArtifact_of_free hids ha hfree] at h
  exact ⟨hfree, (Except.ok.inj h).symm⟩

/-- What is attached can be detached, and attached again. -/
theorem attached_detached (hids : (artifacts.map Artifact.id).Nodup) (ha : a ∈ artifacts)
    (hrun : a.workflowRunId = some runId) : attached a.id runId (detached a.id artifacts) =
      artifacts := by
  rw [attached, detached, Table.update, Table.update, List.map_map]
  refine (List.map_congr_left fun b hb => ?_).trans (List.map_id' _)
  by_cases hid : b.id = a.id
  · obtain rfl := Table.eq_of_key hids hb ha hid
    simp [← hrun]
  · simp [hid]

/-- A run that takes its input from an artifact does so with any artifacts that have this one. -/
theorem createRun_takes {tenant definitionId : ℕ} {user : Option ℕ} {key input : String}
    {r : Run × Bool} (hids : (db.artifacts.map Artifact.id).Nodup)
    (h : createRun env tenant user definitionId key input (some id) db = .ok (r, db')) :
    db' = db ∨ ∃ a ∈ db.artifacts, a.id = id ∧ a.status = .ready ∧ a.workflowRunId = none ∧
      db'.artifacts = attached id (env.uuid 0) db.artifacts ∧
      ∀ artifacts log, (artifacts.map Artifact.id).Nodup → a ∈ artifacts → ∃ log',
        createRun env tenant user definitionId key input (some id)
          { db with artifacts := artifacts, auditEvents := log } = .ok (r, { db' with
            artifacts := attached id (env.uuid 0) artifacts, auditEvents := log' }) := by
  simp only [createRun, selectInputArtifact, bind_eq_ok, orError_eq_ok, require_eq_ok,
    Option.map_eq_some_iff] at h
  obtain ⟨-, hkey, uri, ⟨a, hfind, rfl⟩, d, hd, h⟩ := h
  have ha := List.mem_of_find?_eq_some hfind
  have hp := List.find?_some hfind
  simp only [decide_eq_true_eq] at hp
  split at h
  · cases h
    exact .inl rfl
  · rename_i hnew
    simp only [insertRun, bind_eq_ok, require_eq_ok] at h
    obtain ⟨db₁, ⟨rows, hattach, -, htasks, -, hdeps, hdb⟩, hout⟩ := h
    cases hdb
    cases hout
    obtain rfl := hp.1
    obtain ⟨hfree, rfl⟩ := free_of_attachInputArtifact hids ha hattach
    refine .inr ⟨a, ha, rfl, hp.2.2.2, hfree, rfl, fun artifacts log hids' ha' =>
      ⟨log ++ [newAuditEvent env tenant user "run.create" "workflow_run" (env.uuid 0)], ?_⟩⟩
    have hfind' : artifacts.find? (fun b => decide (b.id = a.id ∧ b.tenantId = tenant ∧
        b.kind = .input ∧ b.status = .ready)) = some a :=
      Table.find?_of_key hids' ha' (decide_eq_true hp) fun b _ hb => (of_decide_eq_true hb).1
    simp only [createRun, selectInputArtifact, hfind', Option.map_some, hd, hnew, orError,
      ok_bind, insertRun]
    rw [show (newRun env tenant d key input a.objectUri).id = env.uuid 0 from rfl,
      attachInputArtifact_of_free hids' ha' hfree]
    simp only [require, hkey, htasks, hdeps, if_true, ok_bind]
    rfl

end Attach

theorem Db.Attained.createRun {now : ℤ} (h : db.Attained now) (hnow : now ≤ env.now)
    (hf : db.Fresh env) (hids : (db.artifacts.map Artifact.id).Nodup)
    {tenant definitionId id : ℕ} {user : Option ℕ} {key input : String} {reply : Reply}
    (hok : (Op.createRun tenant user definitionId key input (some id)).exec env db =
      .ok (reply, db')) : db'.Attained env.now := by
  obtain ⟨⟨r, db₁⟩, hcreate, heq⟩ := map_eq_ok.1 hok
  cases heq
  rcases createRun_takes hids hcreate with rfl | ⟨a, ha, rfl, hready, hfree, hrows, htakes⟩
  · exact h.mono hnow
  intro artifacts hfits
  -- the artifact is attached after the run, and was not before
  have ha' : { a with workflowRunId := some (env.uuid 0) } ∈ artifacts := by
    refine hfits.used _ ?_ hready (by simp)
    rw [hrows]
    exact Table.mem_update.2 ⟨a, ha, by simp⟩
  have hmem : a ∈ detached a.id artifacts :=
    Table.mem_update.2 ⟨_, ha', by simp [← hfree]⟩
  have hids' : ((detached a.id artifacts).map Artifact.id).Nodup := by
    rw [map_id_detached]
    exact hfits.ids
  have hbefore : db.Fits (detached a.id artifacts) := by
    refine ⟨hids', fun b hb hbready hused => ?_⟩
    have hne : b.id ≠ a.id := fun hid => hused (Table.eq_of_key hids hb ha hid ▸ hfree)
    refine Table.mem_update.2 ⟨b, hfits.used b ?_ hbready hused, by simp [hne]⟩
    rw [hrows]
    exact Table.mem_update.2 ⟨b, hb, by simp [hne]⟩
  obtain ⟨log, clock, hclock, hreach⟩ := h _ hbefore
  obtain ⟨log', htake⟩ := htakes _ log hids' hmem
  rw [attached_detached hfits.ids ha' rfl] at htake
  have hexec : (Op.createRun tenant user definitionId key input (some a.id)).exec env
      { db with artifacts := detached a.id artifacts, auditEvents := log } =
        .ok (.run r.1 r.2, { db₁ with artifacts := artifacts, auditEvents := log' }) := by
    simp only [Op.exec, htake, Except.map]
  exact ⟨log', env.now, le_refl _,
    hreach.exec (hclock.trans hnow) ⟨hf.notMem, hf.injective⟩ hexec⟩

/-- Every operation leads to tables that are reached. -/
theorem Db.Attained.exec {now : ℤ} (h : db.Attained now) (hnow : now ≤ env.now)
    (hf : db.Fresh env) (hids : (db.artifacts.map Artifact.id).Nodup) {op : Op} {reply : Reply}
    (hok : op.exec env db = .ok (reply, db')) : db'.Attained env.now := by
  cases hop : op.bare with
  | true => exact h.exec_bare hnow hf hop hok
  | false =>
    cases op with
    | createRun tenant user definitionId key input artifactId =>
      cases artifactId with
      | none => cases hop
      | some id => exact h.createRun hnow hf hids hok
    | _ => cases hop

/-! ## The service -/

section Service

variable {cfg : ApiConfig} {s : Traffic} {now : ℤ}

/-- The transaction leads from tables that are reached to tables that are reached. -/
def Attains (d : Draw) (b b' : Backend) : Prop :=
  ∀ now, b.db.Attained now → now ≤ d.env.now → b.db.Fresh d.env →
    (b.db.artifacts.map Artifact.id).Nodup → b'.db.Attained d.env.now

theorem Touches.attains {p : Principal} {d : Draw} {b b' : Backend} (h : Touches p d b b') :
    Attains d b b' := by
  intro now hb hnow hf hids
  cases h with
  | call hexec => exact hb.exec hnow hf hids hexec
  | artifacts rows _ hkept => exact (hb.artifacts hkept).mono hnow
  | keys t =>
    intro artifacts hfits
    exact hb.mono hnow artifacts ⟨hfits.ids, hfits.used⟩
  | _ => exact hb.mono hnow

/-- The time of what happens, if it has one. -/
def TrafficEvent.time : TrafficEvent → Option ℤ
  | arrive _ d | proceed _ d => some d.env.now
  | background env _ => some env.now
  | reschedule _ | object _ _ => none

/-- The tables are reached by the control plane, and so do requests lead to. -/
structure Traffic.Refines (cfg : ApiConfig) (now : ℤ) (s : Traffic) : Prop where
  sound : s.Sound cfg
  tables : s.backend.db.Attained now
  requests : ∀ f ∈ s.requests, f.code.Within Attains fun _ => True

theorem Traffic.Refines.next (h : s.Refines cfg now) {e : TrafficEvent}
    (he : (traffic cfg).allowed s e) (hnow : ∀ t ∈ e.time, now ≤ t) :
    ((traffic cfg).next s e).Refines cfg (e.time.getD now) := by
  have hids := h.sound.backend.linked.artifacts
  refine ⟨(h.sound.next he).1, ?_, forall_next_within h.requests fun req d p b _ hauth => ?_⟩
  · cases e with
    | arrive req d =>
      have hdb := (req.authenticates h.sound.backend d).db
      simp only [traffic]
      split <;> rename_i hauth <;> rw [hauth] at hdb
      · exact (show _ = _ from hdb) ▸ h.tables.mono (hnow _ rfl)
      · exact (show _ = _ from hdb) ▸ h.tables.mono (hnow _ rfl)
    | proceed n d =>
      cases hn : s.requests[n]? with
      | none =>
        simp only [traffic, hn]
        exact h.tables.mono (hnow _ rfl)
      | some f =>
        have hf := h.requests f (List.mem_of_getElem? hn)
        have hrefl : ∀ d b, Attains d b b := fun _ _ _ hb hnow _ _ => hb.mono hnow
        exact proceed_within hn hf hrefl d now h.tables (hnow _ rfl) he.rows hids
    | background env op =>
      simp only [traffic]
      split
      · rename_i r hexec
        exact h.tables.exec (hnow _ rfl) he.2 hids hexec
      · exact h.tables.mono (hnow _ rfl)
    | reschedule rows => exact h.tables
    | object key content => exact h.tables
  · have hp : (req.authenticate cfg d s.backend).1 = some p := congrArg Prod.fst hauth
    exact (Endpoint.within (Request.admits hp)).mono (fun _ _ _ htouch => htouch.attains)
      fun _ _ => trivial

theorem Traffic.Refines.run {es : List TrafficEvent} (h : s.Refines cfg now)
    (hv : (traffic cfg).Valid s es) (hfrom : ∀ t ∈ es.filterMap TrafficEvent.time, now ≤ t)
    (htimes : (es.filterMap TrafficEvent.time).Pairwise (· ≤ ·)) :
    ((traffic cfg).run s es).Refines cfg
      ((es.filterMap TrafficEvent.time).getLast?.getD now) := by
  induction es generalizing s now with
  | nil => exact h
  | cons e es ih =>
    cases htime : e.time with
    | none =>
      have hnext := h.next hv.1 (by simp [htime])
      rw [htime, Option.getD_none] at hnext
      simp only [List.filterMap_cons, htime] at hfrom htimes ⊢
      exact ih hnext hv.2 hfrom htimes
    | some t =>
      simp only [List.filterMap_cons, htime, List.pairwise_cons] at hfrom htimes ⊢
      have hnext := h.next hv.1 (by simpa [htime] using hfrom t (by simp))
      rw [htime, Option.getD_some] at hnext
      rw [List.getLast?_cons, Option.getD_some]
      exact ih hnext hv.2 htimes.1 htimes.2

end Service

/-- If the clock does not go back, the tables the service reaches are, but for the audit log, tables
the control plane reaches by the time of the last event. -/
theorem service_refines_control_plane {cfg : ApiConfig} {s : Traffic} {es : List TrafficEvent}
    (h : s.Init) (hv : (traffic cfg).Valid s es)
    (htimes : (es.filterMap TrafficEvent.time).Pairwise (· ≤ ·)) :
    ∃ log clock, (∀ t ∈ (es.filterMap TrafficEvent.time).getLast?, clock ≤ t) ∧
      Reachable ⟨{ ((traffic cfg).run s es).backend.db with auditEvents := log }, clock⟩ := by
  have hfrom : ∀ t ∈ es.filterMap TrafficEvent.time,
      (es.filterMap TrafficEvent.time).head?.getD 0 ≤ t := by
    cases htail : es.filterMap TrafficEvent.time with
    | nil => simp
    | cons t ts =>
      rw [htail, List.pairwise_cons] at htimes
      simpa using htimes.1
  have hstart : s.Refines cfg ((es.filterMap TrafficEvent.time).head?.getD 0) := by
    refine ⟨h.sound, fun artifacts _ => ⟨[], _, le_refl _, Init.reachable ?_⟩, fun f hf => ?_⟩
    · exact ⟨h.db.workflowRuns, h.db.taskRuns, h.db.taskDependencies, h.db.taskAttempts,
        h.db.outboxEvents, h.db.accepted⟩
    · simp [h.requests] at hf
  have hend := hstart.run hv hfrom htimes
  obtain ⟨log, clock, hclock, hreach⟩ :=
    hend.tables _ ⟨hend.sound.backend.linked.artifacts, fun a ha _ _ => ha⟩
  refine ⟨log, clock, fun t ht => ?_, hreach⟩
  rwa [Option.mem_def.1 ht, Option.getD_some] at hclock

/-- The history of a task that was served, with an input from an artifact. -/
theorem service_refines_control_plane_servedTask :
    ∃ log clock, clock ≤ 0 ∧ Reachable
      ⟨{ (quietTraffic.after unaryApi Traffic.servedTask).backend.db with auditEvents := log },
        clock⟩ := by
  have htimes : ((Traffic.follow unaryApi quietTraffic Traffic.servedTask).filterMap
      TrafficEvent.time).Pairwise (· ≤ ·) := by
    decide +kernel
  have hlast : 0 ∈ ((Traffic.follow unaryApi quietTraffic Traffic.servedTask).filterMap
      TrafficEvent.time).getLast? := by
    decide +kernel
  obtain ⟨log, clock, hclock, hreach⟩ := service_refines_control_plane init_quietTraffic
    (Traffic.valid_follow Traffic.servedTask quietTraffic) htimes
  exact ⟨log, clock, hclock 0 hlast, hreach⟩

end RunMesh
