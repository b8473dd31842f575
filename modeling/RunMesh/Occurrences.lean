import RunMesh.Creation
import RunMesh.Events
import RunMesh.Firing
import RunMesh.Outbox

/-!
# The occurrences of schedules

Any number of schedulers fire, each call of `fireSchedules` in two parts : the transaction that
advances the due schedules, and the loop that creates their runs, transaction by transaction.
`firing` is that machine, with the other calls of the control plane and of `createSchedule` in
between, with calls of `CreateRun` that fail, and with crashes. The updates inside the row loop
are executed here.

A firing that commits has moved the schedules past the occurrences it read, and only the call
that made it knows them. So an occurrence whose schedule has moved on has its run, or is in the
rest of a loop (`Kept`), as long as no loop is cut short : by a crash, or by an error of
`CreateRun`, which ends the loop for the occurrences behind it as well (`GoesOn`).
-/

namespace RunMesh

open Fallible

/-! ## Schedulers -/

/-- The control plane, the schedules, and the loops of the schedulers. -/
structure Firing where
  plane : State
  schedules : List Schedule
  /-- The occurrences a scheduler has read and not yet created, if it is in its loop. -/
  loops : ℕ → Option (List Schedule)

/-- What can happen. -/
inductive FiringStep
  | call (c : Call)
  | createSchedule (env : Env) (tenantId : ℕ) (req : ScheduleRequest)
  | fire (replica : ℕ) (env : Env) (scan : Scan)
  | create (replica : ℕ) (env : Env) (outcome : Outcome)
  | crash (replica : ℕ)

/-- The call of `CreateRun` for an occurrence. -/
def occurrenceCall (cal : Calendar) (env : Env) (item : Schedule) : Call :=
  ⟨env, .createRun item.tenantId none item.workflowDefinitionId (occurrenceKey cal item)
    "\x7b\x7d" none⟩

namespace Firing

/-- The scheduler goes on with its loop, or is done. -/
def setLoop (s : Firing) (replica : ℕ) (loop : Option (List Schedule)) : Firing :=
  { s with loops := Function.update s.loops replica loop }

/-- The transaction of a firing, by a scheduler that is not in its loop. -/
def fire (cal : Calendar) (s : Firing) (replica : ℕ) (env : Env) (scan : Scan) : Firing :=
  match s.loops replica, fireTx false cal env scan s.schedules with
  | none, .ok (schedules, due) => { s with schedules := schedules }.setLoop replica (some due)
  | _, _ => s

/-- The rest of the loop after the answer to a `CreateRun`. -/
def afterCreate (rest : List Schedule) : Except StoreError (Reply × Db) → Option (List Schedule)
  | .ok _ => some rest
  | .error .conflict => some rest
  | .error _ => none

/-- The next `CreateRun` of a loop, or its end. -/
def create (cal : Calendar) (s : Firing) (replica : ℕ) (env : Env) (outcome : Outcome) : Firing :=
  match s.loops replica with
  | some (item :: rest) =>
    let c := occurrenceCall cal env item
    match outcome with
    | .lost => s.setLoop replica none
    | .unanswered => { s with plane := controlPlane.next s.plane c }.setLoop replica none
    | .answered => { s with plane := controlPlane.next s.plane c }.setLoop replica
        (afterCreate rest (c.exec s.plane.db))
  | some [] => s.setLoop replica none
  | none => s

end Firing

/-- The schedulers as a machine. -/
def firing (cal : Calendar) : Machine Firing FiringStep where
  next s
    | .call c => { s with plane := controlPlane.next s.plane c }
    | .createSchedule env tenantId req =>
      match createSchedule cal env tenantId req s.plane.db s.schedules with
      | .ok r => { s with schedules := r.2 }
      | .error _ => s
    | .fire replica env scan => s.fire cal replica env scan
    | .create replica env outcome => s.create cal replica env outcome
    | .crash replica => s.setLoop replica none
  allowed s
    | .call c => controlPlane.allowed s.plane c
    | .createSchedule env _ _ => env.uuid 0 ∉ s.schedules.map Schedule.id
    | .create _ env _ => s.plane.clock ≤ env.now ∧ s.plane.db.Fresh env
    | _ => True

/-- No run, no schedule, and no scheduler in its loop. -/
structure Firing.Init (s : Firing) : Prop where
  plane : RunMesh.Init s.plane
  schedules : s.schedules = []
  loops : ∀ replica, s.loops replica = none

/-- The run of the occurrence exists. -/
def Db.HasRun (cal : Calendar) (db : Db) (item : Schedule) : Prop :=
  ∃ r ∈ db.workflowRuns, r.tenantId = item.tenantId ∧ r.idempotencyKey = occurrenceKey cal item

/-- A scheduler will create the run of the occurrence. -/
def Firing.Awaits (s : Firing) (item : Schedule) : Prop :=
  ∃ replica rest, s.loops replica = some rest ∧ item ∈ rest

/-- No loop is cut short : a scheduler crashes only outside its loop, and a `CreateRun` is
answered and is of a definition whose priorities fit their column. -/
def FiringStep.GoesOn (s : Firing) : FiringStep → Prop
  | .crash replica => s.loops replica = none ∨ s.loops replica = some []
  | .create replica _ outcome => outcome = .answered ∧
    ∀ item rest, s.loops replica = some (item :: rest) → ∀ d ∈ s.plane.db.workflowDefinitions,
      d.id = item.workflowDefinitionId → ∀ entry ∈ d.dag.tasks, isInteger entry.2.priority = true
  | _ => True

/-! ## The keys of runs -/

variable {cal : Calendar} {env : Env} {op : Op} {db db' : Db} {s : Firing} {item : Schedule}

theorem RunMove.idempotencyKey {r r' : Run} (h : RunMove env db op r r') :
    r'.idempotencyKey = r.idempotencyKey := by
  cases h <;> rfl

/-- The tenant and the key, which are unique together. -/
def Run.tenantKey (r : Run) : ℕ × String :=
  (r.tenantId, r.idempotencyKey)

/-- `CreateRun` creates a run under a new key only. -/
theorem createRun_runs {tenant definitionId : ℕ} {user artifact : Option ℕ} {key input : String}
    {r : Run × Bool}
    (h : createRun env tenant user definitionId key input artifact db = .ok (r, db')) :
    (∃ r' ∈ db'.workflowRuns, r'.tenantKey = (tenant, key)) ∧
      (db'.workflowRuns = db.workflowRuns ∨ ∃ run, db'.workflowRuns = db.workflowRuns ++ [run] ∧
        ∀ q ∈ db.workflowRuns, q.tenantKey ≠ run.tenantKey) := by
  simp only [createRun, bind_eq_ok, orError_eq_ok, require_eq_ok] at h
  obtain ⟨-, -, uri, -, d, -, h⟩ := h
  split at h
  · rename_i existing hfind
    cases h
    have hsame := List.find?_some hfind
    simp only [decide_eq_true_eq] at hsame
    exact ⟨⟨existing, List.mem_of_find?_eq_some hfind, Prod.ext hsame.1 hsame.2⟩, Or.inl rfl⟩
  · rename_i hfind
    simp only [bind_eq_ok] at h
    obtain ⟨db₁, hins, h⟩ := h
    cases h
    obtain ⟨-, -, artifacts, rfl⟩ := insertRun_ok hins
    refine ⟨⟨_, List.mem_append_right _ (List.mem_singleton_self _), rfl⟩, Or.inr ⟨_, rfl, ?_⟩⟩
    intro q hq hsame
    have hne := List.find?_eq_none.1 hfind q hq
    simp only [decide_eq_true_eq] at hne
    exact hne ⟨congrArg Prod.fst hsame, congrArg Prod.snd hsame⟩

/-- A call keeps the keys of the runs, or adds a new one. -/
theorem exec_tenantKey (hk : db.Keyed) {reply : Reply} (h : op.exec env db = .ok (reply, db')) :
    db'.workflowRuns.map Run.tenantKey = db.workflowRuns.map Run.tenantKey ∨
      ∃ key, db'.workflowRuns.map Run.tenantKey = db.workflowRuns.map Run.tenantKey ++ [key] ∧
        key ∉ db.workflowRuns.map Run.tenantKey := by
  rcases exec_moves hk h with hm | ⟨run, dag, hc⟩
  · left
    obtain ⟨f, hf, hmove⟩ := hm.runs
    rw [hf, List.map_map]
    refine List.map_congr_left fun r hr => ?_
    exact Prod.ext (hmove r hr).tenantId (hmove r hr).idempotencyKey
  · obtain ⟨tenant, user, definitionId, key, input, artifact, rfl⟩ := hc.isCreate
    simp only [Op.exec, map_eq_ok, Prod.mk.injEq] at h
    obtain ⟨⟨r, db₁⟩, hok, -, rfl⟩ := h
    rcases (createRun_runs hok).2 with hsame | ⟨run', happ, hnew⟩
    · exact Or.inl (by rw [hsame])
    · refine Or.inr ⟨run'.tenantKey, by rw [happ, List.map_append]; rfl, fun hmem => ?_⟩
      obtain ⟨q, hq, hqk⟩ := List.mem_map.1 hmem
      exact hnew q hq hqk

/-- No two runs of a tenant have the same key. -/
theorem Reachable.nodup_tenantKey {p : State} (h : Reachable p) :
    (p.db.workflowRuns.map Run.tenantKey).Nodup := by
  refine (h.induction (P := fun db => db.WellFormed ∧ (db.workflowRuns.map Run.tenantKey).Nodup)
    (fun _ h0 => ⟨h0.wellFormed, by simp [h0.workflowRuns]⟩) ?_).2
  rintro c db reply db' ⟨hw, hnd⟩ hf hok
  refine ⟨exec_wellFormed hw hf hok, ?_⟩
  rcases exec_tenantKey hw.toKeyed hok with hsame | ⟨key, happ, hnew⟩
  · rwa [hsame]
  · rw [happ]
    exact hnd.append (List.nodup_singleton key) (by simpa using hnew)

/-- The run of an occurrence stays. -/
theorem Db.HasRun.after (h : db.HasRun cal item) (hk : db.Keyed) (c : Call) :
    (c.after db).HasRun cal item := by
  obtain ⟨r, hr, htenant, hkey⟩ := h
  have hmem : r.tenantKey ∈ db.workflowRuns.map Run.tenantKey := List.mem_map_of_mem hr
  have hmem' : r.tenantKey ∈ (c.after db).workflowRuns.map Run.tenantKey := by
    cases hexec : c.exec db with
    | error e => rwa [Call.after_of_error hexec]
    | ok p =>
      obtain ⟨reply, db'⟩ := p
      rw [Call.after_of_ok hexec]
      rcases exec_tenantKey hk hexec with hsame | ⟨key, happ, -⟩
      · rwa [hsame]
      · rw [happ]
        exact List.mem_append_left _ hmem
  obtain ⟨r', hr', hsame⟩ := List.mem_map.1 hmem'
  exact ⟨r', hr', (congrArg Prod.fst hsame).trans htenant, (congrArg Prod.snd hsame).trans hkey⟩

/-! ## Definitions stay -/

/-- The definition of the schedule, in its tenant. -/
def Db.Defines (db : Db) (item : Schedule) : Prop :=
  ∃ d ∈ db.workflowDefinitions, d.id = item.workflowDefinitionId ∧ d.tenantId = item.tenantId

theorem Db.Defines.after (h : db.Defines item) (hk : db.Keyed) (c : Call) :
    (c.after db).Defines item := by
  obtain ⟨d, hd, hsame⟩ := h
  cases hexec : c.exec db with
  | error e => rw [Call.after_of_error hexec]; exact ⟨d, hd, hsame⟩
  | ok p =>
    rw [Call.after_of_ok hexec]
    exact ⟨d, (exec_grows hk hexec).definitions d hd, hsame⟩

/-- `CreateRun` for an occurrence of a definition whose priorities fit their column. -/
theorem occurrenceCall_ok (hw : db.WellFormed) (hf : db.Fresh env) (hdef : db.Defines item)
    (hfits : ∀ d ∈ db.workflowDefinitions, d.id = item.workflowDefinitionId →
      ∀ entry ∈ d.dag.tasks, isInteger entry.2.priority = true) :
    ∃ reply db', (occurrenceCall cal env item).exec db = .ok (reply, db') := by
  obtain ⟨d, hd, hid, htenant⟩ := hdef
  obtain ⟨d', hfind⟩ : ∃ d', db.workflowDefinitions.find? (fun x =>
      x.id = item.workflowDefinitionId ∧ x.tenantId = item.tenantId) = some d' :=
    Option.isSome_iff_exists.1 (List.find?_isSome.2 ⟨d, hd, decide_eq_true ⟨hid, htenant⟩⟩)
  have hd' := List.mem_of_find?_eq_some hfind
  have hsame := List.find?_some hfind
  simp only [decide_eq_true_eq] at hsame
  have hkey : occurrenceKey cal item ≠ "" := by simp [occurrenceKey]
  have hok : ∃ r db', createRun env item.tenantId none item.workflowDefinitionId
      (occurrenceKey cal item) "\x7b\x7d" none db = .ok (r, db') := by
    cases hrun : db.workflowRuns.find? fun r =>
        r.tenantId = item.tenantId ∧ r.idempotencyKey = occurrenceKey cal item with
    | none =>
      rw [← hsame.1, ← hsame.2] at hfind ⊢
      rw [← hsame.2] at hrun
      obtain ⟨r, db', hcr⟩ := (createRun_creates_iff hf (hw.accepted d' hd') hfind hkey hrun none
        "\x7b\x7d").2 (hfits d' hd' hsame.1)
      exact ⟨_, db', hcr⟩
    | some r =>
      refine ⟨(r, false), db, ?_⟩
      simp only [createRun, bind_eq_ok, orError_eq_ok, require_eq_ok, hfind, hrun]
      exact ⟨(), decide_eq_true hkey, "", rfl, d', rfl, rfl⟩
  obtain ⟨r, db', hok⟩ := hok
  refine ⟨.run r.1 r.2, db', ?_⟩
  rw [Call.exec, occurrenceCall, Op.exec]
  exact map_eq_ok.2 ⟨_, hok, rfl⟩

/-- After it, the run exists. -/
theorem hasRun_of_occurrenceCall {reply : Reply}
    (h : (occurrenceCall cal env item).exec db = .ok (reply, db')) : db'.HasRun cal item := by
  rw [Call.exec, occurrenceCall, Op.exec] at h
  obtain ⟨⟨r, db₁⟩, hok, hr⟩ := map_eq_ok.1 h
  cases hr
  obtain ⟨⟨r', hr', hsame⟩, -⟩ := createRun_runs hok
  exact ⟨r', hr', congrArg Prod.fst hsame, congrArg Prod.snd hsame⟩

/-! ## Firings -/

/-- A row of the table, after a loop over rows : as it was, or advanced if it was visited. -/
theorem foldlM_fireRow (items : List Schedule) :
    ∀ {rows : List Schedule} {reading : Bool} {tx : Tx},
    items.foldlM (fireRow false cal env) ⟨rows, reading⟩ = .ok tx →
      ∃ f : Schedule → Schedule, tx.schedules = rows.map f ∧ ∀ x,
        (f x = x ∧ ∀ item ∈ items, item.id ≠ x.id) ∨
        ∃ item ∈ items, item.id = x.id ∧ ∃ next, cal.advance env.now item = .ok next ∧
          f x = { x with nextExecutionAt := next } := by
  induction items with
  | nil =>
    intro rows reading tx h
    cases h
    exact ⟨id, (List.map_id _).symm, fun x => .inl ⟨rfl, List.forall_mem_nil _⟩⟩
  | cons item items ih =>
    intro rows reading tx h
    rw [List.foldlM_cons] at h
    obtain ⟨tx₁, hrow, hrest⟩ := bind_eq_ok.1 h
    obtain ⟨next, hnext, hexec⟩ := bind_eq_ok.1 hrow
    cases hexec
    obtain ⟨f, hf, hrows⟩ := ih hrest
    refine ⟨fun x => f (if x.id = item.id then { x with nextExecutionAt := next } else x), ?_,
      fun x => ?_⟩
    · rw [hf]
      simp [setNext, Table.update]
    · have hx := hrows (if x.id = item.id then { x with nextExecutionAt := next } else x)
      by_cases hid : x.id = item.id
      · -- the last visit counts
        simp only [hid, if_true] at hx ⊢
        rcases hx with ⟨hkeep, -⟩ | ⟨i, hi, hiid, next', hnext', hadv⟩
        · exact .inr ⟨item, List.mem_cons_self .., rfl, next, hnext, hkeep⟩
        · exact .inr ⟨i, List.mem_cons_of_mem _ hi, hiid, next', hnext', hadv⟩
      · simp only [hid, if_false] at hx ⊢
        rcases hx with ⟨hkeep, hnone⟩ | ⟨i, hi, hiid, hadv⟩
        · exact .inl ⟨hkeep, List.forall_mem_cons.2 ⟨Ne.symm hid, hnone⟩⟩
        · exact .inr ⟨i, List.mem_cons_of_mem _ hi, hiid, hadv⟩

/-- A firing reads due rows of the table, and advances them and no other. -/
theorem fireTx_rows {scan : Scan} {rows rows' due : List Schedule}
    (hnd : (rows.map Schedule.id).Nodup) (h : fireTx false cal env scan rows = .ok (rows', due)) :
    due = dueSchedules env scan rows ∧ ∃ f : Schedule → Schedule, rows' = rows.map f ∧
      ∀ x ∈ rows, (f x = x ∧ x ∉ due) ∨ (x ∈ due ∧ ∃ next, cal.advance env.now x = .ok next ∧
        f x = { x with nextExecutionAt := next }) := by
  obtain ⟨tx, hfold, hdone⟩ := bind_eq_ok.1 h
  cases hdone
  obtain ⟨f, hf, hrows⟩ := foldlM_fireRow _ hfold
  refine ⟨rfl, f, hf, fun x hx => ?_⟩
  rcases hrows x with ⟨hkeep, hnone⟩ | ⟨item, hitem, hid, hadv⟩
  · exact .inl ⟨hkeep, fun hdue => hnone x hdue rfl⟩
  · obtain rfl := Table.eq_of_key hnd (mem_of_mem_dueSchedules hitem) hx hid
    exact .inr ⟨hitem, hadv⟩

/-- A firing keeps what a schedule is of, and the occurrences it moves past are those it read. -/
theorem fireTx_ok {scan : Scan} {rows rows' due : List Schedule}
    (hnd : (rows.map Schedule.id).Nodup) (h : fireTx false cal env scan rows = .ok (rows', due)) :
    due ⊆ rows ∧ (∃ f : Schedule → Schedule, rows' = rows.map f ∧ ∀ x ∈ rows, (f x).id = x.id ∧
      (f x).workflowDefinitionId = x.workflowDefinitionId ∧ (f x).tenantId = x.tenantId) ∧
      ∀ x ∈ rows, x ∈ rows' ∨ x ∈ due := by
  obtain ⟨rfl, f, rfl, hrows⟩ := fireTx_rows hnd h
  refine ⟨fun x => mem_of_mem_dueSchedules, ⟨f, rfl, fun x hx => ?_⟩, fun x hx => ?_⟩
  · rcases hrows x hx with ⟨hkeep, -⟩ | ⟨-, next, -, hadv⟩
    · rw [hkeep]
      exact ⟨rfl, rfl, rfl⟩
    · rw [hadv]
      exact ⟨rfl, rfl, rfl⟩
  · rcases hrows x hx with ⟨hkeep, -⟩ | ⟨hdue, -⟩
    · exact .inl (List.mem_map.2 ⟨x, hx, hkeep⟩)
    · exact .inr hdue

/-! ## Histories -/

/-- The schedules have their definitions, and so have the occurrences in the loops. -/
structure Firing.Sound (s : Firing) : Prop where
  reachable : Reachable s.plane
  nodup : (s.schedules.map Schedule.id).Nodup
  defined : ∀ x ∈ s.schedules, s.plane.db.Defines x
  awaited : ∀ x, s.Awaits x → s.plane.db.Defines x

/-- The schedule has not moved, or its occurrence has its run, or is in a loop. -/
def Firing.Kept (cal : Calendar) (s : Firing) (x : Schedule) : Prop :=
  x ∈ s.schedules ∨ s.plane.db.HasRun cal x ∨ s.Awaits x

namespace Firing

/-- What is in a loop after one has changed. -/
theorem awaits_setLoop {replica : ℕ} {loop : Option (List Schedule)} {x : Schedule}
    (h : (s.setLoop replica loop).Awaits x) :
    (∃ rest, loop = some rest ∧ x ∈ rest) ∨ s.Awaits x := by
  obtain ⟨q, rest, hq, hx⟩ := h
  simp only [setLoop, Function.update_apply] at hq
  split_ifs at hq with hqr
  · exact Or.inl ⟨rest, hq, hx⟩
  · exact Or.inr ⟨q, rest, hq, hx⟩

theorem awaits_setLoop_self {replica : ℕ} {rest : List Schedule} {x : Schedule} (hx : x ∈ rest) :
    (s.setLoop replica (some rest)).Awaits x :=
  ⟨replica, rest, by simp [setLoop], hx⟩

/-- What is in a loop stays, when another has changed. -/
theorem Awaits.setLoop {replica : ℕ} {x : Schedule} (h : s.Awaits x)
    (hother : ∀ rest, s.loops replica = some rest → x ∉ rest) (loop : Option (List Schedule)) :
    (s.setLoop replica loop).Awaits x := by
  obtain ⟨q, rest, hq, hx⟩ := h
  refine ⟨q, rest, ?_, hx⟩
  have hne : q ≠ replica := by
    rintro rfl
    exact hother rest hq hx
  simpa [Firing.setLoop, hne] using hq

/-- A call of the control plane. -/
theorem Sound.plane (h : s.Sound) {c : Call} (hc : controlPlane.allowed s.plane c) :
    Sound { s with plane := controlPlane.next s.plane c } where
  reachable := h.reachable.next hc
  nodup := h.nodup
  defined x hx := (h.defined x hx).after h.reachable.wellFormed.toKeyed c
  awaited x hx := (h.awaited x hx).after h.reachable.wellFormed.toKeyed c

theorem Sound.setLoop (h : s.Sound) (replica : ℕ) {loop : Option (List Schedule)}
    (hloop : ∀ rest, loop = some rest → ∀ x ∈ rest, s.plane.db.Defines x) :
    (s.setLoop replica loop).Sound where
  reachable := h.reachable
  nodup := h.nodup
  defined := h.defined
  awaited x hx := by
    rcases awaits_setLoop hx with ⟨rest, hrest, hmem⟩ | hold
    · exact hloop rest hrest x hmem
    · exact h.awaited x hold

theorem Sound.createSchedule (h : s.Sound) {env : Env} {tenantId : ℕ} {req : ScheduleRequest}
    (hnew : env.uuid 0 ∉ s.schedules.map Schedule.id) {row : Schedule} {rows : List Schedule}
    (hok : RunMesh.createSchedule cal env tenantId req s.plane.db s.schedules = .ok (row, rows)) :
    Sound { s with schedules := rows } ∧ s.schedules ⊆ rows := by
  simp only [RunMesh.createSchedule, bind_eq_ok, orError_eq_ok, mapError_eq_ok] at hok
  obtain ⟨policy, -, location, -, cron, -, d, hd, hrow⟩ := hok
  cases hrow
  have hsame := List.find?_some hd
  simp only [decide_eq_true_eq] at hsame
  refine ⟨⟨h.reachable, ?_, fun x hx => ?_, h.awaited⟩, List.subset_append_left _ _⟩
  · rw [List.map_append]
    exact h.nodup.append (List.nodup_singleton _) (by simpa using hnew)
  · rcases List.mem_append.1 hx with hx | hx
    · exact h.defined x hx
    · rw [List.mem_singleton.1 hx]
      exact ⟨d, List.mem_of_find?_eq_some hd, rfl, hsame.2⟩

theorem Sound.fire (h : s.Sound) {env : Env} {scan : Scan} {rows due : List Schedule}
    (hok : fireTx false cal env scan s.schedules = .ok (rows, due)) (replica : ℕ) :
    ({ s with schedules := rows }.setLoop replica (some due)).Sound := by
  obtain ⟨hsub, ⟨f, rfl, hf⟩, -⟩ := fireTx_ok h.nodup hok
  have hrows : Sound { s with schedules := s.schedules.map f } := by
    refine ⟨h.reachable, ?_, fun x hx => ?_, h.awaited⟩
    · have hids : (s.schedules.map f).map Schedule.id = s.schedules.map Schedule.id := by
        rw [List.map_map]
        exact List.map_congr_left fun x hx => (hf x hx).1
      rw [hids]
      exact h.nodup
    · obtain ⟨y, hy, rfl⟩ := List.mem_map.1 hx
      obtain ⟨d, hd, hdid, hdt⟩ := h.defined y hy
      exact ⟨d, hd, hdid.trans (hf y hy).2.1.symm, hdt.trans (hf y hy).2.2.symm⟩
  refine hrows.setLoop replica fun rest hrest x hx => ?_
  cases hrest
  exact h.defined x (hsub hx)

end Firing

/-- The step `a` leads from `s` to `s'`. -/
inductive FiringMove (cal : Calendar) (s : Firing) : FiringStep → Firing → Prop
  | idle (a : FiringStep) : FiringMove cal s a s
  | call (c : Call) :
      FiringMove cal s (.call c) { s with plane := controlPlane.next s.plane c }
  | createSchedule {env : Env} {tenantId : ℕ} {req : ScheduleRequest} {row : Schedule}
      {rows : List Schedule}
      (hok : createSchedule cal env tenantId req s.plane.db s.schedules = .ok (row, rows)) :
      FiringMove cal s (.createSchedule env tenantId req) { s with schedules := rows }
  | fire {replica : ℕ} {env : Env} {scan : Scan} {rows due : List Schedule}
      (hloop : s.loops replica = none)
      (hok : fireTx false cal env scan s.schedules = .ok (rows, due)) :
      FiringMove cal s (.fire replica env scan)
        ({ s with schedules := rows }.setLoop replica (some due))
  | lost {replica : ℕ} {env : Env} {item : Schedule} {rest : List Schedule}
      (hloop : s.loops replica = some (item :: rest)) :
      FiringMove cal s (.create replica env .lost) (s.setLoop replica none)
  | unanswered {replica : ℕ} {env : Env} {item : Schedule} {rest : List Schedule}
      (hloop : s.loops replica = some (item :: rest)) :
      FiringMove cal s (.create replica env .unanswered)
        ({ s with plane := controlPlane.next s.plane (occurrenceCall cal env item) }.setLoop
          replica none)
  | answered {replica : ℕ} {env : Env} {item : Schedule} {rest : List Schedule}
      (hloop : s.loops replica = some (item :: rest)) :
      FiringMove cal s (.create replica env .answered)
        ({ s with plane := controlPlane.next s.plane (occurrenceCall cal env item) }.setLoop
          replica (Firing.afterCreate rest ((occurrenceCall cal env item).exec s.plane.db)))
  | finish {replica : ℕ} {env : Env} {outcome : Outcome} (hloop : s.loops replica = some []) :
      FiringMove cal s (.create replica env outcome) (s.setLoop replica none)
  | crash (replica : ℕ) : FiringMove cal s (.crash replica) (s.setLoop replica none)

theorem firing_move (cal : Calendar) (s : Firing) (a : FiringStep) :
    FiringMove cal s a ((firing cal).next s a) := by
  cases a with
  | call c => exact .call c
  | createSchedule env tenantId req =>
    simp only [firing]
    split
    · next r hok => exact .createSchedule hok
    · exact .idle _
  | fire replica env scan =>
    simp only [firing, Firing.fire]
    split
    · next rows due hloop hok => exact .fire hloop hok
    · exact .idle _
  | create replica env outcome =>
    simp only [firing, Firing.create]
    split
    · next item rest hloop =>
      cases outcome with
      | lost => exact .lost hloop
      | unanswered => exact .unanswered hloop
      | answered => exact .answered hloop
    · next hloop => exact .finish hloop
    · exact .idle _
  | crash replica => exact .crash replica

namespace Firing

theorem Sound.next (h : s.Sound) {a : FiringStep} (ha : (firing cal).allowed s a) :
    ((firing cal).next s a).Sound := by
  have m := firing_move cal s a
  generalize (firing cal).next s a = s' at m
  cases m with
  | idle => exact h
  | call c => exact h.plane ha
  | createSchedule hok => exact (h.createSchedule ha hok).1
  | fire _ hok => exact h.fire hok _
  | lost => exact h.setLoop _ nofun
  | @unanswered replica env item =>
    exact (h.plane (c := occurrenceCall cal env item) ha).setLoop _ nofun
  | @answered replica env item rest hloop =>
    have hplane := h.plane (c := occurrenceCall cal env item) ha
    refine hplane.setLoop _ fun rest' hrest x hx => ?_
    have hsub : rest' = rest := by
      unfold afterCreate at hrest
      split at hrest <;> cases hrest <;> rfl
    subst hsub
    exact hplane.awaited x ⟨replica, _, hloop, List.mem_cons_of_mem _ hx⟩
  | finish => exact h.setLoop _ nofun
  | crash => exact h.setLoop _ nofun

/-- An occurrence is kept by a step that goes on. -/
theorem Kept.next {x : Schedule} (hx : s.Kept cal x) (h : s.Sound) {a : FiringStep}
    (ha : (firing cal).allowed s a) (hgo : a.GoesOn s) : ((firing cal).next s a).Kept cal x := by
  have hw := h.reachable.wellFormed
  have m := firing_move cal s a
  generalize (firing cal).next s a = s' at m
  -- a loop that has come to its end has nothing in it
  have hend : ∀ replica, s.loops replica = none ∨ s.loops replica = some [] →
      (s.setLoop replica none).Kept cal x := by
    intro replica hloop
    refine hx.imp_right (Or.imp_right fun haw => haw.setLoop (fun rest hrest hmem => ?_) none)
    rcases hloop with hl | hl <;> rw [hl] at hrest <;> cases hrest
    cases hmem
  cases m with
  | idle => exact hx
  | call c => exact hx.imp_right (Or.imp_left fun hrun => hrun.after hw.toKeyed c)
  | createSchedule hok => exact hx.imp_left fun hmem => (h.createSchedule ha hok).2 hmem
  | fire hloop hok =>
    rcases hx with hmem | hrun | haw
    · rcases (fireTx_ok h.nodup hok).2.2 x hmem with hmem' | hdue
      · exact Or.inl hmem'
      · exact Or.inr (Or.inr (awaits_setLoop_self hdue))
    · exact Or.inr (Or.inl hrun)
    · refine Or.inr (Or.inr (Awaits.setLoop (s := { s with schedules := _ }) haw ?_ _))
      intro rest hrest
      rw [hloop] at hrest
      cases hrest
  | lost => cases hgo.1
  | unanswered => cases hgo.1
  | @answered replica env item rest hloop =>
    obtain ⟨reply, db', hok⟩ : ∃ reply db',
        (occurrenceCall cal env item).exec s.plane.db = .ok (reply, db') :=
      occurrenceCall_ok hw ha.2 (h.awaited item ⟨replica, _, hloop, List.mem_cons_self ..⟩)
        (hgo.2 item rest hloop)
    rw [hok]
    rcases hx with hmem | hrun | haw
    · exact Or.inl hmem
    · exact Or.inr (Or.inl (hrun.after hw.toKeyed _))
    · by_cases hself : x = item
      · refine Or.inr (Or.inl ?_)
        rw [hself]
        change ((occurrenceCall cal env item).after s.plane.db).HasRun cal item
        rw [Call.after_of_ok hok]
        exact hasRun_of_occurrenceCall hok
      · refine Or.inr (Or.inr ?_)
        by_cases hrest : x ∈ rest
        · exact awaits_setLoop_self hrest
        · refine Awaits.setLoop (s := { s with plane := _ }) haw (fun rest' hrest' hmem => ?_) _
          rw [hloop] at hrest'
          cases hrest'
          exact (List.mem_cons.1 hmem).elim hself hrest
  | finish hloop => exact hend _ (Or.inr hloop)
  | crash => exact hend _ hgo

end Firing

theorem Firing.Init.sound (h : s.Init) : s.Sound where
  reachable := h.plane.reachable
  nodup := by simp [h.schedules]
  defined := by simp [h.schedules]
  awaited := by
    rintro x ⟨replica, rest, hloop, -⟩
    rw [h.loops] at hloop
    cases hloop

/-- No scheduled occurrence is lost in a history in which no loop is cut short : when a schedule
has moved on, the run of the occurrence exists, or is still to be created by the scheduler that
moved it. And in every history an occurrence has at most one run. -/
theorem no_occurrence_lost (cal : Calendar) {s₀ : Firing} (h0 : s₀.Init) {as : List FiringStep}
    (hv : (firing cal).Valid s₀ as) :
    ((firing cal).Along FiringStep.GoesOn s₀ as → ∀ bs cs, bs <+: cs → cs <+: as →
      ∀ x ∈ ((firing cal).run s₀ bs).schedules, ∀ y ∈ ((firing cal).run s₀ cs).schedules,
        y.id = x.id → y.nextExecutionAt ≠ x.nextExecutionAt →
          ((firing cal).run s₀ cs).plane.db.HasRun cal x ∨ ((firing cal).run s₀ cs).Awaits x) ∧
    ∀ bs, bs <+: as → ∀ x : Schedule, ∀ r ∈ ((firing cal).run s₀ bs).plane.db.workflowRuns,
      ∀ r' ∈ ((firing cal).run s₀ bs).plane.db.workflowRuns,
        r.tenantId = x.tenantId → r.idempotencyKey = occurrenceKey cal x →
        r'.tenantId = x.tenantId → r'.idempotencyKey = occurrenceKey cal x → r = r' := by
  have hsound : ∀ bs, bs <+: as → ((firing cal).run s₀ bs).Sound := fun bs hbs =>
    (firing cal).invariant (fun _ _ h ha => h.next ha) h0.sound
      (Machine.along_of_prefix (firing cal) hbs hv)
  constructor
  · rintro hgo bs cs ⟨ds, rfl⟩ hcs x hx y hy hid hmoved
    have halong := Machine.along_of_prefix (firing cal) hcs
      (((firing cal).along_and _ FiringStep.GoesOn as s₀).2 ⟨hv, hgo⟩)
    obtain ⟨-, hds⟩ := ((firing cal).along_append _ bs ds s₀).1 halong
    have hbs := hsound bs ((List.prefix_append bs ds).trans hcs)
    have hkept := ((firing cal).invariant_along (P := fun s => s.Sound ∧ s.Kept cal x)
      (fun s a h ha => ⟨h.1.next ha.1, h.2.next h.1 ha.1 ha.2⟩) ⟨hbs, Or.inl hx⟩ hds).2
    rw [← (firing cal).run_append] at hkept
    refine hkept.resolve_left fun hmem => hmoved ?_
    rw [Table.eq_of_key (hsound _ hcs).nodup hy hmem hid]
  · intro bs hbs x r hr r' hr' ht hk ht' hk'
    refine Table.eq_of_key (hsound bs hbs).reachable.nodup_tenantKey hr hr' ?_
    exact Prod.ext (ht.trans ht'.symm) (hk.trans hk'.symm)

/-! ## A firing on its own -/

/-- The `CreateRun` calls of a loop of `k` occurrences, from the `n`-th environment on. -/
def creates (replica : ℕ) (envs : ℕ → Env) (n k : ℕ) : List FiringStep :=
  (List.range' n k).map fun i => .create replica (envs i) .answered

theorem occurrenceCall_exec (cal : Calendar) (env : Env) (item : Schedule) (db : Db) :
    (occurrenceCall cal env item).exec db =
      (createOccurrence cal env item db).map fun r => (.run r.1.1 r.1.2, r.2) :=
  rfl

/-- A scheduler that is not in its loop creates nothing. -/
theorem run_creates_none {replica : ℕ} (envs : ℕ → Env) (k : ℕ) : ∀ (n : ℕ) {s : Firing},
    s.loops replica = none → (firing cal).run s (creates replica envs n k) = s := by
  induction k with
  | zero => intro n s _; rfl
  | succ k ih =>
    intro n s hloop
    have hidle : (firing cal).next s (.create replica (envs n) .answered) = s := by
      simp only [firing, Firing.create, hloop]
    change (firing cal).run ((firing cal).next s (.create replica (envs n) .answered))
      (creates replica envs (n + 1) k) = s
    rw [hidle]
    exact ih (n + 1) hloop

/-- The steps of a loop that nothing interrupts compute `createOccurrences`. -/
theorem run_creates {replica : ℕ} (envs : ℕ → Env) (due : List Schedule) :
    ∀ (n : ℕ) {s : Firing}, s.loops replica = some due →
      ((firing cal).run s (creates replica envs n due.length)).plane.db =
          (createOccurrences cal envs n due s.plane.db).2 ∧
        ((firing cal).run s (creates replica envs n due.length)).schedules = s.schedules := by
  induction due with
  | nil => intro n s _; exact ⟨rfl, rfl⟩
  | cons item rest ih =>
    intro n s hloop
    set s₁ := (firing cal).next s (.create replica (envs n) .answered) with hs₁
    have hnext : s₁ = { s with plane := controlPlane.next s.plane (occurrenceCall cal (envs n)
        item) }.setLoop replica (Firing.afterCreate rest
          ((occurrenceCall cal (envs n) item).exec s.plane.db)) := by
      simp only [hs₁, firing, Firing.create, hloop]
    have hloop₁ : s₁.loops replica = Firing.afterCreate rest
        ((occurrenceCall cal (envs n) item).exec s.plane.db) := by
      rw [hnext]
      simp [Firing.setLoop]
    have hdb : s₁.plane.db = (occurrenceCall cal (envs n) item).after s.plane.db := by
      rw [hnext]
      rfl
    have hsched : s₁.schedules = s.schedules := by
      rw [hnext]
      rfl
    change ((firing cal).run s₁ (creates replica envs (n + 1) rest.length)).plane.db = _ ∧
      ((firing cal).run s₁ (creates replica envs (n + 1) rest.length)).schedules = _
    have hexec := occurrenceCall_exec cal (envs n) item s.plane.db
    rw [createOccurrences, ← hsched]
    cases hok : createOccurrence cal (envs n) item s.plane.db with
    | ok r =>
      rw [hok] at hexec
      rw [hexec] at hloop₁
      rw [Call.after_of_ok hexec] at hdb
      have hrest := ih (n + 1) hloop₁
      rwa [hdb] at hrest
    | error e =>
      rw [hok] at hexec
      rw [hexec] at hloop₁
      rw [Call.after_of_error hexec] at hdb
      rw [← hdb]
      -- the loop goes on after a conflict only
      by_cases he : e = .conflict
      · subst he
        exact ih (n + 1) hloop₁
      · have hnone : s₁.loops replica = none := by
          rw [hloop₁]
          cases e <;> first | rfl | exact absurd rfl he
        rw [run_creates_none envs _ (n + 1) hnone]
        cases e <;> first | exact ⟨rfl, rfl⟩ | exact absurd rfl he

/-- The steps of a firing that nothing interrupts compute `fireSchedules`. -/
theorem run_fire {replica : ℕ} {s : Firing} (hloop : s.loops replica = none) (input : TickInput)
    {rows due : List Schedule}
    (hok : fireTx false cal input.fire input.fireScan s.schedules = .ok (rows, due)) :
    ((firing cal).run s (.fire replica input.fire input.fireScan ::
        creates replica input.creates 0 due.length)).plane.db =
        (fireSchedules false cal input s.schedules s.plane.db).db ∧
      ((firing cal).run s (.fire replica input.fire input.fireScan ::
        creates replica input.creates 0 due.length)).schedules =
        (fireSchedules false cal input s.schedules s.plane.db).schedules := by
  have hfire : (firing cal).next s (.fire replica input.fire input.fireScan) =
      { s with schedules := rows }.setLoop replica (some due) := by
    simp only [firing, Firing.fire, hloop, hok]
  rw [Machine.run_cons, hfire, fireSchedules, hok]
  exact run_creates input.creates due 0 (by simp [Firing.setLoop])

/-! ## One batch of two tenants -/

/-- A definition of one tenant, and one of another with a priority that does not fit. -/
def twoTenants : Firing where
  plane := ⟨⟨[⟨1, 1, "chain", 1, chainDag, none, 0⟩, ⟨2, 2, "urgent", 1, urgentDag, none, 0⟩],
    [], [], [], [], [], [], []⟩, 0⟩
  schedules := []
  loops _ := none

theorem init_twoTenants : twoTenants.Init :=
  ⟨⟨rfl, rfl, rfl, rfl, rfl, by decide⟩, rfl, fun _ => rfl⟩

/-- The first tenant's schedule fires, and its run is created. -/
def firedAlone : List FiringStep :=
  [.createSchedule (Env.at 1 101) 1 ⟨1, "0 0 * * *", "", "", some 6⟩,
    .fire 0 (Env.at 10 200) (.ofList [101]), .create 0 (Env.at 10 300) .answered]

theorem no_occurrence_lost_firedAlone :
    ((firing dailyCalendar).run twoTenants firedAlone).plane.db.workflowRuns.map
        Run.idempotencyKey = ["schedule:101:6"] ∧
      ∀ x ∈ ((firing dailyCalendar).run twoTenants (firedAlone.take 1)).schedules,
        ((firing dailyCalendar).run twoTenants firedAlone).plane.db.HasRun dailyCalendar x ∨
          ((firing dailyCalendar).run twoTenants firedAlone).Awaits x := by
  have hv : (firing dailyCalendar).Valid twoTenants firedAlone :=
    ⟨List.not_mem_nil, trivial, ⟨by decide, Db.fresh_at (by decide) 10⟩, trivial⟩
  have hgo : (firing dailyCalendar).Along FiringStep.GoesOn twoTenants firedAlone := by
    refine ⟨trivial, trivial, ⟨rfl, ?_⟩, trivial⟩
    rintro item rest ⟨⟩
    decide
  refine ⟨by decide +kernel, fun x hx => ?_⟩
  have hmoved : ∀ x ∈ ((firing dailyCalendar).run twoTenants (firedAlone.take 1)).schedules,
      ∃ y ∈ ((firing dailyCalendar).run twoTenants firedAlone).schedules,
        y.id = x.id ∧ y.nextExecutionAt ≠ x.nextExecutionAt := by
    decide +kernel
  obtain ⟨y, hy, hid, hne⟩ := hmoved x hx
  exact (no_occurrence_lost dailyCalendar init_twoTenants hv).1 hgo _ _ (List.take_prefix 1 _)
    (List.prefix_refl _) x hx y hy hid hne

/-- The other tenant's schedule is due first. Its `CreateRun` fails, and the loop returns. -/
def firedTogether : List FiringStep :=
  [.createSchedule (Env.at 1 100) 2 ⟨2, "0 0 * * *", "", "", some 5⟩,
    .createSchedule (Env.at 1 101) 1 ⟨1, "0 0 * * *", "", "", some 6⟩,
    .fire 0 (Env.at 10 200) (.ofList [100, 101]), .create 0 (Env.at 10 300) .answered]

/-- The first tenant's occurrence is gone : its schedule has moved on, there is no run, and no
scheduler is to create it. -/
theorem occurrence_lost_to_another_tenant :
    twoTenants.Init ∧ (firing dailyCalendar).Valid twoTenants firedTogether ∧
      ∃ x ∈ ((firing dailyCalendar).run twoTenants (firedTogether.take 2)).schedules,
        x.tenantId = 1 ∧ x.enabled = true ∧ x.nextExecutionAt ≤ 10 ∧
        (∃ y ∈ ((firing dailyCalendar).run twoTenants firedTogether).schedules,
          y.id = x.id ∧ x.nextExecutionAt < y.nextExecutionAt) ∧
        ¬((firing dailyCalendar).run twoTenants firedTogether).plane.db.HasRun dailyCalendar x ∧
        ¬((firing dailyCalendar).run twoTenants firedTogether).Awaits x := by
  have hmoved : ∃ x ∈ ((firing dailyCalendar).run twoTenants (firedTogether.take 2)).schedules,
      x.tenantId = 1 ∧ x.enabled = true ∧ x.nextExecutionAt ≤ 10 ∧
      ∃ y ∈ ((firing dailyCalendar).run twoTenants firedTogether).schedules,
        y.id = x.id ∧ x.nextExecutionAt < y.nextExecutionAt := by
    decide +kernel
  have hruns :
      ((firing dailyCalendar).run twoTenants firedTogether).plane.db.workflowRuns = [] := by
    decide +kernel
  obtain ⟨x, hx, htenant, henabled, hdue, hnext⟩ := hmoved
  refine ⟨init_twoTenants, ⟨List.not_mem_nil, show 101 ∉ [100] by decide, trivial,
    ⟨by decide, Db.fresh_at (by decide) 10⟩, trivial⟩, x, hx, htenant, henabled, hdue, hnext,
    ?_, ?_⟩
  · rintro ⟨r, hr, -⟩
    rw [hruns] at hr
    cases hr
  · rintro ⟨replica, rest, hloop, -⟩
    have hzero : ((firing dailyCalendar).run twoTenants firedTogether).loops 0 = none := by
      decide +kernel
    have hother : replica ≠ 0 →
        ((firing dailyCalendar).run twoTenants firedTogether).loops replica = none := by
      intro hne
      change Function.update (Function.update (fun _ => none) 0 _) 0 _ replica = none
      rw [Function.update_of_ne hne, Function.update_of_ne hne]
    by_cases hreplica : replica = 0
    · rw [hreplica, hzero] at hloop
      cases hloop
    · rw [hother hreplica] at hloop
      cases hloop

end RunMesh
