import Mathlib.Logic.Equiv.Nat
import Mathlib.Order.Bounds.Basic
import RunMesh.Occurrences

/-!
# Occurrences missed in an outage

While no scheduler runs, the occurrences of a schedule pass and its `next_execution_at` stays.
`passes` is what a scheduler does when it is back : `Service.fireSchedules`, call after call,
with the updates inside the row loop executed.

A call creates a run for every due occurrence it reads. The misfire policy only decides from
where the next one is counted : from the occurrence itself, or under `skip` from now if it is
more than a minute late. So `catch_up_once` comes to the next missed occurrence in the next call,
and `skip` does not skip the one it finds. The policies do what they say exactly when the
occurrence found is the only one missed, and is not missed by more than a minute if it is to be
skipped then (`misfire_policy_iff`).
-/

namespace RunMesh

open Fallible

variable {cal : Calendar} {env : Env} {db db' : Db} {item x : Schedule}

/-- `Next` returns the first instant after the given one that the expression matches in the
location, and different instants have different texts. An expression that never matches again is
not lawful. -/
structure Calendar.Lawful (cal : Calendar) (cron : cal.Cron) (location : cal.Location)
    (Matches : ℤ → Prop) : Prop where
  next : ∀ t, IsLeast {u | t < u ∧ Matches u} (cal.next cron location t)
  format : Function.Injective cal.format

/-! ## Keys -/

/-- A separator that neither part before it contains tells the parts apart. -/
theorem append_cons_inj {α : Type*} [DecidableEq α] {a : α} {l₁ l₂ r₁ r₂ : List α} (h₁ : a ∉ l₁)
    (h₂ : a ∉ l₂) (h : l₁ ++ a :: r₁ = l₂ ++ a :: r₂) : l₁ = l₂ ∧ r₁ = r₂ := by
  have hall : ∀ l : List α, a ∉ l → ∀ b ∈ l, decide (b ≠ a) = true := fun l hl b hb =>
    decide_eq_true fun heq => hl (heq ▸ hb)
  have hl := congrArg (List.takeWhile fun b => decide (b ≠ a)) h
  rw [List.takeWhile_append_of_pos (hall l₁ h₁), List.takeWhile_append_of_pos (hall l₂ h₂)] at hl
  simp only [ne_eq, not_true_eq_false, decide_false, Bool.false_eq_true, not_false_eq_true,
    List.takeWhile_cons_of_neg, List.append_nil] at hl
  subst hl
  exact ⟨rfl, (List.cons.inj (List.append_cancel_left h)).2⟩

theorem colon_notMem_toString (n : ℕ) : ':' ∉ (toString n).toList := by
  intro h
  have hrepr : (toString n).toList = Nat.toDigits 10 n := Nat.toList_repr
  rw [hrepr] at h
  have hdigit := Nat.isDigit_of_mem_toDigits (by decide) (by decide) h
  revert hdigit
  decide

theorem toString_injective {m n : ℕ} (h : toString m = toString n) : m = n := by
  have hdigits : Nat.toDigits 10 m = Nat.toDigits 10 n := by
    rw [← Nat.toList_repr, ← Nat.toList_repr]
    exact congrArg String.toList h
  rw [← Nat.ofDigitChars_ten_toDigits (n := m), hdigits, Nat.ofDigitChars_ten_toDigits]

/-- The key of an occurrence tells its schedule and its instant. -/
theorem occurrenceKey_inj (hformat : Function.Injective cal.format) {x y : Schedule}
    (h : occurrenceKey cal x = occurrenceKey cal y) :
    x.id = y.id ∧ x.nextExecutionAt = y.nextExecutionAt := by
  have hlist := congrArg String.toList h
  simp only [occurrenceKey, String.toList_append, List.append_assoc] at hlist
  have hrest := List.append_cancel_left hlist
  obtain ⟨hid, htime⟩ := append_cons_inj (colon_notMem_toString x.id)
    (colon_notMem_toString y.id) hrest
  exact ⟨toString_injective (String.toList_inj.1 hid), hformat (String.toList_inj.1 htime)⟩

theorem Db.hasRun_iff :
    db.HasRun cal x ↔
      (x.tenantId, occurrenceKey cal x) ∈ db.workflowRuns.map Run.tenantKey := by
  simp only [Db.HasRun, List.mem_map, Run.tenantKey, Prod.mk.injEq]

/-! ## The runs of a call -/

/-- A database in which a run of every definition can be created. -/
structure Db.Runnable (db : Db) : Prop where
  wellFormed : db.WellFormed
  nodup : (db.workflowRuns.map Run.tenantKey).Nodup
  fits : ∀ d ∈ db.workflowDefinitions, ∀ entry ∈ d.dag.tasks, isInteger entry.2.priority = true

/-- What the transactions of a loop draw, from the `n`-th on, is new. -/
structure Db.FreshDraws (db : Db) (envs : ℕ → Env) (n : ℕ) : Prop where
  fresh : ∀ k, n ≤ k → db.Fresh (envs k)
  apart : ∀ k l, k ≠ l → ∀ i j, (envs k).uuid i ≠ (envs l).uuid j

/-- `CreateRun` takes its ids from the environment. -/
theorem createRun_ids {tenant definitionId : ℕ} {user artifact : Option ℕ} {key input : String}
    {r : Run × Bool}
    (h : createRun env tenant user definitionId key input artifact db = .ok (r, db')) :
    db'.workflowDefinitions = db.workflowDefinitions ∧
      ∀ i ∈ db'.ids, i ∈ db.ids ∨ ∃ j, i = env.uuid j := by
  rcases createRun_ok h with ⟨rfl, -⟩ | ⟨d, -, uri, -, hins⟩
  · exact ⟨rfl, fun i hi => .inl hi⟩
  obtain ⟨-, -, artifacts, rfl⟩ := insertRun_ok hins
  refine ⟨rfl, fun i hi => ?_⟩
  simp only [Db.ids, List.map_append, List.mem_append, List.mem_map, List.mem_singleton] at hi ⊢
  rcases hi with ((hdef | hrun | ⟨_, rfl, rfl⟩) | htask | ⟨_, ⟨entry, -, rfl⟩, rfl⟩) |
    hevent | ⟨_, rfl, rfl⟩
  · exact .inl (.inl (.inl (.inl hdef)))
  · exact .inl (.inl (.inl (.inr hrun)))
  · exact .inr ⟨_, rfl⟩
  · exact .inl (.inl (.inr htask))
  · exact .inr ⟨_, rfl⟩
  · exact .inl (.inr hevent)
  · exact .inr ⟨_, rfl⟩

/-- After `CreateRun` there is a run under the key, and no other is new. -/
theorem createRun_tenantKey {tenant definitionId : ℕ} {user artifact : Option ℕ}
    {key input : String} {r : Run × Bool}
    (h : createRun env tenant user definitionId key input artifact db = .ok (r, db'))
    (k : ℕ × String) :
    k ∈ db'.workflowRuns.map Run.tenantKey ↔
      k ∈ db.workflowRuns.map Run.tenantKey ∨ k = (tenant, key) := by
  obtain ⟨⟨r', hr', hkey⟩, -⟩ := createRun_runs h
  have hmem : (tenant, key) ∈ db'.workflowRuns.map Run.tenantKey := hkey ▸ List.mem_map_of_mem hr'
  rcases createRun_ok h with ⟨rfl, -⟩ | ⟨d, -, uri, -, hins⟩
  · refine ⟨.inl, ?_⟩
    rintro (hold | rfl)
    · exact hold
    · exact hmem
  · obtain ⟨-, -, artifacts, rfl⟩ := insertRun_ok hins
    simp [Run.tenantKey, newRun]

/-- A run of an occurrence is created. -/
theorem createOccurrence_spec (cal : Calendar) (hr : db.Runnable) (hf : db.Fresh env)
    (hdef : db.Defines item) :
    ∃ r db', createOccurrence cal env item db = .ok (r, db') ∧ db'.Runnable ∧
      db'.workflowDefinitions = db.workflowDefinitions ∧
      (∀ k, k ∈ db'.workflowRuns.map Run.tenantKey ↔ k ∈ db.workflowRuns.map Run.tenantKey ∨
        k = (item.tenantId, occurrenceKey cal item)) ∧
      ∀ i ∈ db'.ids, i ∈ db.ids ∨ ∃ j, i = env.uuid j := by
  obtain ⟨reply, db', hexec⟩ : ∃ reply db', (occurrenceCall cal env item).exec db =
      .ok (reply, db') := occurrenceCall_ok hr.wellFormed hf hdef fun d hd _ => hr.fits d hd
  obtain ⟨⟨r, db₁⟩, hok, heq⟩ :=
    map_eq_ok.1 ((occurrenceCall_exec cal env item db).symm.trans hexec)
  cases heq
  obtain ⟨hdefs, hids⟩ := createRun_ids hok
  refine ⟨r, db₁, hok, ⟨exec_wellFormed hr.wellFormed hf hexec, ?_, ?_⟩, hdefs,
    createRun_tenantKey hok, hids⟩
  · rcases exec_tenantKey hr.wellFormed.toKeyed hexec with hsame | ⟨key, happ, hnew⟩
    · rw [hsame]
      exact hr.nodup
    · rw [happ]
      exact hr.nodup.append (List.nodup_singleton key) (by simpa using hnew)
  · rw [hdefs]
    exact hr.fits

theorem Db.FreshDraws.next {envs : ℕ → Env} {n : ℕ} (h : db.FreshDraws envs n)
    (hids : ∀ i ∈ db'.ids, i ∈ db.ids ∨ ∃ j, i = (envs n).uuid j) :
    db'.FreshDraws envs (n + 1) where
  apart := h.apart
  fresh k hk := by
    refine ⟨fun j hj => ?_, (h.fresh k (by omega)).injective⟩
    rcases hids _ hj with hold | ⟨i, hi⟩
    · exact (h.fresh k (by omega)).notMem j hold
    · exact h.apart k n (by omega) j i hi

/-- A loop creates a run for each of its occurrences, and no other. -/
theorem createOccurrences_spec (cal : Calendar) (envs : ℕ → Env) (items : List Schedule) :
    ∀ (n : ℕ) {db : Db}, db.Runnable → db.FreshDraws envs n →
      (∀ item ∈ items, db.Defines item) →
      ∃ db', createOccurrences cal envs n items db = (none, db') ∧ db'.Runnable ∧
        db'.workflowDefinitions = db.workflowDefinitions ∧
        ∀ k, k ∈ db'.workflowRuns.map Run.tenantKey ↔ k ∈ db.workflowRuns.map Run.tenantKey ∨
          ∃ item ∈ items, k = (item.tenantId, occurrenceKey cal item) := by
  induction items with
  | nil => exact fun n db hr _ _ => ⟨db, rfl, hr, rfl, fun k => by simp⟩
  | cons item items ih =>
    intro n db hr hf hdef
    obtain ⟨r, db₁, hok, hr₁, hdefs₁, hkeys₁, hids⟩ := createOccurrence_spec cal hr
      (hf.fresh n le_rfl) (hdef item (List.mem_cons_self ..))
    have hdef₁ : ∀ y ∈ items, db₁.Defines y := by
      intro y hy
      unfold Db.Defines
      rw [hdefs₁]
      exact hdef y (List.mem_cons_of_mem _ hy)
    obtain ⟨db', hrest, hr', hdefs, hkeys⟩ := ih (n + 1) hr₁ (hf.next hids) hdef₁
    refine ⟨db', ?_, hr', hdefs.trans hdefs₁, fun k => ?_⟩
    · rw [createOccurrences, hok]
      exact hrest
    · rw [hkeys, hkeys₁, or_assoc]
      simp only [List.mem_cons, exists_eq_or_imp]

/-! ## A scheduler that is back -/

/-- The schedules and the database between the calls of a scheduler. -/
structure Fleet where
  schedules : List Schedule
  db : Db

/-- Calls of `fireSchedules`, one after the other. -/
def passes (cal : Calendar) : Machine Fleet TickInput where
  next s input :=
    let r := fireSchedules false cal input s.schedules s.db
    ⟨r.schedules, r.db⟩
  allowed s input := s.db.FreshDraws input.creates 0

/-- The schedules come from `createSchedule` and have their definitions, which can be run. -/
structure Fleet.Sound (cal : Calendar) (s : Fleet) : Prop extends Db.Runnable s.db where
  ids : (s.schedules.map Schedule.id).Nodup
  created : ∀ x ∈ s.schedules, x.Created cal
  defined : ∀ x ∈ s.schedules, s.db.Defines x

/-- The schedule with its next execution at another time. -/
def Schedule.at (x : Schedule) (t : ℤ) : Schedule :=
  { x with nextExecutionAt := t }

theorem Schedule.Created.at (h : x.Created cal) (t : ℤ) : (x.at t).Created cal := by
  obtain ⟨env, tenantId, req, db, rows, row, rows', hok, next, enabled, rfl⟩ := h
  exact ⟨env, tenantId, req, db, rows, row, rows', hok, t, enabled, rfl⟩

theorem fireTx_of_created (env : Env) (scan : Scan) {schedules : List Schedule}
    (h : ∀ x ∈ schedules, x.Created cal) :
    ∃ rows, fireTx false cal env scan schedules = .ok (rows, dueSchedules env scan schedules) := by
  have hrow : ∀ tx : Tx, ∀ y ∈ dueSchedules env scan schedules, True →
      ∃ tx', fireRow false cal env tx y = .ok tx' ∧ True := by
    intro tx y hy _
    obtain ⟨next, hnext⟩ := (h y (mem_of_mem_dueSchedules hy)).advance_ok env.now
    exact ⟨_, by rw [fireRow, hnext]; rfl, trivial⟩
  obtain ⟨tx, htx, -⟩ := foldlM_total hrow (s := ⟨schedules, true⟩) trivial
  exact ⟨tx.schedules, by rw [fireTx, htx]; rfl⟩

/-- What a call does : it advances the due schedules it reads, and a run is created for each of
them, and no other. -/
theorem passes_next {s : Fleet} (hs : s.Sound cal) {input : TickInput}
    (hin : (passes cal).allowed s input) :
    ((passes cal).next s input).Sound cal ∧
    (∃ f : Schedule → Schedule, ((passes cal).next s input).schedules = s.schedules.map f ∧
      ∀ x ∈ s.schedules,
        (f x = x ∧ x ∉ dueSchedules input.fire input.fireScan s.schedules) ∨
        (x ∈ dueSchedules input.fire input.fireScan s.schedules ∧
          ∃ next, cal.advance input.fire.now x = .ok next ∧ f x = x.at next)) ∧
    ∀ k, k ∈ ((passes cal).next s input).db.workflowRuns.map Run.tenantKey ↔
      k ∈ s.db.workflowRuns.map Run.tenantKey ∨
        ∃ x ∈ dueSchedules input.fire input.fireScan s.schedules,
          k = (x.tenantId, occurrenceKey cal x) := by
  obtain ⟨rows, htx⟩ := fireTx_of_created input.fire input.fireScan hs.created
  obtain ⟨-, f, rfl, hf⟩ := fireTx_rows hs.ids htx
  obtain ⟨db', hloop, hr', hdefs, hkeys⟩ := createOccurrences_spec cal input.creates
    (dueSchedules input.fire input.fireScan s.schedules) 0 hs.toRunnable hin
    fun y hy => hs.defined y (mem_of_mem_dueSchedules hy)
  have hnext : (passes cal).next s input = ⟨s.schedules.map f, db'⟩ := by
    simp only [passes, fireSchedules, htx, hloop]
  have hrow : ∀ y ∈ s.schedules, f y = y ∨ ∃ t, f y = y.at t := fun y hy =>
    (hf y hy).imp And.left fun h => ⟨_, h.2.choose_spec.2⟩
  rw [hnext]
  refine ⟨⟨hr', ?_, fun y' hy' => ?_, fun y' hy' => ?_⟩, ⟨f, rfl, hf⟩, hkeys⟩
  · have hids : (s.schedules.map f).map Schedule.id = s.schedules.map Schedule.id := by
      rw [List.map_map]
      refine List.map_congr_left fun y hy => ?_
      rcases hrow y hy with h | ⟨t, h⟩ <;> simp [h, Schedule.at]
    rw [hids]
    exact hs.ids
  · obtain ⟨y, hy, rfl⟩ := List.mem_map.1 hy'
    rcases hrow y hy with h | ⟨t, h⟩
    · rw [h]
      exact hs.created y hy
    · rw [h]
      exact (hs.created y hy).at t
  · obtain ⟨y, hy, rfl⟩ := List.mem_map.1 hy'
    unfold Db.Defines
    rw [hdefs]
    rcases hrow y hy with h | ⟨t, h⟩ <;> rw [h] <;> exact hs.defined y hy

/-! ## The occurrences of one schedule -/

section

variable {Matches : ℤ → Prop} {location : cal.Location} {cron : cal.Cron} {now : ℤ}

theorem advance_eq (hlocation : cal.loadLocation x.timezone = some location)
    (hcron : cal.parse x.cronExpression = .ok cron) (now : ℤ) :
    cal.advance now x = .ok (cal.next cron location
      (if x.misfirePolicy = .skip ∧ minute < now - x.nextExecutionAt then now
        else x.nextExecutionAt)) := by
  simp only [Calendar.advance, hlocation, hcron]
  rfl

/-- A schedule moves forward. -/
theorem Calendar.Lawful.lt_of_advance (hcal : cal.Lawful cron location Matches)
    (hlocation : cal.loadLocation x.timezone = some location)
    (hcron : cal.parse x.cronExpression = .ok cron) {next : ℤ}
    (h : cal.advance now x = .ok next) : x.nextExecutionAt < next := by
  rw [advance_eq hlocation hcron] at h
  obtain rfl := Except.ok.inj h
  refine lt_of_le_of_lt ?_ (hcal.next _).1.1
  split
  case isTrue hlate =>
    have hminute : 0 < minute := by decide
    omega
  case isFalse => exact le_rfl

/-- The next occurrence is after `now` if none lies in between. -/
theorem Calendar.Lawful.lt_next_iff (hcal : cal.Lawful cron location Matches) (t now : ℤ) :
    now < cal.next cron location t ↔ ∀ u, t < u → u ≤ now → ¬Matches u := by
  have hleast := hcal.next t
  constructor
  · intro hlt u hu hnow hmatch
    exact absurd (hleast.2 ⟨hu, hmatch⟩) (by omega)
  · intro hnone
    by_contra hle
    exact hnone _ hleast.1.1 (not_lt.1 hle) hleast.1.2

/-- The outage is over for the schedule `x` : it is due after `now`, and of its occurrences up to
`now` the one it was at has a run. -/
structure PastOutage (cal : Calendar) (x : Schedule) (now : ℤ) (s : Fleet) : Prop where
  sound : s.Sound cal
  same : ∀ y ∈ s.schedules, y.id = x.id → y = x.at y.nextExecutionAt
  future : ∀ y ∈ s.schedules, y.id = x.id → now < y.nextExecutionAt
  runs : ∀ m, x.nextExecutionAt ≤ m → m ≤ now →
    (s.db.HasRun cal (x.at m) ↔ m = x.nextExecutionAt)

theorem PastOutage.next (hcal : cal.Lawful cron location Matches)
    (hlocation : cal.loadLocation x.timezone = some location)
    (hcron : cal.parse x.cronExpression = .ok cron) {s : Fleet} (h : PastOutage cal x now s)
    {input : TickInput} (hin : (passes cal).allowed s input) :
    PastOutage cal x now ((passes cal).next s input) := by
  obtain ⟨hsound, ⟨f, hrows, hf⟩, hkeys⟩ := passes_next h.sound hin
  refine ⟨hsound, fun y' hy' hid => ?_, fun y' hy' hid => ?_, fun m hm hnow => ?_⟩
  · rw [hrows] at hy'
    obtain ⟨y, hy, rfl⟩ := List.mem_map.1 hy'
    rcases hf y hy with ⟨hkeep, -⟩ | ⟨-, next, -, hadv⟩
    · rw [hkeep] at hid ⊢
      exact h.same y hy hid
    · rw [hadv] at hid ⊢
      rw [h.same y hy hid]
      rfl
  · rw [hrows] at hy'
    obtain ⟨y, hy, rfl⟩ := List.mem_map.1 hy'
    rcases hf y hy with ⟨hkeep, -⟩ | ⟨-, next, hnext, hadv⟩
    · rw [hkeep] at hid ⊢
      exact h.future y hy hid
    · rw [hadv] at hid ⊢
      have hsame := h.same y hy hid
      refine (h.future y hy hid).trans (hcal.lt_of_advance ?_ ?_ hnext)
      · rw [hsame]
        exact hlocation
      · rw [hsame]
        exact hcron
  · rw [Db.hasRun_iff, hkeys, ← Db.hasRun_iff, h.runs m hm hnow, or_iff_left]
    -- A later occurrence of the schedule is after `now`.
    rintro ⟨y, hy, hkey⟩
    obtain ⟨hid, htime⟩ := occurrenceKey_inj hcal.format (Prod.mk.inj hkey).2
    have hfuture := h.future y (mem_of_mem_dueSchedules hy) hid.symm
    have hlate : y.nextExecutionAt = m := htime.symm
    omega

/-- The first call that reads the schedule creates the run of the occurrence it is at. -/
theorem passes_first (hformat : Function.Injective cal.format) {s : Fleet} (hs : s.Sound cal)
    {input : TickInput} (hin : (passes cal).allowed s input)
    (hx : x ∈ dueSchedules input.fire input.fireScan s.schedules)
    (hnew : ∀ m, x.nextExecutionAt ≤ m → m ≤ input.fire.now → ¬s.db.HasRun cal (x.at m)) (m : ℤ)
    (hm : x.nextExecutionAt ≤ m) (hnow : m ≤ input.fire.now) :
    ((passes cal).next s input).db.HasRun cal (x.at m) ↔ m = x.nextExecutionAt := by
  obtain ⟨-, -, hkeys⟩ := passes_next hs hin
  rw [Db.hasRun_iff, hkeys, ← Db.hasRun_iff, or_iff_right (hnew m hm hnow)]
  constructor
  · rintro ⟨y, hy, hkey⟩
    obtain ⟨hid, htime⟩ := occurrenceKey_inj hformat (Prod.mk.inj hkey).2
    obtain rfl := Table.eq_of_key hs.ids (mem_of_mem_dueSchedules hx) (mem_of_mem_dueSchedules hy)
      hid
    exact htime
  · rintro rfl
    exact ⟨x, hx, rfl⟩

/-- Where the first call that reads the schedule leaves it. -/
theorem passes_first_next {s : Fleet} (hs : s.Sound cal) {input : TickInput}
    (hin : (passes cal).allowed s input)
    (hx : x ∈ dueSchedules input.fire input.fireScan s.schedules) {next : ℤ}
    (hnext : cal.advance input.fire.now x = .ok next) :
    (∃ y ∈ ((passes cal).next s input).schedules, y.id = x.id) ∧
      ∀ y ∈ ((passes cal).next s input).schedules, y.id = x.id → y = x.at next := by
  obtain ⟨hsound, ⟨f, hrows, hf⟩, -⟩ := passes_next hs hin
  have hmem := mem_of_mem_dueSchedules hx
  have hfx : f x = x.at next := by
    rcases hf x hmem with ⟨-, hnot⟩ | ⟨-, next', hnext', hadv⟩
    · exact absurd hx hnot
    · rw [hnext] at hnext'
      rw [hadv, Except.ok.inj hnext']
  have hrow : f x ∈ ((passes cal).next s input).schedules := hrows ▸ List.mem_map_of_mem hmem
  rw [hfx] at hrow
  exact ⟨⟨_, hrow, rfl⟩, fun y hy hid => Table.eq_of_key hsound.ids hy hrow hid⟩

/-- `r` is the run of an occurrence of `x` that was missed until `now`. -/
def Run.Missed (cal : Calendar) (x : Schedule) (now : ℤ) (r : Run) : Prop :=
  ∃ m, x.nextExecutionAt ≤ m ∧ m ≤ now ∧ r.tenantKey = (x.tenantId, occurrenceKey cal (x.at m))

theorem PastOutage.existsUnique_missed {s : Fleet} (h : PastOutage cal x now s)
    (hdue : x.nextExecutionAt ≤ now) : ∃! r, r ∈ s.db.workflowRuns ∧ r.Missed cal x now := by
  have hrun : s.db.HasRun cal (x.at x.nextExecutionAt) := (h.runs _ le_rfl hdue).2 rfl
  obtain ⟨r, hr, hkey⟩ := List.mem_map.1 (Db.hasRun_iff.1 hrun)
  refine ⟨r, ⟨hr, _, le_rfl, hdue, hkey⟩, ?_⟩
  rintro r' ⟨hr', m, hm, hnow, hkey'⟩
  have hm' : m = x.nextExecutionAt :=
    (h.runs m hm hnow).1 (Db.hasRun_iff.2 (hkey' ▸ List.mem_map_of_mem hr'))
  rw [hm'] at hkey'
  exact Table.eq_of_key h.sound.nodup hr' hr (hkey'.trans hkey.symm)

/-- After an outage, `catch_up_once` creates exactly one run for the occurrences missed, `skip`
none for one missed by more than a minute, and the first call leaves the schedule due in the
future, exactly if the occurrence it finds is the only one missed and, under `skip`, is not missed
by more than a minute. -/
theorem misfire_policy_iff (hcal : cal.Lawful cron location Matches) {s : Fleet} (hs : s.Sound cal)
    {input : TickInput} (hin : (passes cal).allowed s input)
    (hx : x ∈ dueSchedules input.fire input.fireScan s.schedules)
    (hlocation : cal.loadLocation x.timezone = some location)
    (hcron : cal.parse x.cronExpression = .ok cron)
    (hnew : ∀ m, x.nextExecutionAt ≤ m → m ≤ input.fire.now → ¬s.db.HasRun cal (x.at m)) :
    ((x.misfirePolicy = .catchUpOnce → ∀ inputs, (passes cal).Valid s (input :: inputs) →
        ∃! r, r ∈ ((passes cal).run s (input :: inputs)).db.workflowRuns ∧
          r.Missed cal x input.fire.now) ∧
      (x.misfirePolicy = .skip → ∀ inputs, (passes cal).Valid s (input :: inputs) →
        ∀ m, x.nextExecutionAt ≤ m → minute < input.fire.now - m →
          ¬((passes cal).run s (input :: inputs)).db.HasRun cal (x.at m)) ∧
      ∀ y ∈ ((passes cal).next s input).schedules, y.id = x.id →
        input.fire.now < y.nextExecutionAt) ↔
    (∀ u, x.nextExecutionAt < u → u ≤ input.fire.now → ¬Matches u) ∧
      (x.misfirePolicy = .skip → input.fire.now - x.nextExecutionAt ≤ minute) := by
  have hdue := due_of_mem_dueSchedules hx
  have hnext := advance_eq hlocation hcron input.fire.now
  have hfirst := passes_first hcal.format hs hin hx hnew
  obtain ⟨⟨y, hy, hid⟩, hsame⟩ := passes_first_next hs hin hx hnext
  have hrows := fun y hy hid => congrArg Schedule.nextExecutionAt (hsame y hy hid)
  rw [← hcal.lt_next_iff]
  constructor
  · rintro ⟨-, hskip, hfuture⟩
    have htimely : x.misfirePolicy = .skip → input.fire.now - x.nextExecutionAt ≤ minute := by
      intro hpolicy
      by_contra hlate
      have hrun := (hfirst _ le_rfl hdue).2 rfl
      exact hskip hpolicy [] ⟨hin, trivial⟩ _ le_rfl (not_le.1 hlate) hrun
    have hbase : ¬(x.misfirePolicy = .skip ∧ minute < input.fire.now - x.nextExecutionAt) :=
      fun h => absurd (htimely h.1) (not_le.2 h.2)
    have hlt := hfuture y hy hid
    rw [hrows y hy hid, Schedule.at, if_neg hbase] at hlt
    exact ⟨hlt, htimely⟩
  · rintro ⟨hlt, htimely⟩
    have hbase : ¬(x.misfirePolicy = .skip ∧ minute < input.fire.now - x.nextExecutionAt) :=
      fun h => absurd (htimely h.1) (not_le.2 h.2)
    have hfuture : ∀ y ∈ ((passes cal).next s input).schedules, y.id = x.id →
        input.fire.now < y.nextExecutionAt := by
      intro y hy hid
      rwa [hrows y hy hid, Schedule.at, if_neg hbase]
    have hpast : ∀ inputs, (passes cal).Valid s (input :: inputs) →
        PastOutage cal x input.fire.now ((passes cal).run s (input :: inputs)) := by
      intro inputs hv
      rw [Machine.run_cons]
      refine (passes cal).invariant (fun _ _ h hin => h.next hcal hlocation hcron hin)
        ⟨(passes_next hs hin).1, fun y hy hid => ?_, hfuture, hfirst⟩ hv.2
      rw [hsame y hy hid]
      rfl
    refine ⟨fun _ inputs hv => (hpast inputs hv).existsUnique_missed hdue,
      fun hpolicy inputs hv m hm hlate hrun => ?_, hfuture⟩
    have hminute : 0 < minute := by decide
    have hm' := ((hpast inputs hv).runs m hm (by omega)).1 hrun
    exact absurd (htimely hpolicy) (by omega)

end

/-! ## A daily schedule -/

/-- 24 hours. -/
def day : ℤ :=
  24 * 60 * minute

/-- A calendar in which every expression matches the midnights. -/
def midnights : Calendar where
  Location := Unit
  Cron := Unit
  loadLocation _ := some ()
  parse _ := .ok ()
  next _ _ t := (t / day + 1) * day
  format t := toString (Equiv.intEquivNat t)

theorem midnights_lawful : midnights.Lawful () () (day ∣ ·) where
  next t := by
    have hday : 0 < day := by decide
    refine ⟨⟨Int.lt_ediv_add_one_mul_self t hday, Dvd.intro_left _ rfl⟩, ?_⟩
    rintro u ⟨hu, k, rfl⟩
    have hk : t / day < k := Int.ediv_lt_of_lt_mul hday (by rwa [mul_comm])
    rw [mul_comm day k]
    exact Int.mul_le_mul_of_nonneg_right hk hday.le
  format _ _ h := Equiv.intEquivNat.injective (toString_injective h)

/-- A schedule of the chain, due at the first midnight. -/
def nightly (policy : MisfirePolicy) : Schedule :=
  ⟨100, 1, 1, "0 0 * * *", "UTC", day, policy, true, 1⟩

/-- No run has been created yet. -/
def outage (policy : MisfirePolicy) : Fleet :=
  ⟨[nightly policy], twoDefinitions.db⟩

/-- A call, with ids from `base` on. -/
def callAt (now : ℤ) (base : ℕ) : TickInput :=
  { tickAt now with creates := fun k => ⟨now, 0, fun i => base + Nat.pair k i, ""⟩ }

theorem freshDraws_callAt {now : ℤ} {base : ℕ} (h : ∀ i ∈ db.ids, i < base) :
    db.FreshDraws (callAt now base).creates 0 where
  fresh k _ := by
    refine ⟨fun j hj => ?_, fun i j hij => ?_⟩
    · have := h _ hj
      simp only [callAt] at this
      omega
    · have hpair : Nat.pair k i = Nat.pair k j := by
        simp only [callAt] at hij
        omega
      exact (Nat.pair_eq_pair.1 hpair).2
  apart k l hkl i j hij := by
    have hpair : Nat.pair k i = Nat.pair l j := by
      simp only [callAt] at hij
      omega
    exact hkl (Nat.pair_eq_pair.1 hpair).1

theorem outage_sound (policy : MisfirePolicy) : (outage policy).Sound midnights where
  wellFormed := init_twoDefinitions.wellFormed
  nodup := List.nodup_nil
  fits := by
    change ∀ d ∈ twoDefinitions.db.workflowDefinitions, ∀ entry ∈ d.dag.tasks,
      isInteger entry.2.priority = true
    decide
  ids := List.nodup_singleton _
  created := by
    simp only [outage, List.mem_singleton, forall_eq]
    cases policy with
    | skip => exact ⟨Env.at 1 100, 1, ⟨1, "0 0 * * *", "", "skip", some day⟩, twoDefinitions.db, [],
        nightly .skip, [nightly .skip], by decide, day, true, rfl⟩
    | catchUpOnce => exact ⟨Env.at 1 100, 1, ⟨1, "0 0 * * *", "", "catch_up_once", some day⟩,
        twoDefinitions.db, [], nightly .catchUpOnce, [nightly .catchUpOnce], by decide, day, true,
        rfl⟩
  defined := by
    simp only [outage, List.mem_singleton, forall_eq]
    exact ⟨⟨1, 1, "chain", 1, chainDag, none, 0⟩, by decide, rfl, rfl⟩

/-- An hour after the first midnight one occurrence has been missed, and one run is created. -/
theorem misfire_policy_iff_nightly :
    ∃! r, r ∈ ((passes midnights).run (outage .catchUpOnce)
      [callAt (day + 60 * minute) 300]).db.workflowRuns ∧
        r.Missed midnights (nightly .catchUpOnce) (day + 60 * minute) := by
  have hin : (passes midnights).allowed (outage .catchUpOnce) (callAt (day + 60 * minute) 300) :=
    freshDraws_callAt (by decide)
  have hx : nightly .catchUpOnce ∈ dueSchedules (callAt (day + 60 * minute) 300).fire
      (callAt (day + 60 * minute) 300).fireScan (outage .catchUpOnce).schedules := by decide
  have hone : ∀ u, (nightly .catchUpOnce).nextExecutionAt < u → u ≤ day + 60 * minute →
      ¬day ∣ u := by
    rintro u hu hle ⟨k, rfl⟩
    simp only [nightly, day, minute, second] at hu hle
    omega
  have hkept := (misfire_policy_iff midnights_lawful (outage_sound _) hin hx rfl rfl
    (fun m _ _ => nofun)).2 ⟨hone, nofun⟩
  exact hkept.1 rfl [] ⟨hin, trivial⟩

/-- An hour after the third midnight `catch_up_once` creates one run after the other, and is at
the second midnight after its first call. And `skip` creates the run of an occurrence missed by
an hour. -/
theorem misfire_policy_broken :
    ((passes midnights).Valid (outage .catchUpOnce) [callAt (3 * day + 60 * minute) 300,
        callAt (3 * day + 60 * minute) 400, callAt (3 * day + 60 * minute) 500] ∧
      ((passes midnights).run (outage .catchUpOnce) [callAt (3 * day + 60 * minute) 300,
        callAt (3 * day + 60 * minute) 400,
        callAt (3 * day + 60 * minute) 500]).db.workflowRuns.map Run.idempotencyKey =
        [occurrenceKey midnights ((nightly .catchUpOnce).at day),
          occurrenceKey midnights ((nightly .catchUpOnce).at (2 * day)),
          occurrenceKey midnights ((nightly .catchUpOnce).at (3 * day))] ∧
      ((passes midnights).next (outage .catchUpOnce)
        (callAt (3 * day + 60 * minute) 300)).schedules.map Schedule.nextExecutionAt =
        [2 * day]) ∧
    ((passes midnights).Valid (outage .skip) [callAt (day + 60 * minute) 300] ∧
      ((passes midnights).run (outage .skip)
        [callAt (day + 60 * minute) 300]).db.workflowRuns.map Run.idempotencyKey =
        [occurrenceKey midnights ((nightly .skip).at day)]) := by
  refine ⟨⟨⟨freshDraws_callAt (by decide), freshDraws_callAt (by decide +kernel),
    freshDraws_callAt (by decide +kernel), trivial⟩, by decide +kernel, by decide +kernel⟩,
    ⟨freshDraws_callAt (by decide), trivial⟩, by decide +kernel⟩

end RunMesh
