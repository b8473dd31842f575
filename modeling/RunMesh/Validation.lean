import RunMesh.Workflow
import Mathlib.Data.Finset.Card
import Mathlib.Data.List.Nodup
import Mathlib.Logic.Relation

/-!
# What `ValidateDAG` accepts

The recursive closure `visit` of `ValidateDAG` has no bound on its depth, and each `range`
over the map takes the entries in an order of its own. `Visits` and `VisitsEach` are that
recursion as it stands, by rules, and `Validates` is the whole function, with the orders of
its two loops as arguments.

* The search ends on every input. A white key turns grey before its dependencies are
  visited, so each level of the recursion has fewer white keys than the one above
  (`card_whites_update_lt`), and the depth of `visit` in `validateDAG` is never used up
  (`visits_visit`).
* The grey keys are the keys whose dependencies are being visited, so the current key is a
  dependency of each of them, directly or through others. Without a cycle the search never
  meets a grey key (`visit_of_acyclic`). With one it fails, since it blackens accessible keys
  only (`visit_ok`).
* The loop over the entries checks each of them, and counts (`foldlM_checkTask_iff`).

`validates_ok_iff` is the verdict, in any order of the loops.
-/

namespace RunMesh

open Fallible

variable {dag : DAG}

/-! ## Well-formed definitions -/

/-- What the entry of one task has to satisfy. -/
structure EntryValid (dag : DAG) (entry : String × TaskSpec) : Prop where
  key : matchesKeyPattern entry.1 = true
  handler : matchesKeyPattern entry.2.handler = true
  attempts : 0 ≤ entry.2.maximumAttempts ∧ entry.2.maximumAttempts ≤ 100
  timeout : 0 ≤ entry.2.timeoutSeconds ∧ entry.2.timeoutSeconds ≤ 86400
  existing : ∀ dep ∈ entry.2.dependsOn, dep ∈ dag.keys
  other : entry.1 ∉ entry.2.dependsOn
  distinct : entry.2.dependsOn.Nodup

/-- The well-formed definitions without a cycle. -/
structure DAG.Valid (dag : DAG) : Prop where
  tasks : 1 ≤ dag.tasks.length ∧ dag.tasks.length ≤ 500
  entries : ∀ entry ∈ dag.tasks, EntryValid dag entry
  edges : (dag.tasks.map fun entry => entry.2.dependsOn.length).sum ≤ 5000
  acyclic : ∀ key, ¬Relation.TransGen dag.DependsOn key key

/-! ## The recursion of the source -/

mutual

/-- The closure `visit`. -/
inductive Visits (dag : DAG) :
    (String → Color) → String → Except DagError (String → Color) → Prop
  | grey {color key} : color key = .grey → Visits dag color key (.error (.cycle key))
  | black {color key} : color key = .black → Visits dag color key (.ok color)
  | white {color key r} : color key = .white →
      VisitsEach dag (Function.update color key .grey) (dag.dependsOn key) r →
      Visits dag color key (r.map fun color => Function.update color key .black)

/-- A loop that calls `visit` and returns its first error. -/
inductive VisitsEach (dag : DAG) :
    (String → Color) → List String → Except DagError (String → Color) → Prop
  | nil {color} : VisitsEach dag color [] (.ok color)
  | stop {color key keys e} : Visits dag color key (.error e) →
      VisitsEach dag color (key :: keys) (.error e)
  | next {color color' key keys r} : Visits dag color key (.ok color') →
      VisitsEach dag color' keys r → VisitsEach dag color (key :: keys) r

end

/-- `ValidateDAG` returns `r` when its loops take the entries and the keys of the map in the
orders `entries` and `keys`. -/
def Validates (dag : DAG) (entries : List (String × TaskSpec)) (keys : List String)
    (r : Except DagError Unit) : Prop :=
  if dag.tasks.length = 0 then r = .error .noTasks
  else if maxTasks < dag.tasks.length then r = .error .tooManyTasks
  else
    match entries.foldlM (checkTask dag) 0 with
    | .error e => r = .error e
    | .ok edges =>
      if maxEdges < edges then r = .error .tooManyEdges
      else ∃ found, VisitsEach dag (fun _ => .white) keys found ∧ r = found.map fun _ => ()

mutual

theorem Visits.unique {color : String → Color} {key : String}
    {r r' : Except DagError (String → Color)} :
    Visits dag color key r → Visits dag color key r' → r = r'
  | .grey _, .grey _ => rfl
  | .black _, .black _ => rfl
  | .white _ h, .white _ h' => by rw [h.unique h']
  | .grey h, .black h' => by simp [h] at h'
  | .grey h, .white h' _ => by simp [h] at h'
  | .black h, .grey h' => by simp [h] at h'
  | .black h, .white h' _ => by simp [h] at h'
  | .white h _, .grey h' => by simp [h] at h'
  | .white h _, .black h' => by simp [h] at h'

theorem VisitsEach.unique {color : String → Color} {keys : List String}
    {r r' : Except DagError (String → Color)} :
    VisitsEach dag color keys r → VisitsEach dag color keys r' → r = r'
  | .nil, .nil => rfl
  | .stop h, .stop h' => by cases h.unique h'; rfl
  | .stop h, .next h' _ => by cases h.unique h'
  | .next h _, .stop h' => by cases h.unique h'
  | .next h hs, .next h' hs' => by
    cases h.unique h'
    exact hs.unique hs'

end

/-! ## The search ends -/

/-- The keys of the map that are still white. -/
def whites (dag : DAG) (color : String → Color) : Finset String :=
  dag.keys.toFinset.filter fun key => color key = .white

theorem dependsOn_eq_nil {key : String} (h : key ∉ dag.keys) : dag.dependsOn key = [] := by
  have hnone : dag.tasks.find? (fun entry => entry.1 = key) = none :=
    List.find?_eq_none.2 fun entry hentry => by
      simpa using fun heq : entry.1 = key => h (List.mem_map.2 ⟨entry, hentry, heq⟩)
  simp [DAG.dependsOn, hnone]

theorem mem_keys_of_dependsOn {key dep : String} (h : dag.DependsOn dep key) :
    key ∈ dag.keys := by
  by_contra hkey
  rw [DAG.DependsOn, dependsOn_eq_nil hkey] at h
  cases h

/-- A search that succeeds only blackens. -/
theorem visit_paints : ∀ (depth : ℕ) (color : String → Color) (key : String)
    {color' : String → Color}, visit dag depth color key = .ok color' →
      ∀ k, color' k ≠ .black → color' k = color k
  | 0, _, _, _, h => by cases h
  | depth + 1, color, key, color', h => by
    cases hk : color key with
    | grey => simp [visit, hk] at h
    | black =>
      obtain rfl : color = color' := by simpa [visit, hk] using h
      exact fun _ _ => rfl
    | white =>
      simp only [visit, hk, map_eq_ok] at h
      obtain ⟨color₂, hf, rfl⟩ := h
      have hloop := (foldlM_ok (Q := fun _ _ => True)
        (I := fun c => ∀ k, c k ≠ .black → c k = Function.update color key .grey k)
        (fun c dep c' _ hI hv => ⟨fun k hk' => ?_, trivial⟩)
        (fun _ _ _ _ _ _ _ => trivial) (fun _ _ => rfl) hf).1
      · intro k hk'
        by_cases hkk : k = key
        · simp [hkk] at hk'
        · simpa [hkk] using hloop k (by simpa [hkk] using hk')
      · have hc := visit_paints depth c dep hv k hk'
        rw [hc]
        exact hI k (hc ▸ hk')

theorem whites_subset {depth : ℕ} {color color' : String → Color} {key : String}
    (h : visit dag depth color key = .ok color') : whites dag color' ⊆ whites dag color := by
  intro k hk
  simp only [whites, Finset.mem_filter] at hk ⊢
  refine ⟨hk.1, ?_⟩
  rw [← visit_paints depth color key h k (by simp [hk.2])]
  exact hk.2

/-- Fewer keys are white below a key of the map. -/
theorem card_whites_update_lt {color : String → Color} {key : String} (hkey : key ∈ dag.keys)
    (hwhite : color key = .white) :
    (whites dag (Function.update color key .grey)).card < (whites dag color).card := by
  refine Finset.card_lt_card (Finset.ssubset_iff_subset_ne.2 ⟨fun k hk => ?_, fun heq => ?_⟩)
  · simp only [whites, Finset.mem_filter] at hk ⊢
    refine ⟨hk.1, ?_⟩
    by_cases hkk : k = key
    · exact hkk ▸ hwhite
    · simpa [hkk] using hk.2
  · have hmem : key ∈ whites dag color := by simp [whites, hkey, hwhite]
    rw [← heq] at hmem
    simp [whites] at hmem

/-- The loop over keys, given that one search ends within the depth. -/
theorem visitsEach_foldlM {depth : ℕ}
    (hvisit : ∀ color key, (whites dag color).card < depth →
      Visits dag color key (visit dag depth color key)) (keys : List String) :
    ∀ color, (whites dag color).card < depth →
      VisitsEach dag color keys (keys.foldlM (visit dag depth) color) := by
  induction keys with
  | nil => exact fun _ _ => .nil
  | cons key keys ih =>
    intro color hdepth
    rw [List.foldlM_cons]
    have hkey := hvisit color key hdepth
    cases hv : visit dag depth color key with
    | error e => exact .stop (hv ▸ hkey)
    | ok color' =>
      refine .next (hv ▸ hkey) (ih color' ?_)
      exact (Finset.card_le_card (whites_subset hv)).trans_lt hdepth

/-- A depth above the number of white keys is never used up. -/
theorem visits_visit : ∀ (depth : ℕ) (color : String → Color) (key : String),
    (whites dag color).card < depth → Visits dag color key (visit dag depth color key)
  | 0, _, _, h => by omega
  | depth + 1, color, key, hdepth => by
    cases hk : color key with
    | grey => simpa [visit, hk] using Visits.grey hk
    | black => simpa [visit, hk] using Visits.black hk
    | white =>
      simp only [visit, hk]
      refine .white hk ?_
      by_cases hkey : key ∈ dag.keys
      · have hlt := card_whites_update_lt hkey hk
        exact visitsEach_foldlM (visits_visit depth) _ _ (by omega)
      · rw [dependsOn_eq_nil hkey]
        exact .nil

theorem card_whites_lt (color : String → Color) :
    (whites dag color).card < dag.tasks.length + 1 := by
  have hcard : dag.keys.toFinset.card ≤ dag.tasks.length :=
    (List.toFinset_card_le dag.keys).trans_eq (by simp [DAG.keys])
  exact Nat.lt_succ_of_le ((Finset.card_filter_le _ _).trans hcard)

theorem visitsEach_iff {keys : List String} {r : Except DagError (String → Color)} :
    VisitsEach dag (fun _ => .white) keys r ↔
      r = keys.foldlM (visit dag (dag.tasks.length + 1)) fun _ => .white := by
  have hends : VisitsEach dag (fun _ => .white) keys _ :=
    visitsEach_foldlM (visits_visit (dag.tasks.length + 1)) keys _ (card_whites_lt _)
  exact ⟨fun h => h.unique hends, fun h => h ▸ hends⟩

/-! ## The search finds the cycles -/

/-- Without a cycle the search from a key below every grey one succeeds. -/
theorem visit_of_acyclic (hacyclic : ∀ key, ¬Relation.TransGen dag.DependsOn key key) :
    ∀ (depth : ℕ) (color : String → Color) (key : String), (whites dag color).card < depth →
      (∀ k, color k = .grey → Relation.TransGen dag.DependsOn key k) →
      ∃ color', visit dag depth color key = .ok color'
  | 0, _, _, h, _ => by omega
  | depth + 1, color, key, hdepth, hgrey => by
    cases hk : color key with
    | grey => exact absurd (hgrey key hk) (hacyclic key)
    | black => exact ⟨color, by simp [visit, hk]⟩
    | white =>
      simp only [visit, hk]
      by_cases hkey : key ∈ dag.keys
      · have hlt := card_whites_update_lt hkey hk
        -- every grey key of the loop is `key` or above it
        let Below := fun c : String → Color => (whites dag c).card < depth ∧
          ∀ k, c k = .grey → k = key ∨ Relation.TransGen dag.DependsOn key k
        have hstep : ∀ c, ∀ dep ∈ dag.dependsOn key, Below c →
            ∃ c', visit dag depth c dep = .ok c' ∧ Below c' := by
          rintro c dep hdep ⟨hc, hbelow⟩
          have hfirst : dag.DependsOn dep key := hdep
          obtain ⟨c', hv⟩ := visit_of_acyclic hacyclic depth c dep hc fun k hk' =>
            (hbelow k hk').elim (fun h => h ▸ .single hfirst) (.head hfirst)
          refine ⟨c', hv, (Finset.card_le_card (whites_subset hv)).trans_lt hc, fun k hk' => ?_⟩
          have hsame := visit_paints depth c dep hv k (by simp [hk'])
          exact hbelow k (hsame ▸ hk')
        have hstart : Below (Function.update color key .grey) := by
          refine ⟨by omega, fun k hk' => ?_⟩
          by_cases hkk : k = key
          · exact .inl hkk
          · exact .inr (hgrey k (by simpa [hkk] using hk'))
        obtain ⟨color', hloop, -⟩ := foldlM_total hstep hstart
        exact ⟨_, by rw [hloop]; rfl⟩
      · rw [dependsOn_eq_nil hkey]
        exact ⟨_, rfl⟩

theorem not_transGen_self {key : String} (h : Acc dag.DependsOn key) :
    ¬Relation.TransGen dag.DependsOn key key := by
  intro hcycle
  have hacc := h.transGen
  clear h
  induction hacc with
  | intro key _ ih => exact ih key hcycle hcycle

/-- The search from all keys, in any order, succeeds exactly if there is no cycle. -/
theorem search_ok_iff {keys : List String} (hkeys : keys.Perm dag.keys) :
    (∃ color, keys.foldlM (visit dag (dag.tasks.length + 1)) (fun _ => .white) = .ok color) ↔
      ∀ key, ¬Relation.TransGen dag.DependsOn key key := by
  constructor
  · rintro ⟨color, hv⟩ key hcycle
    -- a key of a cycle has a dependency, so it is a key of the map
    obtain ⟨dep, -, hdep⟩ := Relation.TransGen.tail'_iff.1 hcycle
    have hacc := acc_of_search hv (hkeys.mem_iff.2 (mem_keys_of_dependsOn hdep))
    exact not_transGen_self hacc hcycle
  · intro hacyclic
    -- between two searches no key is grey
    have hstep : ∀ c, ∀ key ∈ keys, (∀ k, c k ≠ Color.grey) →
        ∃ c', visit dag (dag.tasks.length + 1) c key = .ok c' ∧ ∀ k, c' k ≠ .grey := by
      intro c key _ hc
      obtain ⟨c', hv⟩ := visit_of_acyclic hacyclic _ c key (card_whites_lt c)
        fun k hk => absurd hk (hc k)
      exact ⟨c', hv, fun k hk => hc k (visit_paints _ c key hv k (by simp [hk]) ▸ hk)⟩
    obtain ⟨color, hv, -⟩ := foldlM_total (s := fun _ => .white) hstep fun _ => by simp
    exact ⟨color, hv⟩

/-! ## The checks of the entries -/

/-- The loop over the dependencies of a task, `seen` being those before. -/
theorem foldlM_checkDependency_iff {key : String} (deps : List String) :
    ∀ {n : ℕ} {seen : List String} {st : ℕ × List String},
      deps.foldlM (checkDependency dag key) (n, seen) = .ok st ↔
        (∀ dep ∈ deps, dep ≠ key ∧ dep ∈ dag.keys ∧ dep ∉ seen) ∧ deps.Nodup ∧
          st = (n + deps.length, deps.reverse ++ seen) := by
  induction deps with
  | nil => exact fun {n seen st} => ⟨fun h => by cases h; simp, fun h => by simp [h.2.2]; rfl⟩
  | cons dep deps ih =>
    intro n seen st
    constructor
    · intro h
      obtain ⟨st₁, hdep, hrest⟩ := foldlM_cons_ok h
      obtain ⟨hother, hmem, hseen, rfl⟩ := checkDependency_ok hdep
      obtain ⟨hall, hnd, rfl⟩ := ih.1 hrest
      refine ⟨fun d hd => ?_, List.nodup_cons.2 ⟨fun hd => ?_, hnd⟩, ?_⟩
      · rcases List.mem_cons.1 hd with rfl | hd
        · exact ⟨hother, hmem, hseen⟩
        · obtain ⟨h1, h2, h3⟩ := hall d hd
          exact ⟨h1, h2, fun hin => h3 (by simp [hin])⟩
      · exact (hall dep hd).2.2 (by simp)
      · simp [Nat.add_assoc, Nat.add_comm 1]
    · rintro ⟨hall, hnd, rfl⟩
      obtain ⟨hother, hmem, hseen⟩ := hall dep (by simp)
      have hfirst : checkDependency dag key (n, seen) dep = .ok (n + 1, dep :: seen) := by
        simp [checkDependency, hother, hmem, hseen]
      rw [List.foldlM_cons, hfirst, ok_bind]
      refine ih.2 ⟨fun d hd => ?_, (List.nodup_cons.1 hnd).2, ?_⟩
      · obtain ⟨h1, h2, h3⟩ := hall d (by simp [hd])
        refine ⟨h1, h2, fun hin => ?_⟩
        rcases List.mem_cons.1 hin with rfl | hin
        · exact (List.nodup_cons.1 hnd).1 hd
        · exact h3 hin
      · simp [Nat.add_assoc, Nat.add_comm 1]

theorem checkTask_iff {edges edges' : ℕ} {entry : String × TaskSpec} :
    checkTask dag edges entry = .ok edges' ↔
      EntryValid dag entry ∧ edges' = edges + entry.2.dependsOn.length := by
  unfold checkTask
  constructor
  · intro h
    split_ifs at h with hkey hhandler hattempts htimeout
    obtain ⟨st, hf, rfl⟩ := map_eq_ok.1 h
    obtain ⟨hall, hnd, rfl⟩ := (foldlM_checkDependency_iff _).1 hf
    exact ⟨⟨by simpa using hkey, by simpa using hhandler, by omega, by omega,
      fun dep hdep => (hall dep hdep).2.1, fun hself => (hall _ hself).1 rfl, hnd⟩, rfl⟩
  · rintro ⟨hv, rfl⟩
    have hattempts := hv.attempts
    have htimeout := hv.timeout
    rw [if_neg (by simp [hv.key]), if_neg (by simp [hv.handler]), if_neg (by omega),
      if_neg (by omega), map_eq_ok]
    refine ⟨_, (foldlM_checkDependency_iff _).2 ⟨fun dep hdep => ?_, hv.distinct, rfl⟩, rfl⟩
    exact ⟨fun heq => hv.other (heq ▸ hdep), hv.existing dep hdep, by simp⟩

/-- The loop over the entries passes if each entry does, and counts the dependencies. -/
theorem foldlM_checkTask_iff {entries : List (String × TaskSpec)} {edges : ℕ} :
    entries.foldlM (checkTask dag) 0 = .ok edges ↔ (∀ entry ∈ entries, EntryValid dag entry) ∧
      edges = (entries.map fun entry => entry.2.dependsOn.length).sum := by
  rw [foldlM_eq_ok_iff (P := EntryValid dag)
    (g := fun edges entry => edges + entry.2.dependsOn.length) fun _ _ _ => checkTask_iff,
    List.sum_eq_foldl, List.foldl_map]

/-! ## The verdict -/

/-- `validateDAG` with the orders of its loops as arguments. -/
def validateInOrder (dag : DAG) (entries : List (String × TaskSpec)) (keys : List String) :
    Except DagError Unit :=
  if dag.tasks.length = 0 then .error .noTasks
  else if maxTasks < dag.tasks.length then .error .tooManyTasks
  else
    match entries.foldlM (checkTask dag) 0 with
    | .error e => .error e
    | .ok edges =>
      if maxEdges < edges then .error .tooManyEdges
      else (keys.foldlM (visit dag (dag.tasks.length + 1)) fun _ => .white).map fun _ => ()

/-- The function of the source ends with one result, the computed one. -/
theorem validates_iff {entries : List (String × TaskSpec)} {keys : List String}
    {r : Except DagError Unit} :
    Validates dag entries keys r ↔ r = validateInOrder dag entries keys := by
  unfold Validates validateInOrder
  split_ifs
  · rfl
  · rfl
  · cases hc : entries.foldlM (checkTask dag) 0 with
    | error e => rfl
    | ok edges =>
      simp only
      split_ifs
      · rfl
      · simp only [visitsEach_iff, exists_eq_left]

/-- In any order of the loops, what is accepted is a well-formed definition without a cycle. -/
theorem validateInOrder_ok_iff {entries : List (String × TaskSpec)} {keys : List String}
    (hentries : entries.Perm dag.tasks) (hkeys : keys.Perm dag.keys) :
    validateInOrder dag entries keys = .ok () ↔ dag.Valid := by
  have hedges : (entries.map fun entry => entry.2.dependsOn.length).sum =
      (dag.tasks.map fun entry => entry.2.dependsOn.length).sum :=
    (hentries.map _).sum_nat
  unfold validateInOrder
  constructor
  · intro h
    split_ifs at h with h0 hmax
    cases hc : entries.foldlM (checkTask dag) 0 with
    | error e => rw [hc] at h; cases h
    | ok edges =>
      simp only [hc] at h
      split_ifs at h with hle
      obtain ⟨hall, rfl⟩ := foldlM_checkTask_iff.1 hc
      obtain ⟨color, hv, -⟩ := map_eq_ok.1 h
      exact ⟨⟨by omega, Nat.le_of_not_lt hmax⟩,
        fun entry hentry => hall entry (hentries.mem_iff.2 hentry),
        hedges ▸ Nat.le_of_not_lt hle, (search_ok_iff hkeys).1 ⟨color, hv⟩⟩
  · intro hvalid
    obtain ⟨hpos, hmax⟩ := hvalid.tasks
    have hc := foldlM_checkTask_iff.2
      ⟨fun entry hentry => hvalid.entries entry (hentries.mem_iff.1 hentry), rfl⟩
    obtain ⟨color, hv⟩ := (search_ok_iff hkeys).2 hvalid.acyclic
    rw [if_neg (by omega), if_neg (show ¬maxTasks < _ from Nat.not_lt.2 hmax), hc]
    simp only [hedges]
    rw [if_neg (show ¬maxEdges < _ from Nat.not_lt.2 hvalid.edges), hv]
    rfl

theorem valid_of_validateDAG (h : validateDAG dag = .ok ()) : dag.Valid :=
  (validateInOrder_ok_iff (List.Perm.refl _) (List.Perm.refl _)).1 h

/-- `ValidateDAG` ends on every definition, in every order of its two loops over the map, and
returns no error exactly on the well-formed definitions without a cycle. -/
theorem validateDAG_correct (dag : DAG) :
    (∀ entries keys, ∃ r, ∀ r', Validates dag entries keys r' ↔ r' = r) ∧
    (∀ entries keys, entries.Perm dag.tasks → keys.Perm dag.keys →
      (Validates dag entries keys (.ok ()) ↔ dag.Valid)) ∧
    Validates dag dag.tasks dag.keys (validateDAG dag) ∧
    (validateDAG dag = .ok () ↔ dag.Valid) := by
  refine ⟨fun entries keys => ⟨_, fun r' => validates_iff⟩, fun entries keys he hk => ?_,
    validates_iff.2 rfl, validateInOrder_ok_iff (List.Perm.refl _) (List.Perm.refl _)⟩
  rw [validates_iff, eq_comm]
  exact validateInOrder_ok_iff he hk

/-- Two tasks, each waiting for the other. -/
def loopDag : DAG where
  name := "loop"
  tasks := [("a", ⟨"examples.greet", ["b"], 0, 0, 0⟩), ("b", ⟨"examples.upper", ["a"], 0, 0, 0⟩)]
  nodup := by decide

/-- The loops taking the map backwards, the cycle is found as well. -/
theorem validateDAG_correct_loop :
    ¬Validates loopDag loopDag.tasks.reverse loopDag.keys.reverse (.ok ()) := by
  rw [(validateDAG_correct loopDag).2.1 _ _ (List.reverse_perm _) (List.reverse_perm _)]
  intro hvalid
  have hab : loopDag.DependsOn "a" "b" := by simp [DAG.DependsOn, DAG.dependsOn, loopDag]
  have hba : loopDag.DependsOn "b" "a" := by simp [DAG.DependsOn, DAG.dependsOn, loopDag]
  exact hvalid.acyclic "a" (.head hab (.single hba))

end RunMesh
