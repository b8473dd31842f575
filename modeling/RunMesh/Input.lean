import RunMesh.Json
import RunMesh.Rounding
import RunMesh.Readiness

/-!
# The input of a task

The input of a run is a JSON object. `createRun` decodes it into a map, only to see that it is
one, and the text is stored as `JSONB` in the run and in each of its tasks. `rpc.snapshot` decodes
the input of a leased task into a map and makes a `structpb.Struct` of it. The SDK's `task` makes a
map of that and encodes it.

A decoded number is a `float64`, which has 53 significant bits, and an encoded one is the shortest
decimal that is read as that `float64`. So the client gets the input it submitted exactly if each
integer in it is the one printed for its `float64` (`input_fidelity_iff`). Up to `2 ^ 53` every
integer is (`survives_of_le`), and up to `2 ^ 54` no odd one beyond (`survives_iff`). A client that
decodes its input into `float64`s loses nothing more (`same_rebuild_task_snapshot`).
-/

namespace RunMesh

open Rounding

/-! ## Numbers -/

/-- The first power of two that is not a `float64`. -/
def floatLimit : ℕ :=
  2 ^ 1024

theorem two_pow_lt_floatLimit {k : ℕ} (h : k < 1024) : 2 ^ k < floatLimit := by
  rw [floatLimit]
  gcongr
  exact Nat.one_lt_two

/-- The finite `float64`s that are integers. -/
@[ext] structure Float64 where
  value : ℤ
  representable : Representable 53 value.natAbs
  finite : value.natAbs < floatLimit
  deriving DecidableEq

/-- The number with the sign of `n`. -/
def withSign (n : ℤ) (m : ℕ) : ℤ :=
  if n < 0 then -m else m

theorem natAbs_withSign (n : ℤ) (m : ℕ) : (withSign n m).natAbs = m := by
  unfold withSign
  split <;> simp

theorem withSign_congr {a b : ℤ} (h : a < 0 ↔ b < 0) (m : ℕ) : withSign a m = withSign b m := by
  simp only [withSign, h]

/-- `strconv.ParseFloat` of an integer, which may be out of range. -/
def parseFloat (n : ℤ) : Option Float64 :=
  if h : roundTo 53 n.natAbs < floatLimit then
    some ⟨withSign n (roundTo 53 n.natAbs),
      (natAbs_withSign n _).symm ▸ representable_roundTo (by decide) _,
      (natAbs_withSign n _).symm ▸ h⟩
  else none

/-- `strconv.AppendFloat` with precision -1, as `json.Marshal` calls it. -/
def formatFloat (x : Float64) : ℤ :=
  withSign x.value (shortest 53 x.value.natAbs)

/-- The integer is the one printed for its `float64`. -/
def Survives (n : ℤ) : Prop :=
  (parseFloat n).map formatFloat = some n

instance : DecidablePred Survives := fun _ => inferInstanceAs (Decidable (_ = _))

/-! ## Values -/

/-- A `structpb.Value`. -/
inductive StructValue
  | nullValue
  | numberValue (x : Float64)
  | stringValue (s : String)
  | boolValue (b : Bool)
  | structValue (fields : List (String × StructValue))
  | listValue (values : List StructValue)

mutual

/-- `structpb.NewValue`. -/
def newValue : Json Float64 → StructValue
  | .null => .nullValue
  | .bool b => .boolValue b
  | .number x => .numberValue x
  | .string s => .stringValue s
  | .array vs => .listValue (newList vs)
  | .object fs => .structValue (newStruct fs)

/-- `structpb.NewList`. -/
def newList : List (Json Float64) → List StructValue
  | [] => []
  | v :: vs => newValue v :: newList vs

/-- `structpb.NewStruct`. -/
def newStruct : List (String × Json Float64) → List (String × StructValue)
  | [] => []
  | (k, v) :: fs => (k, newValue v) :: newStruct fs

end

mutual

/-- `Value.AsInterface`. -/
def asInterface : StructValue → Json Float64
  | .nullValue => .null
  | .boolValue b => .bool b
  | .numberValue x => .number x
  | .stringValue s => .string s
  | .listValue vs => .array (asSlice vs)
  | .structValue fs => .object (asMap fs)

/-- `ListValue.AsSlice`. -/
def asSlice : List StructValue → List (Json Float64)
  | [] => []
  | v :: vs => asInterface v :: asSlice vs

/-- `Struct.AsMap`. -/
def asMap : List (String × StructValue) → List (String × Json Float64)
  | [] => []
  | (k, v) :: fs => (k, asInterface v) :: asMap fs

end

mutual

theorem asInterface_newValue : ∀ v, asInterface (newValue v) = v
  | .null | .bool _ | .number _ | .string _ => rfl
  | .array vs => by rw [newValue, asInterface, asSlice_newList]
  | .object fs => by rw [newValue, asInterface, asMap_newStruct]

theorem asSlice_newList : ∀ vs, asSlice (newList vs) = vs
  | [] => rfl
  | v :: vs => by rw [newList, asSlice, asInterface_newValue, asSlice_newList]

/-- A map comes back from its `Struct`. -/
theorem asMap_newStruct : ∀ fs, asMap (newStruct fs) = fs
  | [] => rfl
  | (k, v) :: fs => by rw [newStruct, asMap, asInterface_newValue, asMap_newStruct]

end

/-- The value as `JSONB` : the numbers as they are, and one field for each name. -/
def jsonb : Json ℤ → Json ℤ :=
  .rebuild some

/-- `json.Unmarshal` into a `map[string]any`. A number out of range is an error and leaves `nil`
in its place, anything but an object an error and no field. -/
def unmarshal : Json ℤ → List (String × Json Float64)
  | .object fs => Json.rebuildFields parseFloat [] fs
  | _ => []

/-- `json.Marshal`. -/
def marshal : Json Float64 → Json ℤ :=
  .rebuild fun x => some (formatFloat x)

/-- The input is accepted : `createRun` decodes it into a map without an error, and `JSONB` has no
`\u0000`. -/
def acceptsInput : Json ℤ → Bool
  | .object fs => (Json.object fs).all (fun n => (parseFloat n).isSome) fun s => '\x00' ∉ s.toList
  | _ => false

/-! ## From the row to the client -/

/-- A `TaskSnapshot`. -/
structure TaskSnapshot where
  input : List (String × StructValue)
  inputArtifactUri : String

/-- `rpc.snapshot`, both errors of which are ignored. -/
def snapshot (input : Json ℤ) (inputArtifactUri : Option String) : TaskSnapshot :=
  ⟨newStruct (unmarshal input), inputArtifactUri.getD ""⟩

/-- The SDK's `task`. -/
def task (value : TaskSnapshot) : Json ℤ × String :=
  (marshal (.object (asMap value.input)), value.inputArtifactUri)

/-- The input `Client.Lease` returns for a task of a run with the input artifact, if any. `parse`
reads a JSON text, and `download` is `DownloadArtifact`. -/
def leasedInput (parse : String → Option (Json ℤ)) (download : String → Option (Json ℤ))
    (t : TaskRun) (inputArtifactUri : Option String) : Option (Json ℤ) := do
  let stored ← parse t.input
  let result := task (snapshot (jsonb stored) inputArtifactUri)
  if result.2 ≠ "" then download result.2 else some result.1

/-- Every task has the input of its run. -/
theorem Reachable.input_eq {s : State} (h : Reachable s) :
    ∀ t ∈ s.db.taskRuns, ∀ r ∈ s.db.workflowRuns, t.workflowRunId = r.id → t.input = r.input := by
  refine (h.induction (P := fun db => db.WellFormed ∧ ∀ t ∈ db.taskRuns, ∀ r ∈ db.workflowRuns,
    t.workflowRunId = r.id → t.input = r.input)
    (fun _ h0 => ⟨h0.wellFormed, by simp [h0.taskRuns]⟩) ?_).2
  rintro c db reply db' ⟨hw, hinput⟩ hf hok
  refine ⟨exec_wellFormed hw hf hok, fun t' ht' r' hr' hid => ?_⟩
  rcases exec_moves hw.toKeyed hok with hm | ⟨run, dag, hc⟩
  · obtain ⟨t, ht, hmt⟩ := hm.of_mem_task ht'
    obtain ⟨r, hr, hmr⟩ := hm.of_mem_run hr'
    rw [hmt.workflowRunId, hmr.id] at hid
    rw [hmt.input, hmr.input, hinput t ht r hr hid]
  · rw [hc.runs, List.mem_append, List.mem_singleton] at hr'
    rcases hr' with hr | rfl
    · exact hinput t' (hc.mem_of_old hf hr ht' hid) r' hr hid
    · obtain ⟨entry, -, rfl⟩ := hc.mem_of_new hf hw ht' hid
      rfl

/-! ## Integers -/

theorem withSign_eq_iff {n : ℤ} {m : ℕ} : withSign n m = n ↔ m = n.natAbs := by
  unfold withSign
  split <;> omega

/-- What is printed for the `float64` of an integer. -/
theorem formatFloat_parseFloat {n : ℤ} {x : Float64} (h : parseFloat n = some x) :
    formatFloat x = withSign n (shortest 53 (roundTo 53 n.natAbs)) := by
  unfold parseFloat at h
  split at h
  · obtain rfl := Option.some.inj h
    have hpos : n < 0 → 0 < roundTo 53 n.natAbs := fun hn =>
      two_pow_le_roundTo (k := 0) (by decide) (by omega)
    have hsign : withSign n (roundTo 53 n.natAbs) < 0 ↔ n < 0 := by
      unfold withSign
      split <;> omega
    rw [formatFloat, natAbs_withSign]
    exact withSign_congr hsign _
  · cases h

/-- A `float64` is read as it was printed. -/
theorem parseFloat_formatFloat (x : Float64) : parseFloat (formatFloat x) = some x := by
  have hround : roundTo 53 (formatFloat x).natAbs = x.value.natAbs := by
    rw [formatFloat, natAbs_withSign, roundTo_shortest x.representable]
  have hsign : formatFloat x < 0 ↔ x.value < 0 := by
    have hne : x.value < 0 → shortest 53 x.value.natAbs ≠ 0 := by
      intro hneg hzero
      rw [formatFloat, natAbs_withSign, hzero] at hround
      have hvalue : x.value.natAbs = 0 := hround.symm
      omega
    unfold formatFloat withSign
    split <;> omega
  rw [parseFloat, dif_pos (hround ▸ x.finite)]
  refine congrArg some (Float64.ext ?_)
  change withSign (formatFloat x) (roundTo 53 (formatFloat x).natAbs) = x.value
  rw [hround]
  exact (withSign_congr hsign _).trans (withSign_eq_iff.2 rfl)

theorem survives_iff_shortest {n : ℤ} : Survives n ↔
    roundTo 53 n.natAbs < floatLimit ∧ shortest 53 (roundTo 53 n.natAbs) = n.natAbs := by
  by_cases h : roundTo 53 n.natAbs < floatLimit
  · obtain ⟨x, hx⟩ : ∃ x, parseFloat n = some x := ⟨_, dif_pos h⟩
    rw [Survives, hx, Option.map_some, Option.some.injEq, formatFloat_parseFloat hx,
      withSign_eq_iff, and_iff_right h]
  · rw [Survives, parseFloat, dif_neg h]
    simp [h]

/-- Below `2 ^ 54` the integers that survive are the `float64`s. -/
theorem survives_iff {n : ℤ} (h : n.natAbs < 2 ^ 54) :
    Survives n ↔ Representable 53 n.natAbs := by
  have hround : roundTo 53 n.natAbs < floatLimit :=
    (roundTo_le_two_pow h).trans_lt (two_pow_lt_floatLimit (by decide))
  rw [survives_iff_shortest, and_iff_right hround, shortest_roundTo_iff (by decide) h]

/-- Up to `2 ^ 53` every integer survives. -/
theorem survives_of_le {n : ℤ} (h : n.natAbs ≤ 2 ^ 53) : Survives n :=
  (survives_iff (h.trans_lt (by decide))).2 (representable_of_le (by decide) h)

/-! ## The whole input -/

/-- The object the client gets from the object that was submitted. -/
theorem task_snapshot (fs : List (String × Json ℤ)) (uri : Option String) :
    (task (snapshot (jsonb (.object fs)) uri)).1 =
      (((Json.object fs).rebuild some).rebuild parseFloat).rebuild
        fun x => some (formatFloat x) := by
  rw [task, snapshot, asMap_newStruct, jsonb, Json.rebuild, unmarshal, marshal, Json.rebuild,
    Json.rebuild, Json.rebuild]

/-- What is seen of the object the client gets. -/
theorem look_task_snapshot (fs : List (String × Json ℤ)) (uri : Option String)
    (p : List Json.Step) :
    Json.look p (task (snapshot (jsonb (.object fs)) uri)).1 =
      (Json.look p (.object fs)).map
        (Json.Node.rebuild fun n => (parseFloat n).map formatFloat) := by
  rw [task_snapshot, Json.look_rebuild, Json.look_rebuild, Json.look_rebuild, Option.map_map,
    Option.map_map]
  congr 1
  funext node
  cases node with
  | number n => cases hn : parseFloat n <;> simp [Json.Node.rebuild, hn]
  | null | bool | string | array | object => rfl

/-- As `float64`s, the numbers the client gets are those that were submitted. -/
theorem same_rebuild_task_snapshot (fs : List (String × Json ℤ)) (uri : Option String) :
    ((task (snapshot (jsonb (.object fs)) uri)).1.rebuild parseFloat).Same
      ((Json.object fs).rebuild parseFloat) := by
  intro p
  rw [Json.look_rebuild, look_task_snapshot, Json.look_rebuild, Option.map_map]
  congr 1
  funext node
  cases node with
  | number n =>
    cases hn : parseFloat n with
    | none => simp [Json.Node.rebuild, hn]
    | some x => simp [Json.Node.rebuild, hn, parseFloat_formatFloat]
  | null | bool | string | array | object => rfl

/-- The client gets the object that was submitted exactly if its integers survive. -/
theorem same_task_snapshot_iff {fs : List (String × Json ℤ)}
    (hacc : acceptsInput (.object fs) = true) (uri : Option String) :
    (task (snapshot (jsonb (.object fs)) uri)).1.Same (.object fs) ↔
      ∀ p n, Json.look p (.object fs) = some (.number n) → Survives n := by
  constructor
  · intro hsame p n hlook
    have hp := hsame p
    have hall : (Json.object fs).all (fun n => (parseFloat n).isSome)
      (fun s => '\x00' ∉ s.toList) = true := hacc
    have hfits := Json.of_look p hall hlook
    obtain ⟨x, hx⟩ := Option.isSome_iff_exists.1 hfits
    rw [look_task_snapshot, hlook] at hp
    simpa [Json.Node.rebuild, hx, Survives] using hp
  · intro hall p
    rw [look_task_snapshot]
    cases hlook : Json.look p (.object fs) with
    | none => rfl
    | some node =>
      cases node with
      | number n =>
        have hn : (parseFloat n).map formatFloat = some n := hall p n hlook
        simp [Json.Node.rebuild, hn]
      | null | bool | string | array | object => rfl

/-- For every run without an input artifact whose input was accepted, and every task of it : the
client that leases the task gets the submitted object exactly if every integer in it survives,
so in particular if none is beyond `2 ^ 53`. -/
theorem input_fidelity_iff (parse download : String → Option (Json ℤ)) {s : State}
    (hs : Reachable s) {r : Run} (hr : r ∈ s.db.workflowRuns) (huri : r.inputArtifactUri = none)
    {v : Json ℤ} (hv : parse r.input = some v) (hacc : acceptsInput v = true) {t : TaskRun}
    (ht : t ∈ s.db.taskRuns) (hid : t.workflowRunId = r.id) :
    ∃ w, leasedInput parse download t r.inputArtifactUri = some w ∧
      (w.Same v ↔ ∀ p n, Json.look p v = some (.number n) → Survives n) ∧
      ((∀ p n, Json.look p v = some (.number n) → n.natAbs ≤ 2 ^ 53) → w.Same v) := by
  obtain ⟨fs, rfl⟩ : ∃ fs, v = .object fs := by
    cases v with
    | object fs => exact ⟨fs, rfl⟩
    | _ => cases hacc
  have hiff := same_task_snapshot_iff hacc none
  refine ⟨(task (snapshot (jsonb (.object fs)) none)).1, ?_, hiff, fun hsmall =>
    hiff.2 fun p n hlook => survives_of_le (hsmall p n hlook)⟩
  rw [leasedInput, hs.input_eq t ht r hr hid, hv, huri]
  rfl

/-! ## Two inputs -/

/-- An object with an integer. -/
def withId (n : ℤ) : Json ℤ :=
  .object [("id", .number n)]

/-- The text of an object with an integer. -/
def idText (n : ℤ) : String :=
  "\x7b\"id\":" ++ toString n ++ "\x7d"

/-- Reads that text and no other. -/
def readId (n : ℤ) (text : String) : Option (Json ℤ) :=
  if text = idText n then some (withId n) else none

/-- A run of the chain with such an input. -/
def startedWithId (n : ℤ) : State :=
  twoDefinitions.after [(1, .createRun 1 none 1 "k" (idText n) none)]

theorem reachable_startedWithId (n : ℤ) : Reachable (startedWithId n) :=
  reachable_after init_twoDefinitions (.cons_cons (show twoDefinitions.clock ≤ 1 by decide)
    (.singleton _))

/-- The client gets `2 ^ 53` for `2 ^ 53 + 1`. -/
theorem input_changed :
    ∃ s, Reachable s ∧ ∃ r ∈ s.db.workflowRuns, r.inputArtifactUri = none ∧
      readId 9007199254740993 r.input = some (withId 9007199254740993) ∧
      acceptsInput (withId 9007199254740993) = true ∧
      ∃ t ∈ s.db.taskRuns, t.workflowRunId = r.id ∧
        ∃ w, leasedInput (readId 9007199254740993) (fun _ => none) t r.inputArtifactUri = some w ∧
          Json.look [.field "id"] w = some (.number 9007199254740992) ∧
          ¬w.Same (withId 9007199254740993) := by
  obtain ⟨r, hr, huri, hinput, t, ht, hid⟩ :
      ∃ r ∈ (startedWithId 9007199254740993).db.workflowRuns, r.inputArtifactUri = none ∧
        r.input = idText 9007199254740993 ∧
        ∃ t ∈ (startedWithId 9007199254740993).db.taskRuns, t.workflowRunId = r.id := by
    decide +kernel
  have hread : readId 9007199254740993 r.input = some (withId 9007199254740993) := by
    rw [hinput, readId, if_pos rfl]
  have hs := reachable_startedWithId 9007199254740993
  have hlook : Json.look [.field "id"] (task (snapshot (jsonb (withId 9007199254740993)) none)).1 =
      some (.number 9007199254740992) := by decide +kernel
  refine ⟨_, hs, r, hr, huri, hread, by decide +kernel, t, ht, hid, _, ?_, hlook, fun hsame => ?_⟩
  · rw [leasedInput, hs.input_eq t ht r hr hid, hread, huri]
    rfl
  · have heq := hlook.symm.trans (hsame [.field "id"])
    revert heq
    decide

theorem input_fidelity_iff_exact :
    ∃ t ∈ (startedWithId 9007199254740992).db.taskRuns, ∃ w,
      leasedInput (readId 9007199254740992) (fun _ => none) t none = some w ∧
        w.Same (withId 9007199254740992) := by
  obtain ⟨r, hr, huri, hinput, t, ht, hid⟩ :
      ∃ r ∈ (startedWithId 9007199254740992).db.workflowRuns, r.inputArtifactUri = none ∧
        r.input = idText 9007199254740992 ∧
        ∃ t ∈ (startedWithId 9007199254740992).db.taskRuns, t.workflowRunId = r.id := by
    decide +kernel
  have hread : readId 9007199254740992 r.input = some (withId 9007199254740992) := by
    rw [hinput, readId, if_pos rfl]
  obtain ⟨w, hw, -, hsame⟩ := input_fidelity_iff (readId 9007199254740992) (fun _ => none)
    (reachable_startedWithId 9007199254740992) hr huri hread (by decide +kernel) ht hid
  refine ⟨t, ht, w, huri ▸ hw, hsame fun p n hlook => ?_⟩
  have hall : (withId 9007199254740992).all (fun n => n.natAbs ≤ 2 ^ 53) (fun _ => true) =
      true := by decide +kernel
  have hle := Json.of_look p hall hlook
  exact of_decide_eq_true hle

end RunMesh
