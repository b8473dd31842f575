import Mathlib.Data.List.Basic
import Mathlib.Data.Option.Basic

/-!
# JSON values

`Json ν` are JSON values with the numbers `ν`. An object is the list of its fields as they are
written. Of several fields with one name the last counts (`lastField`), and the order of the
fields does not. So two values are the same if they look the same along every path (`Same`).

A value is decoded, stored or encoded by building it again with other numbers (`rebuild`), an
object field by field, a later field replacing an earlier one of its name. That commutes with
looking along a path (`look_rebuild`).
-/

/-- A JSON value. -/
inductive Json (ν : Type) where
  | null
  | bool (b : Bool)
  | number (n : ν)
  | string (s : String)
  | array (values : List (Json ν))
  | object (fields : List (String × Json ν))

namespace Json

variable {ν μ : Type}

/-! ## Fields -/

section Fields

variable {α β : Type}

/-- The value of the last field with the name. -/
def lastField (k : String) : List (String × α) → Option α
  | [] => none
  | f :: fs => (lastField k fs).or (if f.1 = k then some f.2 else none)

/-- The fields with one set, as in a map. -/
def assign (k : String) (a : α) (fs : List (String × α)) : List (String × α) :=
  fs.filter (fun f => f.1 ≠ k) ++ [(k, a)]

theorem lastField_append (k : String) (fs gs : List (String × α)) :
    lastField k (fs ++ gs) = (lastField k gs).or (lastField k fs) := by
  induction fs with
  | nil => simp [lastField]
  | cons f fs ih => simp [lastField, ih, Option.or_assoc]

theorem lastField_filter_ne (k k' : String) (fs : List (String × α)) :
    lastField k (fs.filter fun f => f.1 ≠ k') = if k = k' then none else lastField k fs := by
  induction fs with
  | nil => simp [lastField]
  | cons f fs ih =>
    by_cases hf : f.1 = k'
    · rw [List.filter_cons_of_neg (by simpa using hf), ih, lastField, hf]
      by_cases hk : k = k'
      · rw [if_pos hk, if_pos hk]
      · rw [if_neg hk, if_neg hk, if_neg (Ne.symm hk), Option.or_none]
    · rw [List.filter_cons_of_pos (by simpa using hf), lastField, ih]
      by_cases hk : k = k'
      · rw [if_pos hk, if_pos hk, if_neg (hk ▸ hf), Option.none_or]
      · rw [if_neg hk, if_neg hk, lastField]

theorem lastField_assign (k k' : String) (a : α) (fs : List (String × α)) :
    lastField k (assign k' a fs) = if k = k' then some a else lastField k fs := by
  rw [assign, lastField_append, lastField_filter_ne]
  by_cases hk : k = k'
  · simp [lastField, hk]
  · simp [lastField, hk, Ne.symm hk]

theorem mem_of_lastField {k : String} {a : α} {fs : List (String × α)}
    (h : lastField k fs = some a) : (k, a) ∈ fs := by
  induction fs with
  | nil => cases h
  | cons f fs ih =>
    rw [lastField, Option.or_eq_some_iff] at h
    rcases h with h | ⟨-, h⟩
    · exact List.mem_cons_of_mem _ (ih h)
    · split at h
      · rename_i hk
        cases h
        exact hk ▸ List.mem_cons_self
      · cases h

end Fields

/-! ## Paths -/

/-- What is seen of a value without its parts. -/
inductive Node (ν : Type) where
  | null
  | bool (b : Bool)
  | number (n : ν)
  | string (s : String)
  | array (length : ℕ)
  | object
  deriving DecidableEq

/-- The value without its parts. -/
def node : Json ν → Node ν
  | null => .null
  | bool b => .bool b
  | number n => .number n
  | string s => .string s
  | array vs => .array vs.length
  | object _ => .object

/-- A step from a value to a part. -/
inductive Step where
  | index (i : ℕ)
  | field (k : String)

/-- What is seen at the end of a path. -/
def look : List Step → Json ν → Option (Node ν)
  | [], v => some v.node
  | .index i :: p, array vs => vs[i]?.bind (look p)
  | .field k :: p, object fs => (lastField k fs).bind (look p)
  | _ :: _, _ => none

/-- The values are the same, whatever the order of their fields. -/
def Same (v w : Json ν) : Prop :=
  ∀ p, look p v = look p w

/-! ## Building a value again -/

mutual

/-- The value with other numbers, or `null` where there is none. -/
def rebuild (g : ν → Option μ) : Json ν → Json μ
  | null => null
  | bool b => bool b
  | number n => ((g n).map number).getD null
  | string s => string s
  | array vs => array (rebuildList g vs)
  | object fs => object (rebuildFields g [] fs)

/-- The same for the values of an array. -/
def rebuildList (g : ν → Option μ) : List (Json ν) → List (Json μ)
  | [] => []
  | v :: vs => rebuild g v :: rebuildList g vs

/-- The same for the fields of an object, of which the last of a name is kept. -/
def rebuildFields (g : ν → Option μ) (acc : List (String × Json μ)) :
    List (String × Json ν) → List (String × Json μ)
  | [] => acc
  | (k, v) :: fs => rebuildFields g (assign k (rebuild g v) acc) fs

end

/-- The node with another number, or `null` if there is none. -/
def Node.rebuild (g : ν → Option μ) : Node ν → Node μ
  | null => null
  | bool b => bool b
  | number n => ((g n).map number).getD null
  | string s => string s
  | array n => array n
  | object => object

theorem rebuildList_eq_map (g : ν → Option μ) (vs : List (Json ν)) :
    rebuildList g vs = vs.map (rebuild g) := by
  induction vs with
  | nil => rfl
  | cons v vs ih => rw [rebuildList, ih, List.map_cons]

theorem lastField_rebuildFields (g : ν → Option μ) (k : String) (fs : List (String × Json ν)) :
    ∀ acc, lastField k (rebuildFields g acc fs) =
      ((lastField k fs).map (rebuild g)).or (lastField k acc) := by
  induction fs with
  | nil => simp [rebuildFields, lastField]
  | cons f fs ih =>
    intro acc
    rw [rebuildFields, ih, lastField_assign, lastField]
    by_cases hk : f.1 = k
    · cases lastField k fs <;> simp [hk]
    · simp [hk, Ne.symm hk]

theorem node_rebuild (g : ν → Option μ) (v : Json ν) : (v.rebuild g).node = v.node.rebuild g := by
  cases v with
  | number n =>
    rw [rebuild, node, Node.rebuild]
    cases g n <;> rfl
  | array vs => rw [rebuild, node, rebuildList_eq_map, List.length_map, node, Node.rebuild]
  | null | bool | string | object => rw [rebuild, node, node, Node.rebuild]

/-- A number has no parts. -/
theorem look_cons_number (g : ν → Option μ) (n : ν) (s : Step) (p : List Step) :
    look (s :: p) ((number n).rebuild g) = none := by
  rw [rebuild]
  cases g n <;> cases s <;> rfl

/-- What is seen of the value built again. -/
theorem look_rebuild (g : ν → Option μ) (p : List Step) :
    ∀ v : Json ν, look p (v.rebuild g) = (look p v).map (Node.rebuild g) := by
  induction p with
  | nil => exact fun v => congrArg some (node_rebuild g v)
  | cons s p ih =>
    intro v
    cases v with
    | number n =>
      rw [look_cons_number]
      cases s <;> rfl
    | array vs =>
      cases s with
      | index i =>
        rw [rebuild, rebuildList_eq_map, look, look, List.getElem?_map, Option.map_bind,
          Option.bind_map]
        exact congrArg _ (funext ih)
      | field k => rfl
    | object fs =>
      cases s with
      | index i => rfl
      | field k =>
        rw [rebuild, look, look, lastField_rebuildFields, lastField, Option.or_none,
          Option.map_bind, Option.bind_map]
        exact congrArg _ (funext ih)
    | null | bool | string => cases s <;> rfl

/-! ## Conditions on all parts -/

mutual

/-- Every number and every text, the names of the fields among them, satisfies its condition. -/
def all (number : ν → Bool) (text : String → Bool) : Json ν → Bool
  | null => true
  | bool _ => true
  | .number n => number n
  | string s => text s
  | array vs => allList number text vs
  | object fs => allFields number text fs

/-- The same for the values of an array. -/
def allList (number : ν → Bool) (text : String → Bool) : List (Json ν) → Bool
  | [] => true
  | v :: vs => all number text v && allList number text vs

/-- The same for the fields of an object. -/
def allFields (number : ν → Bool) (text : String → Bool) : List (String × Json ν) → Bool
  | [] => true
  | (k, v) :: fs => text k && all number text v && allFields number text fs

end

section All

variable {onNumber : ν → Bool} {onText : String → Bool}

theorem allList_iff {vs : List (Json ν)} :
    allList onNumber onText vs = true ↔ ∀ v ∈ vs, all onNumber onText v = true := by
  induction vs with
  | nil => simp [allList]
  | cons v vs ih => simp [allList, ih]

theorem all_of_mem_fields {fs : List (String × Json ν)} (h : allFields onNumber onText fs = true)
    {f : String × Json ν} (hf : f ∈ fs) : all onNumber onText f.2 = true := by
  induction fs with
  | nil => cases hf
  | cons g fs ih =>
    rw [allFields, Bool.and_eq_true, Bool.and_eq_true] at h
    rcases List.mem_cons.1 hf with rfl | hf
    · exact h.1.2
    · exact ih h.2 hf

/-- The condition holds of what is seen. -/
theorem of_look {n : ν} (p : List Step) :
    ∀ {v : Json ν}, all onNumber onText v = true → look p v = some (.number n) →
      onNumber n = true := by
  induction p with
  | nil =>
    intro v h hlook
    cases v with
    | number m =>
      cases hlook
      rwa [all] at h
    | _ => cases hlook
  | cons s p ih =>
    intro v h hlook
    cases v with
    | array vs =>
      cases s with
      | index i =>
        obtain ⟨w, hw, hlook⟩ := Option.bind_eq_some_iff.1 hlook
        rw [all, allList_iff] at h
        exact ih (h w (List.mem_of_getElem? hw)) hlook
      | field k => cases hlook
    | object fs =>
      cases s with
      | index i => cases hlook
      | field k =>
        obtain ⟨w, hw, hlook⟩ := Option.bind_eq_some_iff.1 hlook
        rw [all] at h
        exact ih (all_of_mem_fields h (mem_of_lastField hw)) hlook
    | _ => cases s <;> cases hlook

end All

end Json
