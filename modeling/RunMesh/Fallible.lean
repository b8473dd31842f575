import Mathlib.Tactic.SplitIfs

/-!
# Code that returns at the first error

Sequential code that returns at the first error is a chain of binds in `Except`.
`require` and `orError` are its checks, and `bind_eq_ok` inverts a chain that succeeded,
one statement at a time.

A loop over a list that returns at the first error is `List.foldlM`. `foldlM_ok` is its
invariant rule : an invariant `I` of the loop variable holds at the end, and so does, for
each element, what its own iteration establishes, provided the other iterations keep it.
-/

namespace Fallible

universe u

variable {σ α ε : Type*}

/-! ## Statements in sequence -/

/-- Fail with `e` unless `c` holds. -/
def require (e : ε) (c : Bool) : Except ε Unit :=
  if c then .ok () else .error e

/-- The value, or the error `e` if there is none. -/
def orError (e : ε) : Option α → Except ε α
  | some a => .ok a
  | none => .error e

theorem ok_bind {α β : Type u} (a : α) (f : α → Except ε β) : (Except.ok a >>= f) = f a :=
  rfl

theorem error_bind {α β : Type u} (e : ε) (f : α → Except ε β) :
    (Except.error e >>= f) = .error e :=
  rfl

theorem require_bind_error {β : Type} (e : ε) (c : Bool) :
    (require e c >>= fun _ => (.error e : Except ε β)) = .error e := by
  cases c <;> rfl

@[simp] theorem require_eq_ok {e : ε} {c : Bool} {u : Unit} :
    require e c = .ok u ↔ c = true := by
  unfold require
  split_ifs with h <;> simp [h]

@[simp] theorem orError_eq_ok {e : ε} {o : Option α} {a : α} :
    orError e o = .ok a ↔ o = some a := by
  cases o <;> simp [orError]

@[simp] theorem mapError_eq_ok {ε' : Type*} {x : Except ε α} {f : ε → ε'} {a : α} :
    x.mapError f = .ok a ↔ x = .ok a := by
  cases x <;> simp [Except.mapError]

@[simp] theorem map_eq_ok {β : Type*} {x : Except ε α} {f : α → β} {b : β} :
    x.map f = .ok b ↔ ∃ a, x = .ok a ∧ f a = b := by
  cases x <;> simp [Except.map]

@[simp] theorem bind_eq_ok {α β : Type u} {x : Except ε α} {f : α → Except ε β} {b : β} :
    (x >>= f) = .ok b ↔ ∃ a, x = .ok a ∧ f a = .ok b := by
  cases x with
  | error e => simp [bind, Except.bind]
  | ok a => simp [bind, Except.bind]

@[simp] theorem require_eq_error {e e' : ε} {c : Bool} :
    require e c = .error e' ↔ c = false ∧ e = e' := by
  cases c <;> simp [require]

@[simp] theorem orError_eq_error {e e' : ε} {o : Option α} :
    orError e o = .error e' ↔ o = none ∧ e = e' := by
  cases o <;> simp [orError]

@[simp] theorem bind_eq_error {α β : Type u} {x : Except ε α} {f : α → Except ε β} {e : ε} :
    (x >>= f) = .error e ↔ x = .error e ∨ ∃ a, x = .ok a ∧ f a = .error e := by
  cases x with
  | error e => simp [bind, Except.bind]
  | ok a => simp [bind, Except.bind]

theorem map_map {α β γ : Type u} (x : Except ε α) (f : α → β) (g : β → γ) :
    (x.map f).map g = x.map fun a => g (f a) := by
  cases x <;> rfl

theorem mapError_map {α β : Type u} {ε' : Type*} (x : Except ε α) (f : α → β) (g : ε → ε') :
    (x.map f).mapError g = (x.mapError g).map f := by
  cases x <;> rfl

/-- Two chains that agree up to `g` after the same first statement. -/
theorem bind_eq_map_bind {α β β' : Type u} {x : Except ε α} {f : α → Except ε β}
    {f' : α → Except ε β'} {g : β → β'} (h : ∀ a, x = .ok a → f' a = (f a).map g) :
    (x >>= f') = (x >>= f).map g := by
  cases x with
  | error e => rfl
  | ok a => exact h a rfl

/-- Two chains that agree up to `g` after first statements that agree up to `k`. -/
theorem map_bind_eq_map_bind {α α' β β' : Type u} {x : Except ε α} {k : α → α'}
    {f : α → Except ε β} {f' : α' → Except ε β'} {g : β → β'}
    (h : ∀ a, x = .ok a → f' (k a) = (f a).map g) : (x.map k >>= f') = (x >>= f).map g := by
  cases x with
  | error e => rfl
  | ok a => exact h a rfl

/-! ## Loops -/

variable {f : σ → α → Except ε σ}

theorem foldlM_cons_ok {a : α} {as : List α} {s s' : σ}
    (h : (a :: as).foldlM f s = Except.ok s') :
    ∃ s₁, f s a = Except.ok s₁ ∧ as.foldlM f s₁ = Except.ok s' := by
  rw [List.foldlM_cons] at h
  cases hf : f s a with
  | error e => rw [hf] at h; cases h
  | ok s₁ => rw [hf] at h; exact ⟨s₁, rfl, h⟩

/-- The loop invariant rule. -/
theorem foldlM_ok {I : σ → Prop} {Q : σ → α → Prop} {as : List α}
    (hstep : ∀ s a s', a ∈ as → I s → f s a = Except.ok s' → I s' ∧ Q s' a)
    (hkeep : ∀ s a b s', I s → f s a = Except.ok s' → Q s b → Q s' b) {s s' : σ} (hs : I s)
    (h : as.foldlM f s = Except.ok s') : I s' ∧ ∀ a ∈ as, Q s' a := by
  suffices ∀ (bs cs : List α) (s : σ), (∀ a ∈ bs, a ∈ as) → I s → (∀ a ∈ cs, Q s a) →
      bs.foldlM f s = Except.ok s' → I s' ∧ ∀ a ∈ cs ++ bs, Q s' a by
    simpa using this as [] s (fun _ ha => ha) hs (by simp) h
  intro bs
  induction bs with
  | nil =>
    intro cs s _ hI hQ h
    cases h
    exact ⟨hI, by simpa using hQ⟩
  | cons b bs ih =>
    intro cs s hsub hI hQ h
    obtain ⟨s₁, hb, hrest⟩ := foldlM_cons_ok h
    obtain ⟨hI₁, hQ₁⟩ := hstep s b s₁ (hsub b (by simp)) hI hb
    have hcs : ∀ a ∈ cs ++ [b], Q s₁ a := by
      intro a ha
      rcases List.mem_append.1 ha with ha | ha
      · exact hkeep s b a s₁ hI hb (hQ a ha)
      · rw [List.mem_singleton.1 ha]
        exact hQ₁
    simpa using ih (cs ++ [b]) s₁ (fun a ha => hsub a (by simp [ha])) hI₁ hcs hrest

/-- A loop whose iterations all succeed under an invariant succeeds. -/
theorem foldlM_total {I : σ → Prop} {as : List α}
    (hstep : ∀ s, ∀ a ∈ as, I s → ∃ s', f s a = Except.ok s' ∧ I s') {s : σ} (hs : I s) :
    ∃ s', as.foldlM f s = Except.ok s' ∧ I s' := by
  induction as generalizing s with
  | nil => exact ⟨s, rfl, hs⟩
  | cons a as ih =>
    obtain ⟨s₁, ha, hs₁⟩ := hstep s a (by simp) hs
    rw [List.foldlM_cons, ha, ok_bind]
    exact ih (fun s b hb => hstep s b (by simp [hb])) hs₁

/-- A loop whose iterations check their element and then compute succeeds exactly if every
element passes, and computes as if nothing were checked. -/
theorem foldlM_eq_ok_iff {P : α → Prop} {g : σ → α → σ}
    (hf : ∀ s a s', f s a = Except.ok s' ↔ P a ∧ s' = g s a) {as : List α} {s s' : σ} :
    as.foldlM f s = Except.ok s' ↔ (∀ a ∈ as, P a) ∧ s' = as.foldl g s := by
  induction as generalizing s with
  | nil => exact ⟨fun h => by cases h; simp, fun h => congrArg _ h.2.symm⟩
  | cons a as ih =>
    constructor
    · intro h
      obtain ⟨s₁, ha, hrest⟩ := foldlM_cons_ok h
      obtain ⟨hP, rfl⟩ := (hf s a s₁).1 ha
      obtain ⟨hall, rfl⟩ := ih.1 hrest
      exact ⟨by simpa using ⟨hP, hall⟩, rfl⟩
    · rintro ⟨hall, hs'⟩
      rw [List.foldlM_cons, (hf s a _).2 ⟨hall a (by simp), rfl⟩, ok_bind]
      exact ih.2 ⟨fun b hb => hall b (by simp [hb]), hs'⟩

end Fallible
