import Mathlib.Data.List.Infix

/-!
# Runs of a labelled machine

A `Machine` moves from state to state under labels. `next s a` is the state after `a`,
and `allowed s a` is what the environment promises about a label taken in `s`. A run is
a list of labels, `run s as` the state it ends in, and `Along p s as` says that every
label of the run satisfies `p` in the state it is taken from.

`invariant` is the induction every safety result uses : what holds at the start and is
kept by each step holds after each run. `forall_prefix_iff_along` is its exact form. If,
from a state with `P`, a step keeps `P` exactly when it is `good`, then `P` holds after
every prefix of a run exactly when every step of the run is good.
-/

/-- A labelled machine : the state after a label, and the labels the environment allows. -/
structure Machine (σ α : Type*) where
  /-- The state after a label. -/
  next : σ → α → σ
  /-- What is promised of a label in the state it is taken from. -/
  allowed : σ → α → Prop

namespace Machine

variable {σ α : Type*} (M : Machine σ α)

/-- The state after the labels, in order. -/
def run : σ → List α → σ
  | s, [] => s
  | s, a :: as => run (M.next s a) as

/-- Every label satisfies `p` in the state it is taken from. -/
def Along (p : σ → α → Prop) : σ → List α → Prop
  | _, [] => True
  | s, a :: as => p s a ∧ Along p (M.next s a) as

/-- Every label is allowed in the state it is taken from. -/
def Valid : σ → List α → Prop :=
  M.Along M.allowed

instance decidableAlong (p : σ → α → Prop) [∀ s a, Decidable (p s a)] :
    ∀ s as, Decidable (M.Along p s as)
  | _, [] => .isTrue trivial
  | s, a :: as => @instDecidableAnd _ _ _ (decidableAlong p (M.next s a) as)

instance (s : σ) (as : List α) [∀ s a, Decidable (M.allowed s a)] : Decidable (M.Valid s as) :=
  M.decidableAlong M.allowed s as

/-- The number of labels that satisfy `p` in the state they are taken from. -/
def countAlong (p : σ → α → Bool) : σ → List α → ℕ
  | _, [] => 0
  | s, a :: as => (p s a).toNat + countAlong p (M.next s a) as

@[simp] theorem run_nil (s : σ) : M.run s [] = s :=
  rfl

@[simp] theorem run_cons (s : σ) (a : α) (as : List α) :
    M.run s (a :: as) = M.run (M.next s a) as :=
  rfl

@[simp] theorem along_nil (p : σ → α → Prop) (s : σ) : M.Along p s [] :=
  trivial

@[simp] theorem along_cons (p : σ → α → Prop) (s : σ) (a : α) (as : List α) :
    M.Along p s (a :: as) ↔ p s a ∧ M.Along p (M.next s a) as :=
  Iff.rfl

theorem run_append (as bs : List α) : ∀ s : σ, M.run s (as ++ bs) = M.run (M.run s as) bs := by
  induction as with
  | nil => intro s; rfl
  | cons a as ih => intro s; exact ih (M.next s a)

@[simp] theorem run_snoc (s : σ) (as : List α) (a : α) :
    M.run s (as ++ [a]) = M.next (M.run s as) a :=
  M.run_append as [a] s

theorem along_append (p : σ → α → Prop) (as bs : List α) :
    ∀ s : σ, M.Along p s (as ++ bs) ↔ M.Along p s as ∧ M.Along p (M.run s as) bs := by
  induction as with
  | nil => intro s; simp
  | cons a as ih => intro s; simp [ih, and_assoc]

theorem along_snoc (p : σ → α → Prop) (s : σ) (as : List α) (a : α) :
    M.Along p s (as ++ [a]) ↔ M.Along p s as ∧ p (M.run s as) a := by
  simp [along_append]

theorem along_and (p q : σ → α → Prop) (as : List α) :
    ∀ s : σ, M.Along (fun s a => p s a ∧ q s a) s as ↔ M.Along p s as ∧ M.Along q s as := by
  induction as with
  | nil => intro s; simp
  | cons a as ih =>
    intro s
    simp only [along_cons, ih]
    tauto

/-- A run satisfies `p` along if each of its labels does after the labels before it. -/
theorem along_iff_prefix {p : σ → α → Prop} {s : σ} {as : List α} :
    M.Along p s as ↔ ∀ bs a, bs ++ [a] <+: as → p (M.run s bs) a := by
  constructor
  · rintro h bs a ⟨cs, rfl⟩
    exact ((M.along_snoc p s bs a).1 ((M.along_append p _ cs s).1 h).1).2
  · intro h
    induction as generalizing s with
    | nil => trivial
    | cons a as ih =>
      refine ⟨h [] a (by simp), ih fun bs b hbs => ?_⟩
      exact h (a :: bs) b (List.cons_prefix_cons.2 ⟨rfl, hbs⟩)

theorem along_mono {p q : σ → α → Prop} (hpq : ∀ s a, p s a → q s a) {s : σ} {as : List α}
    (h : M.Along p s as) : M.Along q s as :=
  M.along_iff_prefix.2 fun bs a hbs => hpq _ a (M.along_iff_prefix.1 h bs a hbs)

/-- What holds of each label in every state holds along every run of them. -/
theorem along_of_forall {p : σ → α → Prop} {as : List α} (h : ∀ a ∈ as, ∀ s, p s a) (s : σ) :
    M.Along p s as :=
  M.along_iff_prefix.2 fun bs a hbs => h a (hbs.subset (by simp)) _

/-- A run of the first labels of an `Along` run is an `Along` run. -/
theorem along_of_prefix {p : σ → α → Prop} {s : σ} {as bs : List α} (h : bs <+: as)
    (has : M.Along p s as) : M.Along p s bs := by
  obtain ⟨cs, rfl⟩ := h
  exact ((M.along_append p bs cs s).1 has).1

/-- What holds at the start and is kept by each step satisfying `p` holds after each run
of such steps. -/
theorem invariant_along {p : σ → α → Prop} {P : σ → Prop}
    (hstep : ∀ s a, P s → p s a → P (M.next s a)) {s : σ} (hs : P s) {as : List α}
    (has : M.Along p s as) : P (M.run s as) := by
  induction as generalizing s with
  | nil => exact hs
  | cons a as ih => exact ih (hstep s a hs has.1) has.2

/-- What holds at the start and is kept by each allowed step holds after each valid run. -/
theorem invariant {P : σ → Prop} (hstep : ∀ s a, P s → M.allowed s a → P (M.next s a)) {s : σ}
    (hs : P s) {as : List α} (has : M.Valid s as) : P (M.run s as) :=
  M.invariant_along hstep hs has

/-- A quantity that grows by one with each step satisfying `p`, and with no other, counts
them. `I` is an invariant the step may use. -/
theorem eq_add_countAlong {I : σ → Prop} {p : σ → α → Bool} {f : σ → ℕ}
    (hI : ∀ s a, I s → M.allowed s a → I (M.next s a))
    (hstep : ∀ s a, I s → M.allowed s a → f (M.next s a) = f s + (p s a).toNat) {s : σ}
    (hs : I s) {as : List α} (has : M.Valid s as) :
    f (M.run s as) = f s + M.countAlong p s as := by
  induction as generalizing s with
  | nil => rfl
  | cons a as ih =>
    rw [run_cons, ih (hI s a hs has.1) has.2, hstep s a hs has.1, Nat.add_assoc, countAlong]

/-- A potential that pays one for each step satisfying `p`, and that no step raises, bounds
their number. `I` is an invariant the step may use. -/
theorem countAlong_add_le {I : σ → Prop} {q : σ → α → Prop} {p : σ → α → Bool} {f : σ → ℕ}
    (hI : ∀ s a, I s → q s a → I (M.next s a))
    (hstep : ∀ s a, I s → q s a → (p s a).toNat + f (M.next s a) ≤ f s) {s : σ} (hs : I s)
    {as : List α} (has : M.Along q s as) : M.countAlong p s as + f (M.run s as) ≤ f s := by
  induction as generalizing s with
  | nil => simp [countAlong]
  | cons a as ih =>
    have hrest := ih (hI s a hs has.1) has.2
    have hpay := hstep s a hs has.1
    rw [run_cons, countAlong]
    omega

/-- If from a state with `P` a step keeps `P` exactly when it is `good`, then `P` holds
after every prefix of a run exactly when all its steps are good. `I` is an invariant the
equivalence may use. -/
theorem forall_prefix_iff_along {I P : σ → Prop} {good : σ → α → Prop}
    (hI : ∀ s a, I s → M.allowed s a → I (M.next s a))
    (hiff : ∀ s a, I s → P s → M.allowed s a → (P (M.next s a) ↔ good s a)) {s : σ}
    (hs : I s) (hP : P s) {as : List α} (has : M.Valid s as) :
    (∀ bs, bs <+: as → P (M.run s bs)) ↔ M.Along good s as := by
  induction as generalizing s with
  | nil => simpa using hP
  | cons a as ih =>
    have hstep := hiff s a hs hP has.1
    constructor
    · intro h
      have hnext : P (M.next s a) := h [a] (by simp)
      refine ⟨hstep.1 hnext, (ih (hI s a hs has.1) hnext has.2).1 fun bs hbs => ?_⟩
      exact h (a :: bs) (List.cons_prefix_cons.2 ⟨rfl, hbs⟩)
    · rintro ⟨hgood, hrest⟩ bs hbs
      have hnext := hstep.2 hgood
      cases bs with
      | nil => exact hP
      | cons b bs =>
        obtain ⟨rfl, htail⟩ := List.cons_prefix_cons.1 hbs
        exact (ih (hI s b hs has.1) hnext has.2).2 hrest bs htail

end Machine
