import Mathlib.Algebra.Order.Field.Basic
import Mathlib.Tactic.Linarith
import RunMesh.Trace

/-!
# Machines that admit against a credit

A machine takes labels that carry a time and admits some of them. It is `Metered` if each
admitted label is paid for with one unit of a credit that never goes below zero, is never more
than `burst`, and grows by at most `rate` in a unit of time.

The admitted labels up to a time are then paid for by the credit at the start and by what grows
until that time (`Metered.count_le_credit`). A window of any length has its first label at a
credit of at most `burst`, so it admits at most `burst` labels and `rate` more for each unit of
its length (`Metered.count_window_le`).
-/

namespace Machine

variable {σ α K : Type*} {M : Machine σ α}

theorem countAlong_mono {p q : σ → α → Bool} (h : ∀ s a, p s a = true → q s a = true) (s : σ)
    (as : List α) : M.countAlong p s as ≤ M.countAlong q s as := by
  induction as generalizing s with
  | nil => exact le_rfl
  | cons a as ih => exact Nat.add_le_add (Bool.toNat_le_toNat (h s a)) (ih (M.next s a))

variable [Field K] [LinearOrder K]

/-- Labels are admitted against a credit. `credit s t` is the credit of `s` at time `t`, and `I`
an invariant of the states. -/
structure Metered (M : Machine σ α) (I : σ → Prop) (time : α → K) (admits : σ → α → Bool)
    (credit : σ → K → K) (rate burst : K) : Prop where
  keeps : ∀ s a, I s → M.allowed s a → I (M.next s a)
  rate_nonneg : 0 ≤ rate
  nonneg : ∀ s t, I s → 0 ≤ credit s t
  le_burst : ∀ s t, credit s t ≤ burst
  slope : ∀ s t t', t ≤ t' → credit s t' ≤ credit s t + rate * (t' - t)
  /-- What a label leaves of the credit, with the unit it is admitted for. -/
  pays : ∀ s a, I s → M.allowed s a →
    credit (M.next s a) (time a) + (admits s a).toNat ≤ credit s (time a)
  /-- Time does not go back. -/
  forward : ∀ s a b, M.allowed (M.next s a) b → time a ≤ time b

namespace Metered

variable {I : σ → Prop} {time : α → K} {admits : σ → α → Bool} {credit : σ → K → K}
  {rate burst : K} {s : σ} {as : List α}

/-- No label is at most `e` once every allowed one is later. -/
theorem count_eq_zero (h : M.Metered I time admits credit rate burst) {p : α → Bool} {e : K}
    (hp : ∀ a, p a = true → time a ≤ e) (hlate : ∀ a, M.allowed s a → e < time a)
    (has : M.Valid s as) : M.countAlong (fun s a => admits s a && p a) s as = 0 := by
  induction as generalizing s with
  | nil => rfl
  | cons a as ih =>
    have ha : e < time a := hlate a has.1
    have hpa : p a = false := Bool.eq_false_iff.2 fun h' => (hp a h').not_gt ha
    have hrest := ih (fun b hb => ha.trans_le (h.forward s a b hb)) has.2
    simp [countAlong, hpa, hrest]

variable [IsStrictOrderedRing K]

/-- What is admitted up to `e` is paid for by the credit at `t` and what grows from then on. -/
theorem count_le_credit (h : M.Metered I time admits credit rate burst) {t e : K} (hs : I s)
    (hte : t ≤ e) (hlater : ∀ a, M.allowed s a → t ≤ time a) (has : M.Valid s as) :
    (M.countAlong (fun s a => admits s a && decide (time a ≤ e)) s as : K) ≤
      credit s t + rate * (e - t) := by
  induction as generalizing s t with
  | nil =>
    have hgrow : 0 ≤ rate * (e - t) := mul_nonneg h.rate_nonneg (sub_nonneg.2 hte)
    simpa [countAlong] using add_nonneg (h.nonneg s t hs) hgrow
  | cons a as ih =>
    have hnext := h.keeps s a hs has.1
    have hforward := h.forward s a
    have hslope := h.slope s t (time a) (hlater a has.1)
    by_cases hae : time a ≤ e
    · -- The label is in time : its unit is paid for at its own time.
      have hrest := ih hnext hae hforward has.2
      have hpays := h.pays s a hs has.1
      simp only [countAlong, hae, decide_true, Bool.and_true, Nat.cast_add]
      linarith
    · have hlate : ∀ b, M.allowed (M.next s a) b → e < time b := fun b hb =>
        (not_le.1 hae).trans_le (hforward b hb)
      have hzero := h.count_eq_zero (p := fun a => decide (time a ≤ e))
        (fun b hb => of_decide_eq_true hb) hlate has.2
      have hgrow : 0 ≤ rate * (e - t) := mul_nonneg h.rate_nonneg (sub_nonneg.2 hte)
      simp only [countAlong, hae, decide_false, Bool.and_false, hzero]
      simpa using add_nonneg (h.nonneg s t hs) hgrow

/-- A window admits at most `burst` labels, and `rate` for each unit of its length. -/
theorem count_window_le (h : M.Metered I time admits credit rate burst) {a d : K} (hd : 0 ≤ d)
    (hs : I s) (has : M.Valid s as) :
    (M.countAlong (fun s x => admits s x && decide (a ≤ time x ∧ time x ≤ a + d)) s as : K) ≤
      burst + rate * d := by
  have hnonneg : 0 ≤ burst + rate * d :=
    add_nonneg ((h.nonneg s a hs).trans (h.le_burst s a)) (mul_nonneg h.rate_nonneg hd)
  induction as generalizing s with
  | nil => simpa [countAlong] using hnonneg
  | cons x as ih =>
    have hnext := h.keeps s x hs has.1
    have hforward := h.forward s x
    rcases lt_or_ge (time x) a with hbefore | hstart
    · -- The window has not begun.
      simpa [countAlong, hbefore.not_ge] using ih hnext has.2
    rcases le_or_gt (time x) (a + d) with hin | hafter
    · -- The first label of the window finds a credit of at most `burst`.
      have hrest := h.count_le_credit hnext hin hforward has.2
      have hmono : M.countAlong
            (fun s x => admits s x && decide (a ≤ time x ∧ time x ≤ a + d)) (M.next s x) as ≤
          M.countAlong (fun s x => admits s x && decide (time x ≤ a + d)) (M.next s x) as :=
        countAlong_mono (fun s y hy => by simp_all) _ as
      have hcast := (Nat.cast_le (α := K)).2 hmono
      have hpays := h.pays s x hs has.1
      have hfull := h.le_burst s (time x)
      have hlength : rate * (a + d - time x) ≤ rate * d :=
        mul_le_mul_of_nonneg_left (by linarith) h.rate_nonneg
      simp only [countAlong, hstart, hin, and_self, decide_true, Bool.and_true, Nat.cast_add]
      linarith
    · have hzero := h.count_eq_zero (p := fun x => decide (a ≤ time x ∧ time x ≤ a + d))
        (fun b hb => (of_decide_eq_true hb).2) (fun b hb => hafter.trans_le (hforward b hb)) has.2
      simp only [countAlong, hafter.not_ge, and_false, decide_false, Bool.and_false, hzero]
      simpa using hnonneg

end Metered

end Machine
