import Mathlib.Data.Nat.Size
import Mathlib.Data.Nat.Log
import Mathlib.Tactic.Ring

/-!
# Natural numbers in a binary format, and their shortest decimals

A binary format with `p` significant bits has the numbers `c * 2 ^ e` with `c ≤ 2 ^ p`.
`roundTo p n` is the nearest of them to `n`, ties to even. A number of the format is printed as the
decimal with the fewest digits that is read as that number, the nearest one if there are several
(`shortest`).

Reading what was printed gives the number back (`roundTo_shortest`). The other way round, a number
below `2 ^ (p + 1)` is read and printed as itself exactly if it is in the format
(`shortest_roundTo_iff`), as all numbers up to `2 ^ p` are.
-/

namespace Rounding

variable {p n x : ℕ}

/-! ## Rounding to a multiple -/

/-- The multiple of `u` nearest to `n`, and of two the one with the even quotient. -/
def nearest (u n : ℕ) : ℕ :=
  if 2 * (n % u) < u ∨ 2 * (n % u) = u ∧ n / u % 2 = 0 then n / u * u else (n / u + 1) * u

theorem nearest_eq_or (u n : ℕ) : nearest u n = n / u * u ∨ nearest u n = (n / u + 1) * u := by
  unfold nearest
  split
  · exact .inl rfl
  · exact .inr rfl

theorem nearest_of_dvd {u : ℕ} (h : u ∣ n) : nearest u n = n := by
  have hmod : n % u = 0 := Nat.mod_eq_zero_of_dvd h
  rcases Nat.eq_zero_or_pos u with rfl | hu
  · rw [Nat.zero_dvd.1 h]
    simp [nearest]
  · rw [nearest, hmod, if_pos (.inl (by omega)), Nat.div_mul_cancel h]

theorem dvd_nearest (u n : ℕ) : u ∣ nearest u n := by
  rcases nearest_eq_or u n with h | h <;> rw [h] <;> exact Nat.dvd_mul_left ..

/-- Rounding does not go below a multiple. -/
theorem le_nearest_of_dvd {u m : ℕ} (hm : u ∣ m) (h : m ≤ n) : m ≤ nearest u n := by
  have hle : m ≤ n / u * u := by
    rw [← Nat.div_mul_cancel hm]
    exact Nat.mul_le_mul_right u (Nat.div_le_div_right h)
  rcases nearest_eq_or u n with hn | hn
  · rwa [hn]
  · rw [hn, Nat.add_mul]
    omega

/-- Rounding does not go above a multiple. -/
theorem nearest_le_of_dvd {u m : ℕ} (hm : u ∣ m) (h : n ≤ m) : nearest u n ≤ m := by
  rcases h.eq_or_lt with rfl | hlt
  · rw [nearest_of_dvd hm]
  · obtain ⟨c, rfl⟩ := hm
    have hc : n / u + 1 ≤ c := Nat.div_lt_of_lt_mul hlt
    rw [Nat.mul_comm u]
    rcases nearest_eq_or u n with hn | hn
    · rw [hn]
      exact Nat.mul_le_mul_right u (Nat.le_of_succ_le hc)
    · rw [hn]
      exact Nat.mul_le_mul_right u hc

/-! ## Numbers of a format -/

/-- The unit in the last of `p` places of `n`. -/
def unit (p n : ℕ) : ℕ :=
  2 ^ (n.size - p)

/-- The nearest number of the format. -/
def roundTo (p n : ℕ) : ℕ :=
  nearest (unit p n) n

/-- The number has at most `p` significant bits. -/
def Representable (p x : ℕ) : Prop :=
  unit p x ∣ x

instance (p x : ℕ) : Decidable (Representable p x) :=
  inferInstanceAs (Decidable (_ ∣ _))

theorem unit_pos (p n : ℕ) : 0 < unit p n :=
  Nat.two_pow_pos _

theorem roundTo_of_representable (h : Representable p x) : roundTo p x = x :=
  nearest_of_dvd h

/-- Up to `2 ^ p` units. -/
theorem representable_mul (hp : 0 < p) {c : ℕ} (hc : c ≤ 2 ^ p) (e : ℕ) :
    Representable p (c * 2 ^ e) := by
  rcases hc.lt_or_eq with hlt | rfl
  · have hsize : (c * 2 ^ e).size ≤ p + e := by
      rw [Nat.size_le, Nat.pow_add]
      exact Nat.mul_lt_mul_of_pos_right hlt (Nat.two_pow_pos e)
    refine (Nat.pow_dvd_pow 2 ?_).trans (Nat.dvd_mul_left (2 ^ e) c)
    omega
  · rw [← Nat.pow_add, Representable, unit, Nat.size_pow]
    exact Nat.pow_dvd_pow 2 (by omega)

theorem representable_of_le (hp : 0 < p) (h : n ≤ 2 ^ p) : Representable p n := by
  have hmul := representable_mul hp h 0
  rwa [Nat.pow_zero, Nat.mul_one] at hmul

theorem div_unit_lt (p n : ℕ) : n / unit p n < 2 ^ p := by
  rw [Nat.div_lt_iff_lt_mul (unit_pos p n), unit, ← Nat.pow_add]
  refine (Nat.lt_size_self n).trans_le (Nat.pow_le_pow_right Nat.two_pos ?_)
  omega

/-- Rounding gives a number of the format. -/
theorem representable_roundTo (hp : 0 < p) (n : ℕ) : Representable p (roundTo p n) := by
  have hlt := div_unit_lt p n
  rcases nearest_eq_or (unit p n) n with h | h
  · rw [roundTo, h]
    exact representable_mul hp hlt.le _
  · rw [roundTo, h]
    exact representable_mul hp hlt _

/-- Rounding does not go below a power of two. -/
theorem two_pow_le_roundTo (hp : 0 < p) {k : ℕ} (h : 2 ^ k ≤ n) : 2 ^ k ≤ roundTo p n := by
  have hk : k < n.size := Nat.lt_size.2 h
  obtain ⟨j, hj⟩ : ∃ j, n.size = j + 1 := ⟨n.size - 1, by omega⟩
  have hjn : 2 ^ j ≤ n := Nat.lt_size.1 (by omega)
  have hdvd : unit p n ∣ 2 ^ j := Nat.pow_dvd_pow 2 (by omega)
  exact (Nat.pow_le_pow_right Nat.two_pos (by omega)).trans (le_nearest_of_dvd hdvd hjn)

/-- Rounding does not go above a power of two. -/
theorem roundTo_le_two_pow {k : ℕ} (h : n < 2 ^ k) : roundTo p n ≤ 2 ^ k := by
  have hsize : n.size ≤ k := Nat.size_le.2 h
  exact nearest_le_of_dvd (Nat.pow_dvd_pow 2 (by omega)) h.le

/-! ## Decimals -/

/-- The multiples of `10 ^ k` next to `x`, the nearest one first. -/
def decimals (x k : ℕ) : List ℕ :=
  [nearest (10 ^ k) x, x / 10 ^ k * 10 ^ k, (x / 10 ^ k + 1) * 10 ^ k]

/-- The decimal with the most zeros at its end, up to `k`, that is read as `x`. -/
def shortestFrom (p x : ℕ) : ℕ → ℕ
  | 0 => x
  | k + 1 => ((decimals x (k + 1)).find? fun m => roundTo p m = x).getD (shortestFrom p x k)

/-- The decimal `x` is printed as. -/
def shortest (p x : ℕ) : ℕ :=
  shortestFrom p x (Nat.log 10 x + 1)

theorem dvd_of_mem_decimals {k m : ℕ} (h : m ∈ decimals x k) : 10 ^ k ∣ m := by
  simp only [decimals, List.mem_cons, List.not_mem_nil, or_false] at h
  rcases h with rfl | rfl | rfl
  · exact dvd_nearest _ _
  · exact Nat.dvd_mul_left ..
  · exact Nat.dvd_mul_left ..

/-- A number is printed with all its digits, or as a multiple of ten that is read as it. -/
theorem shortestFrom_cases (p x k : ℕ) :
    shortestFrom p x k = x ∨ 10 ∣ shortestFrom p x k ∧ roundTo p (shortestFrom p x k) = x := by
  induction k with
  | zero => exact .inl rfl
  | succ k ih =>
    rw [shortestFrom]
    cases hfind : (decimals x (k + 1)).find? fun m => roundTo p m = x with
    | none => exact ih
    | some m =>
      have hdvd := dvd_of_mem_decimals (List.mem_of_find?_eq_some hfind)
      exact .inr ⟨(dvd_pow_self 10 (Nat.succ_ne_zero k)).trans hdvd,
        by simpa using List.find?_some hfind⟩

/-- A number of the format is read as it was printed. -/
theorem roundTo_shortest (h : Representable p x) : roundTo p (shortest p x) = x := by
  rcases shortestFrom_cases p x (Nat.log 10 x + 1) with heq | ⟨-, hround⟩
  · rw [shortest, heq, roundTo_of_representable h]
  · exact hround

/-- An even number below `2 ^ (p + 1)` is in the format. -/
theorem representable_of_even (hp : 0 < p) (hn : 2 ∣ n) (hlt : n < 2 ^ (p + 1)) :
    Representable p n := by
  obtain ⟨c, rfl⟩ := hn
  have hc : c ≤ 2 ^ p := by
    rw [Nat.pow_succ] at hlt
    omega
  have hmul := representable_mul hp hc 1
  rwa [Nat.pow_one, Nat.mul_comm] at hmul

/-- A number below `2 ^ (p + 1)` is printed with all its digits : no other even number is read
as it. -/
theorem shortest_of_lt (hp : 0 < p) (hx : x < 2 ^ (p + 1)) : shortest p x = x := by
  rcases shortestFrom_cases p x (Nat.log 10 x + 1) with heq | ⟨hten, hround⟩
  · exact heq
  · have hlt : shortest p x < 2 ^ (p + 1) := by
      by_contra hle
      have hpow := two_pow_le_roundTo hp (not_lt.1 hle)
      rw [shortest, hround] at hpow
      omega
    have heven : 2 ∣ shortest p x := (by decide : 2 ∣ 10).trans hten
    rw [← roundTo_of_representable (representable_of_even hp heven hlt)]
    exact hround

/-- Below `2 ^ (p + 1)` exactly the numbers of the format are read and printed as themselves. -/
theorem shortest_roundTo_iff (hp : 0 < p) (hn : n < 2 ^ (p + 1)) :
    shortest p (roundTo p n) = n ↔ Representable p n := by
  constructor
  · intro h
    rcases shortestFrom_cases p (roundTo p n) (Nat.log 10 (roundTo p n) + 1) with heq | ⟨hten, -⟩
    · have hround : roundTo p n = n := heq.symm.trans h
      exact hround ▸ representable_roundTo hp n
    · rw [← shortest, h] at hten
      exact representable_of_even hp ((by decide : 2 ∣ 10).trans hten) hn
  · intro h
    rw [roundTo_of_representable h, shortest_of_lt hp hn]

end Rounding
