/-
# The shortest digits read back

The digits of a double are searched on grids of powers of ten, from the coarsest one, for a point of
the interval that reads as the double.  All ends are compared over a common denominator (`unit`), so
a point that is found reads as the double (`readsAs_of_holds`).  A point is found: a grid finer than
half the last place has one (`onGrid_ne_none`), and such a grid is among those that are tried.
-/

import MipShrink.Decimal.Shortest
import MipShrink.Proofs.Decimal.Digits
import MipShrink.Proofs.Decimal.Nearest

namespace MipShrink
namespace Shortest

open Binary64

/-! ### The interval -/

/-- The lower end of the interval reaches as far below the double as it reads. -/
theorem interval_low {m : Nat} {e : Int} (pos : 0 < m) :
    ((if m = Nat.pow 2 52 ∧ -1074 < e then 4 * m - 1 else 4 * m - 2 : Nat) : ℚ) =
      4 * (m - reachBelow m e) := by
  have pow : Nat.pow 2 52 = 4503599627370496 := rfl
  rw [pow]
  unfold reachBelow
  split
  · rw [Nat.cast_sub (by omega)]
    push_cast
    ring
  · rw [Nat.cast_sub (by omega)]
    push_cast
    ring

/-- The common denominator of an interval and a grid. -/
def unit (e p : Int) : ℚ :=
  2 ^ ((2 - e).toNat : ℤ) * 10 ^ ((-p).toNat : ℤ)

/-- The common denominator is positive. -/
theorem unit_pos (e p : Int) : 0 < unit e p := by
  unfold unit
  positivity

/-- A quarter of the last place over the common denominator. -/
theorem cast_quarters (a : Nat) (e p : Int) :
    ((scaleUp a (e - 2) * Nat.pow 10 (-p).toNat : Nat) : ℚ) = a / 4 * 2 ^ e * unit e p := by
  have four : (2 : ℚ) ^ ((e - 2).toNat : ℤ) = 1 / 4 * 2 ^ e * 2 ^ ((2 - e).toNat : ℤ) := by
    rw [show (1 / 4 : ℚ) = 2 ^ (-2 : ℤ) by norm_num, ← zpow_add₀ two_ne_zero,
      ← zpow_add₀ two_ne_zero]
    congr 1
    omega
  have ten : ((Nat.pow 10 (-p).toNat : Nat) : ℚ) = 10 ^ ((-p).toNat : ℤ) := by
    rw [zpow_natCast]
    exact_mod_cast rfl
  rw [Nat.cast_mul, cast_scaleUp, ten, four]
  unfold unit
  ring

/-- A point of the grid over the common denominator. -/
theorem cast_point (c : Nat) (e p : Int) :
    ((c * scaleUp 1 (2 - e) * Nat.pow 10 p.toNat : Nat) : ℚ) = c * 10 ^ p * unit e p := by
  have shift : (10 : ℚ) ^ (p.toNat : ℤ) = 10 ^ p * 10 ^ ((-p).toNat : ℤ) := by
    rw [← zpow_add₀ (by norm_num)]
    congr 1
    omega
  have ten : ((Nat.pow 10 p.toNat : Nat) : ℚ) = 10 ^ (p.toNat : ℤ) := by
    rw [zpow_natCast]
    exact_mod_cast rfl
  rw [Nat.cast_mul, Nat.cast_mul, cast_scaleUp, ten, shift]
  unfold unit
  push_cast
  ring

/-- The reading interval in numbers: its ends belong to it if the mantissa is even. -/
theorem bounds_of_holds {m c : Nat} {e p : Int} (pos : 0 < m)
    (h : (interval m e).holds c p = true) :
    (m - reachBelow m e) * 2 ^ e ≤ (c * 10 ^ p : ℚ) ∧ (c * 10 ^ p : ℚ) ≤ (m + 1 / 2) * 2 ^ e ∧
      (m % 2 = 1 → (m - reachBelow m e) * 2 ^ e < (c * 10 ^ p : ℚ) ∧
        (c * 10 ^ p : ℚ) < (m + 1 / 2) * 2 ^ e) := by
  have one := unit_pos e p
  -- The interval is told in quarters of the last place.
  have low (a : Nat) : scaleUp a (e - 2) * Nat.pow 10 (-p).toNat ≤
      c * scaleUp 1 (2 - e) * Nat.pow 10 p.toNat ↔ (a / 4 * 2 ^ e : ℚ) ≤ c * 10 ^ p := by
    rw [← Nat.cast_le (α := ℚ), cast_quarters, cast_point, mul_le_mul_iff_of_pos_right one]
  have high (a : Nat) : c * scaleUp 1 (2 - e) * Nat.pow 10 p.toNat ≤
      scaleUp a (e - 2) * Nat.pow 10 (-p).toNat ↔ (c * 10 ^ p : ℚ) ≤ a / 4 * 2 ^ e := by
    rw [← Nat.cast_le (α := ℚ), cast_quarters, cast_point, mul_le_mul_iff_of_pos_right one]
  have lowest := interval_low (e := e) pos
  have highest : ((4 * m + 2 : Nat) : ℚ) / 4 = m + 1 / 2 := by
    push_cast
    ring
  unfold Interval.holds interval at h
  dsimp only at h
  split at h
  · rename_i even
    rw [Bool.and_eq_true, decide_eq_true_eq, decide_eq_true_eq, low, high, lowest, highest,
      mul_div_cancel_left₀ _ four_ne_zero] at h
    exact ⟨h.1, h.2, fun odd => absurd (beq_iff_eq.1 even) (by omega)⟩
  · rw [Bool.and_eq_true, decide_eq_true_eq, decide_eq_true_eq, ← Nat.not_le, ← Nat.not_le,
      not_congr (high _), not_congr (low _), lowest, highest, not_le, not_le,
      mul_div_cancel_left₀ _ four_ne_zero] at h
    exact ⟨h.1.le, h.2.le, fun _ => h⟩

/-- **A grid point of the reading interval reads as the double.** -/
theorem readsAs_of_holds {m c : Nat} {e p : Int} (pos : 0 < m)
    (h : (interval m e).holds c p = true) : 0 < c ∧ ReadsAs m e (c * 10 ^ p) := by
  have weight : (0 : ℚ) < 2 ^ e := by positivity
  have bounds := bounds_of_holds pos h
  have reach : reachBelow m e < m := by
    have : (1 : ℚ) ≤ m := by exact_mod_cast pos
    unfold reachBelow
    split <;> linarith
  have value : (0 : ℚ) < c * 10 ^ p :=
    (mul_pos (sub_pos.2 reach) weight).trans_le bounds.1
  have digits : 0 < c := by
    rcases Nat.eq_zero_or_pos c with rfl | some
    · simp at value
    · exact some
  refine ⟨digits, bounds.1, bounds.2.1, fun odd => ?_⟩
  have strict := bounds.2.2 odd
  rwa [reachBelow, if_neg (by omega)] at strict

/-! ### The search -/

/-- What a grid offers lies in the interval. -/
theorem holds_of_onGrid {i : Interval} {p : Int} {c : Nat} (h : i.onGrid p = some c) :
    i.holds c p = true := by
  unfold Interval.onGrid at h
  dsimp only at h
  split at h
  · rename_i low high
    split at h
    · cases h
      exact low
    · cases h
      exact high
  · rename_i low _
    cases h
    exact low
  · rename_i _ high
    cases h
    exact high
  · cases h

/-- If one of the grids that are tried has a hit, the search ends with one. -/
theorem onGrid_search {i : Interval} {fuel k : Nat} {p : Int} (within : k < fuel)
    (hit : i.onGrid (p - k) ≠ none) :
    i.onGrid (i.search fuel p).2 = some (i.search fuel p).1 := by
  induction fuel generalizing k p with
  | zero => exact absurd within (Nat.not_lt_zero k)
  | succ fuel ih =>
    unfold Interval.search
    cases found : i.onGrid p with
    | some c => exact found
    | none =>
      cases k with
      | zero => exact absurd (by simpa using found) hit
      | succ k =>
        refine ih (Nat.lt_of_succ_lt_succ within) ?_
        rwa [show p - 1 - (k : Int) = p - (k + 1 : Nat) by omega]

/-- A grid finer than half the last place has a point in the interval. -/
theorem onGrid_ne_none {m : Nat} {e q : Int} (fine : (10 : ℚ) ^ q < 2 ^ (e - 1)) :
    (interval m e).onGrid q ≠ none := by
  have half : (2 : ℚ) ^ e = 2 * 2 ^ (e - 1) := by
    rw [← zpow_one_add₀ two_ne_zero, add_sub_cancel]
  -- The grid unit is smaller than the way from the double to the upper end.
  have step : scaleUp 1 (2 - e) * Nat.pow 10 q.toNat <
      scaleUp 2 (e - 2) * Nat.pow 10 (-q).toNat := by
    have point := cast_point 1 e q
    rw [Nat.one_mul] at point
    rw [← Nat.cast_lt (α := ℚ), cast_quarters, point, mul_lt_mul_iff_of_pos_right (unit_pos e q)]
    push_cast
    linarith
  have apart : scaleUp (4 * m + 2) (e - 2) * Nat.pow 10 (-q).toNat =
      scaleUp (4 * m) (e - 2) * Nat.pow 10 (-q).toNat +
        scaleUp 2 (e - 2) * Nat.pow 10 (-q).toNat := by
    unfold scaleUp
    ring
  have below (a : Nat) (h : a ≤ 4 * m) : scaleUp a (e - 2) * Nat.pow 10 (-q).toNat ≤
      scaleUp (4 * m) (e - 2) * Nat.pow 10 (-q).toNat :=
    Nat.mul_le_mul_right _ (Nat.mul_le_mul_right _ h)
  -- So the grid point after the double lies in the interval.
  have hit : (interval m e).holds ((interval m e).mid * Nat.pow 10 (-q).toNat /
      ((interval m e).den * Nat.pow 10 q.toNat) + 1) q = true := by
    have positive : 0 < scaleUp 1 (2 - e) * Nat.pow 10 q.toNat :=
      Nat.mul_pos (scaleUp_pos Nat.one_pos _) (Nat.pow_pos (by decide))
    unfold Interval.holds interval
    dsimp only
    generalize grid : scaleUp 1 (2 - e) * Nat.pow 10 q.toNat = u at *
    generalize scaleUp (4 * m) (e - 2) * Nat.pow 10 (-q).toNat = value at *
    have after : value < (value / u + 1) * u := by
      rw [Nat.mul_comm]
      exact Nat.lt_mul_div_succ value positive
    have near : (value / u + 1) * u ≤ value + u := by
      rw [Nat.add_mul, Nat.one_mul]
      exact Nat.add_le_add_right (Nat.div_mul_le_self value u) u
    rw [Nat.mul_assoc, grid, apart]
    have under := below (if m = Nat.pow 2 52 ∧ -1074 < e then 4 * m - 1 else 4 * m - 2)
      (by split <;> omega)
    split
    · rw [Bool.and_eq_true, decide_eq_true_eq, decide_eq_true_eq]
      omega
    · rw [Bool.and_eq_true, decide_eq_true_eq, decide_eq_true_eq]
      omega
  unfold Interval.onGrid
  dsimp only
  rw [hit]
  split <;> simp_all

/-- A comparison of powers by a comparison of exponents. -/
theorem ten_zpow_lt_two_zpow {q z : Int} (above : 0 ≤ q → 10 * q < 3 * z)
    (below : q < 0 → 93 * q < 28 * z) : (10 : ℚ) ^ q < 2 ^ z := by
  have two : (1 : ℚ) < 2 := by norm_num
  by_cases whole : 0 ≤ q
  · refine lt_of_pow_lt_pow_left₀ 3 (by positivity) ?_
    calc ((10 : ℚ) ^ q) ^ 3 = (10 ^ 3) ^ q := by
          rw [← zpow_natCast, ← zpow_natCast, ← zpow_mul, ← zpow_mul, mul_comm]
      _ ≤ (2 ^ 10) ^ q := zpow_le_zpow_left₀ whole (by norm_num) (by norm_num)
      _ = 2 ^ (10 * q) := by rw [← zpow_natCast, ← zpow_mul]; rfl
      _ < 2 ^ (3 * z) := zpow_lt_zpow_right₀ two (above whole)
      _ = (2 ^ z) ^ 3 := by rw [← zpow_natCast, ← zpow_mul, mul_comm]; rfl
  · rw [not_le] at whole
    have power : ((10 : ℚ) ^ 28) ^ q ≤ (2 ^ 93) ^ q := by
      obtain ⟨n, rfl⟩ := Int.exists_eq_neg_ofNat whole.le
      rw [zpow_neg, zpow_neg, zpow_natCast, zpow_natCast]
      exact inv_anti₀ (by positivity) (pow_le_pow_left₀ (by norm_num) (by norm_num) n)
    refine lt_of_pow_lt_pow_left₀ 28 (by positivity) ?_
    calc ((10 : ℚ) ^ q) ^ 28 = (10 ^ 28) ^ q := by
          rw [← zpow_natCast, ← zpow_natCast, ← zpow_mul, ← zpow_mul, mul_comm]
      _ ≤ (2 ^ 93) ^ q := power
      _ = 2 ^ (93 * q) := by rw [← zpow_natCast, ← zpow_mul]; rfl
      _ < 2 ^ (28 * z) := zpow_lt_zpow_right₀ two (below whole)
      _ = (2 ^ z) ^ 28 := by rw [← zpow_natCast, ← zpow_mul, mul_comm]; rfl

/-- **The shortest digits read as the double.** -/
theorem digits_readsAs {m : Nat} {e : Int} (normal : Normal m e) (pos : 0 < m) :
    0 < (digits m e).1 ∧ ReadsAs m e ((digits m e).1 * 10 ^ (digits m e).2) := by
  have short : m.log2 < 53 := (Nat.log2_lt pos.ne').2 normal.small
  have least := normal.least
  have greatest := normal.greatest
  -- The last of the grids that are tried is fine enough.
  have last : (10 : ℚ) ^ (topPower m e - (39 : Nat)) < 2 ^ (e - 1) := by
    unfold topPower
    rw [Int.fdiv_eq_ediv_of_nonneg _ (by decide)]
    exact ten_zpow_lt_two_zpow (by omega) (by omega)
  exact readsAs_of_holds pos (holds_of_onGrid (onGrid_search (by decide) (onGrid_ne_none last)))

/-- The smallest positive double and the one closest to a tenth need a single digit. -/
example : digits 1 (-1074) = (5, -324) ∧ digits 7205759403792794 (-56) = (1, -1) := by
  decide +kernel

end Shortest
end MipShrink
