/-
# Reading the nearest double

A decimal is read as a quotient in units of the last place, rounded to the nearest integer
(`roundDiv_eq`).  The last place is the one that leaves 53 bits before it, or the smallest there is
(`lastPlace_eq`).

`ReadsAs m e v` says that `v` lies between the half-way points on both sides of `m · 2^e`; those
points themselves belong to the even mantissa.  Below a power of two the doubles are twice as dense,
so that side is shorter.  What lies there is read as `m · 2^e`, whether it comes as a quotient
(`ofRatio_eq`) or as a decimal of any exponent (`ofDecimal_eq`), and whatever is read is a double
(`ofDecimal_encoded`).
-/

import Mathlib.Algebra.Order.Field.Power
import Mathlib.Data.Int.Log
import Mathlib.Data.Rat.Floor
import Mathlib.Tactic.FieldSimp
import Mathlib.Tactic.Linarith
import Mathlib.Tactic.Positivity
import Mathlib.Tactic.Ring
import MipShrink.Decimal.Binary64

namespace MipShrink
namespace Binary64

/-! ### The nearest integer -/

/-- **The quotient is rounded to the nearest integer**, half-way to the even one. -/
theorem roundDiv_eq {num den m : Nat} (pos : 0 < den) (low : 2 * (m * den) ≤ 2 * num + den)
    (high : 2 * num ≤ 2 * (m * den) + den)
    (odd : m % 2 = 1 → 2 * (m * den) < 2 * num + den ∧ 2 * num < 2 * (m * den) + den) :
    roundDiv num den = m := by
  have split : num = num / den * den + num % den := (Nat.div_add_mod' num den).symm
  have left := Nat.mod_lt num pos
  unfold roundDiv
  dsimp only
  generalize num / den = q at *
  generalize num % den = r at *
  -- The quotient is `m` or the number before it.
  have lower : q ≤ m := by
    by_contra above
    have := Nat.mul_le_mul_right den (Nat.lt_of_not_le above)
    rw [Nat.succ_mul] at this
    omega
  have upper : m ≤ q + 1 := by
    by_contra above
    have := Nat.mul_le_mul_right den (Nat.lt_of_not_le above)
    rw [Nat.succ_mul, Nat.succ_mul] at this
    omega
  rcases Nat.eq_or_lt_of_le lower with rfl | less
  · rw [if_neg (by omega)]
  · obtain rfl : m = q + 1 := by omega
    rw [Nat.add_mul, Nat.one_mul] at low high odd
    rw [if_pos (by omega)]

/-! ### The weight of the last place -/

/-- Shifting up multiplies by a power of two, and by one if the shift goes down. -/
theorem cast_scaleUp (n : Nat) (k : Int) : (scaleUp n k : ℚ) = n * 2 ^ (k.toNat : ℤ) := by
  rw [zpow_natCast]
  exact_mod_cast rfl

/-- Scaling by a power of two is split between the numerator and the denominator. -/
theorem scaleUp_div (num den : Nat) (k : Int) :
    (scaleUp num (-k) : ℚ) / scaleUp den k = num / den / 2 ^ k := by
  rw [cast_scaleUp, cast_scaleUp, mul_div_mul_comm, ← zpow_sub₀ two_ne_zero,
    show ((-k).toNat : ℤ) - k.toNat = -k by omega, zpow_neg, div_eq_mul_inv _ ((2 : ℚ) ^ k)]

/-- What is positive stays so when it is shifted up. -/
theorem scaleUp_pos {n : Nat} (pos : 0 < n) (k : Int) : 0 < scaleUp n k :=
  Nat.mul_pos pos (Nat.pow_pos (by decide))

/-- The leading bit of a positive number is at most the number. -/
theorem two_zpow_log2_le {n : Nat} (pos : 0 < n) : (2 : ℚ) ^ (n.log2 : ℤ) ≤ n := by
  rw [zpow_natCast]
  exact_mod_cast Nat.log2_self_le pos.ne'

/-- A number is below the bit after its leading one. -/
theorem lt_two_zpow_log2 (n : Nat) : (n : ℚ) < 2 ^ ((n.log2 : ℤ) + 1) := by
  have h : n < 2 ^ (n.log2 + 1) := Nat.lt_log2_self
  exact_mod_cast h

/-- **The last place is told by the logarithm**, and by the smallest exponent there is. -/
theorem lastPlace_eq {num den : Nat} (hnum : 0 < num) (hden : 0 < den) :
    lastPlace num den = max (Int.log 2 (num / den : ℚ) - 52) (-1074) := by
  have den' : (0 : ℚ) < den := Nat.cast_pos.2 hden
  have value : (0 : ℚ) < num / den := div_pos (Nat.cast_pos.2 hnum) den'
  have reach (z : ℤ) : (2 : ℚ) ^ z ≤ num / den ↔ z ≤ Int.log 2 (num / den : ℚ) :=
    Int.zpow_le_iff_le_log (by decide) value
  have beyond (z : ℤ) : (num / den : ℚ) < 2 ^ z ↔ Int.log 2 (num / den : ℚ) < z :=
    Int.lt_zpow_iff_log_lt (by decide) value
  -- The lengths of both numbers tell the logarithm up to one, and the test tells which one it is.
  have above : Int.log 2 (num / den : ℚ) < (num.log2 : ℤ) - den.log2 + 1 := by
    rw [← beyond, div_lt_iff₀ den']
    calc (num : ℚ) < 2 ^ ((num.log2 : ℤ) + 1) := lt_two_zpow_log2 num
      _ = 2 ^ ((num.log2 : ℤ) - den.log2 + 1) * 2 ^ (den.log2 : ℤ) := by
        rw [← zpow_add₀ two_ne_zero]
        ring_nf
      _ ≤ _ := mul_le_mul_of_nonneg_left (two_zpow_log2_le hden) (by positivity)
  have below : (num.log2 : ℤ) - den.log2 - 1 ≤ Int.log 2 (num / den : ℚ) := by
    rw [← reach, le_div_iff₀ den']
    calc (2 : ℚ) ^ ((num.log2 : ℤ) - den.log2 - 1) * den
        ≤ 2 ^ ((num.log2 : ℤ) - den.log2 - 1) * 2 ^ ((den.log2 : ℤ) + 1) :=
          mul_le_mul_of_nonneg_left (lt_two_zpow_log2 den).le (by positivity)
      _ = 2 ^ (num.log2 : ℤ) := by
        rw [← zpow_add₀ two_ne_zero]
        ring_nf
      _ ≤ num := two_zpow_log2_le hnum
  have test (z : ℤ) : scaleUp den z ≤ scaleUp num (-z) ↔ z ≤ Int.log 2 (num / den : ℚ) := by
    have scaled : (0 : ℚ) < scaleUp den z := Nat.cast_pos.2 (scaleUp_pos hden z)
    rw [← reach, ← Nat.cast_le (α := ℚ), ← one_le_div₀ scaled, scaleUp_div,
      one_le_div₀ (by positivity)]
  unfold lastPlace
  dsimp only
  congr 2
  split
  · rename_i h
    rw [test] at h
    omega
  · rename_i h
    rw [test] at h
    omega

/-! ### Reading as a double -/

/-- The mantissa and the exponent of a finite double. -/
structure Normal (m : Nat) (e : Int) : Prop where
  small : m < 9007199254740992
  least : -1074 ≤ e
  greatest : e ≤ 971
  full : 4503599627370496 ≤ m ∨ e = -1074

/-- The doubles that an encoding stands for, except that what is no number has no sign. -/
inductive Encoded : Binary64 → Prop where
  | nan : Encoded (nan false)
  | infinite (negative : Bool) : Encoded (infinite negative)
  | finite (negative : Bool) {m : Nat} {e : Int} (normal : Normal m e) :
      Encoded (finite negative m e)

/-- How far below a double the numbers reach that read as it, in units of its last place. -/
def reachBelow (m : Nat) (e : Int) : ℚ :=
  if m = 4503599627370496 ∧ -1074 < e then 1 / 4 else 1 / 2

/-- The number reads as the double `m · 2^e`: it lies between the half-way points to its neighbours,
or on one of them if the mantissa is even. -/
structure ReadsAs (m : Nat) (e : Int) (v : ℚ) : Prop where
  low : (m - reachBelow m e) * 2 ^ e ≤ v
  high : v ≤ (m + 1 / 2) * 2 ^ e
  odd : m % 2 = 1 → (m - 1 / 2) * 2 ^ e < v ∧ v < (m + 1 / 2) * 2 ^ e

/-- A double reads as itself. -/
theorem readsAs_self (m : Nat) (e : Int) : ReadsAs m e (m * 2 ^ e) := by
  have pos : (0 : ℚ) < 2 ^ e := by positivity
  have reach : 0 ≤ reachBelow m e := by
    unfold reachBelow
    split <;> norm_num
  constructor
  · nlinarith
  · nlinarith
  · intro _
    constructor <;> nlinarith

/-- A quotient that is half a unit around `m` in the weight `k` is rounded to `m`. -/
theorem roundDiv_scaled {num den m : Nat} {k : Int} (hden : 0 < den)
    (low : (m - 1 / 2) * 2 ^ k ≤ (num / den : ℚ)) (high : (num / den : ℚ) ≤ (m + 1 / 2) * 2 ^ k)
    (odd : m % 2 = 1 → (m - 1 / 2) * 2 ^ k < (num / den : ℚ) ∧
      (num / den : ℚ) < (m + 1 / 2) * 2 ^ k) :
    roundDiv (scaleUp num (-k)) (scaleUp den k) = m := by
  have pos : (0 : ℚ) < 2 ^ k := by positivity
  have below : (0 : ℚ) < scaleUp den k := Nat.cast_pos.2 (scaleUp_pos hden k)
  have quotient := scaleUp_div num den k
  rw [div_eq_iff below.ne'] at quotient
  -- The bounds in units of the last place, over the common denominator.
  generalize (num / den : ℚ) = v at *
  have scale {a : ℚ} : a * 2 ^ k ≤ v ↔ a * scaleUp den k ≤ scaleUp num (-k) := by
    rw [quotient, mul_le_mul_iff_of_pos_right below, le_div_iff₀ pos]
  have scale' {a : ℚ} : v ≤ a * 2 ^ k ↔ (scaleUp num (-k) : ℚ) ≤ a * scaleUp den k := by
    rw [quotient, mul_le_mul_iff_of_pos_right below, div_le_iff₀ pos]
  rw [← not_le, ← not_le] at odd
  rw [scale, scale'] at odd
  rw [scale] at low
  rw [scale'] at high
  generalize scaleUp num (-k) = a at *
  generalize scaleUp den k = b at *
  have low' : 2 * ((m : ℚ) * b) ≤ 2 * a + b := by linarith
  have high' : 2 * (a : ℚ) ≤ 2 * (m * b) + b := by linarith
  refine roundDiv_eq (Nat.cast_pos.1 below) (by exact_mod_cast low') (by exact_mod_cast high')
    fun h => ?_
  obtain ⟨left, right⟩ := odd h
  rw [not_le] at left right
  have left' : 2 * ((m : ℚ) * b) < 2 * a + b := by linarith
  have right' : 2 * (a : ℚ) < 2 * (m * b) + b := by linarith
  exact ⟨by exact_mod_cast left', by exact_mod_cast right'⟩

/-- The powers of two multiply, also if one exponent is negative. -/
theorem zpow_add_nat (e : ℤ) (k : ℕ) : (2 : ℚ) ^ (k + e) = 2 ^ k * 2 ^ e := by
  rw [zpow_add₀ two_ne_zero, zpow_natCast]

/-- No number that reads as a double reaches the next power of two after its mantissa. -/
theorem ReadsAs.lt_two_zpow {m : Nat} {e : Int} {v : ℚ} (normal : Normal m e)
    (reads : ReadsAs m e v) : v < 2 ^ (53 + e) := by
  have pos : (0 : ℚ) < 2 ^ e := by positivity
  have mantissa : (m : ℚ) ≤ 9007199254740991 := by
    exact_mod_cast Nat.le_of_lt_succ normal.small
  rw [show (53 : ℤ) = (53 : ℕ) from rfl, zpow_add_nat]
  refine reads.high.trans_lt ?_
  rw [mul_lt_mul_iff_of_pos_right pos]
  norm_num
  linarith

/-- A number that reads as a double and lies below its binade rounds up to a power of two. -/
theorem ReadsAs.of_lt_binade {m : Nat} {e : Int} {v : ℚ} (normal : Normal m e)
    (reads : ReadsAs m e v) (least : -1074 < e) (short : v < 2 ^ (52 + e)) :
    m = 4503599627370496 ∧ (4503599627370496 - 1 / 4) * 2 ^ e ≤ v := by
  have pos : (0 : ℚ) < 2 ^ e := by positivity
  have low := reads.low
  rw [show (52 : ℤ) = (52 : ℕ) from rfl, zpow_add_nat] at short
  obtain rfl : m = 4503599627370496 := by
    by_contra ne
    have mantissa : (4503599627370497 : ℚ) ≤ m := by
      have := normal.full
      exact_mod_cast (by omega : 4503599627370497 ≤ m)
    rw [reachBelow, if_neg fun h => ne h.1] at low
    nlinarith
  rw [reachBelow, if_pos ⟨rfl, least⟩] at low
  exact ⟨rfl, low⟩

/-- What lies just below a power of two is rounded up to it, in the smaller weight too. -/
theorem roundDiv_below_binade {num den : Nat} {e : Int} (hden : 0 < den)
    (low : (4503599627370496 - 1 / 4 : ℚ) * 2 ^ e ≤ num / den)
    (short : (num / den : ℚ) < 2 ^ (52 + e)) :
    roundDiv (scaleUp num (-(e - 1))) (scaleUp den (e - 1)) = 9007199254740992 := by
  have half : (2 : ℚ) ^ e = 2 * 2 ^ (e - 1) := by
    rw [← zpow_one_add₀ two_ne_zero, add_sub_cancel]
  have pos : (0 : ℚ) < 2 ^ (e - 1) := by positivity
  rw [show (52 : ℤ) = (52 : ℕ) from rfl, zpow_add_nat, half] at short
  rw [half] at low
  refine roundDiv_scaled hden ?_ ?_ fun odd => absurd odd (by decide)
  · push_cast
    linarith
  · push_cast
    linarith

/-- **A quotient that reads as a double is rounded to it.** -/
theorem ofRatio_eq {m num den : Nat} {e : Int} (negative : Bool) (normal : Normal m e)
    (hnum : 0 < num) (hden : 0 < den) (reads : ReadsAs m e (num / den)) :
    ofRatio negative num den = finite negative m e := by
  have value : (0 : ℚ) < num / den := div_pos (Nat.cast_pos.2 hnum) (Nat.cast_pos.2 hden)
  have pos : (0 : ℚ) < 2 ^ e := by positivity
  have below : Int.log 2 (num / den : ℚ) < 53 + e :=
    (Int.lt_zpow_iff_log_lt (by decide) value).1 (reads.lt_two_zpow normal)
  have reach (z : ℤ) : (2 : ℚ) ^ z ≤ num / den ↔ z ≤ Int.log 2 (num / den : ℚ) :=
    Int.zpow_le_iff_le_log (by decide) value
  unfold ofRatio
  rw [if_neg hnum.ne', lastPlace_eq hnum hden]
  dsimp only
  by_cases full : 52 + e ≤ Int.log 2 (num / den : ℚ) ∨ e = -1074
  · -- The quotient is cut off where the mantissa of the double ends.
    have place : max (Int.log 2 (num / den : ℚ) - 52) (-1074) = e := by
      have := normal.least
      omega
    have low : (m - 1 / 2) * 2 ^ e ≤ (num / den : ℚ) := by
      refine le_trans ?_ reads.low
      rw [mul_le_mul_iff_of_pos_right pos]
      unfold reachBelow
      split <;> linarith
    rw [place, roundDiv_scaled hden low reads.high reads.odd]
    have small : m ≠ Nat.pow 2 53 := normal.small.ne
    have greatest : ¬971 < e := not_lt.2 normal.greatest
    rw [ofRounded, if_neg small, if_neg greatest]
  · -- It is cut off one place later, and the power of two is put back into the weight `e`.
    obtain ⟨short, more⟩ := not_or.1 full
    have least : -1074 < e := lt_of_le_of_ne normal.least (Ne.symm more)
    rw [← reach, not_le] at short
    obtain ⟨rfl, low⟩ := reads.of_lt_binade normal least short
    have place : max (Int.log 2 (num / den : ℚ) - 52) (-1074) = e - 1 := by
      have lower : 51 + e ≤ Int.log 2 (num / den : ℚ) := by
        rw [← reach, show (51 : ℤ) = (51 : ℕ) from rfl, zpow_add_nat]
        refine le_trans ?_ low
        rw [mul_le_mul_iff_of_pos_right pos]
        norm_num
      have upper : Int.log 2 (num / den : ℚ) < 52 + e := by
        rw [← not_le, ← reach, not_le]
        exact short
      omega
    have greatest : ¬971 ≤ e - 1 := by
      have := normal.greatest
      omega
    rw [place, roundDiv_below_binade hden low short, ofRounded, if_pos rfl, if_neg greatest,
      sub_add_cancel]

/-! ### Decimals -/

/-- The doubles lie well between the powers of ten with the exponents `-400` and `400`. -/
theorem two_zpow_lt_ten_zpow : (2 : ℚ) ^ (1075 : ℤ) < 10 ^ (400 : ℤ) := by
  have h : 2 ^ 1075 < 10 ^ 400 := by decide +kernel
  exact_mod_cast h

/-- Three bits are less than a decimal digit. -/
theorem lt_ten_zpow {n : Nat} : (n : ℚ) < 10 ^ ((n.log2 / 3 : Nat) + 1 : ℤ) := by
  have digits : n.log2 + 1 ≤ 3 * (n.log2 / 3 + 1) := by omega
  have power : (2 : ℚ) ^ (n.log2 + 1) ≤ 10 ^ (n.log2 / 3 + 1) :=
    calc (2 : ℚ) ^ (n.log2 + 1) ≤ 2 ^ (3 * (n.log2 / 3 + 1)) :=
          pow_le_pow_right₀ (by norm_num) digits
      _ = 8 ^ (n.log2 / 3 + 1) := by rw [pow_mul]; norm_num
      _ ≤ 10 ^ (n.log2 / 3 + 1) := pow_le_pow_left₀ (by norm_num) (by norm_num) _
  refine (lt_two_zpow_log2 n).trans_le ?_
  exact_mod_cast power

/-- Four bits are more than a decimal digit. -/
theorem ten_zpow_le {n : Nat} (pos : 0 < n) : (10 : ℚ) ^ ((n.log2 / 4 : Nat) : ℤ) ≤ n := by
  have digits : 4 * (n.log2 / 4) ≤ n.log2 := by omega
  have power : (10 : ℚ) ^ (n.log2 / 4) ≤ 2 ^ n.log2 :=
    calc (10 : ℚ) ^ (n.log2 / 4) ≤ 16 ^ (n.log2 / 4) :=
          pow_le_pow_left₀ (by norm_num) (by norm_num) _
      _ = 2 ^ (4 * (n.log2 / 4)) := by rw [pow_mul]; norm_num
      _ ≤ 2 ^ n.log2 := pow_le_pow_right₀ (by norm_num) digits
  refine le_trans ?_ (two_zpow_log2_le pos)
  exact_mod_cast power

/-- A decimal whose leading digits stand far to the left is large. -/
theorem ten_zpow_le_decimal {n : Nat} {k : Int} (pos : 0 < n)
    (large : 400 < k + (n.log2 / 4 : Nat)) : (10 : ℚ) ^ (400 : ℤ) ≤ n * 10 ^ k :=
  calc (10 : ℚ) ^ (400 : ℤ) ≤ 10 ^ ((n.log2 / 4 : Nat) + k : ℤ) :=
        zpow_le_zpow_right₀ (by norm_num) (by omega)
    _ = 10 ^ ((n.log2 / 4 : Nat) : ℤ) * 10 ^ k := zpow_add₀ (by norm_num) _ _
    _ ≤ n * 10 ^ k := mul_le_mul_of_nonneg_right (ten_zpow_le pos) (by positivity)

/-- A decimal whose leading digits stand far to the right is small. -/
theorem decimal_lt_ten_zpow {n : Nat} {k : Int} (tiny : k + (n.log2 / 3 : Nat) + 1 < -400) :
    (n * 10 ^ k : ℚ) < 10 ^ (-400 : ℤ) :=
  calc (n * 10 ^ k : ℚ) < 10 ^ ((n.log2 / 3 : Nat) + 1 : ℤ) * 10 ^ k :=
        mul_lt_mul_of_pos_right lt_ten_zpow (by positivity)
    _ = 10 ^ ((n.log2 / 3 : Nat) + 1 + k : ℤ) := (zpow_add₀ (by norm_num) _ _).symm
    _ ≤ 10 ^ (-400 : ℤ) := zpow_le_zpow_right₀ (by norm_num) (by omega)

/-- What reads as a finite double is not large. -/
theorem ReadsAs.lt_ten_zpow {m : Nat} {e : Int} {v : ℚ} (normal : Normal m e)
    (reads : ReadsAs m e v) : v < 10 ^ (400 : ℤ) := by
  have limit : (2 : ℚ) ^ (53 + e) ≤ 2 ^ (1075 : ℤ) :=
    zpow_le_zpow_right₀ (by norm_num) (by have := normal.greatest; omega)
  exact (reads.lt_two_zpow normal).trans (limit.trans_lt two_zpow_lt_ten_zpow)

/-- Only zero is read from what is small. -/
theorem ReadsAs.eq_zero_of_lt {m : Nat} {e : Int} {v : ℚ} (normal : Normal m e)
    (reads : ReadsAs m e v) (small : v < 10 ^ (-400 : ℤ)) : m = 0 := by
  by_contra ne
  have one : (1 : ℚ) ≤ m := by exact_mod_cast Nat.one_le_iff_ne_zero.2 ne
  have least : (2 : ℚ) ^ (-1074 : ℤ) ≤ 2 ^ e := zpow_le_zpow_right₀ (by norm_num) normal.least
  have reach : reachBelow m e ≤ 1 / 2 := by
    unfold reachBelow
    split <;> norm_num
  have half : (2 : ℚ) ^ (-1074 : ℤ) = 2 * 2 ^ (-1075 : ℤ) := by
    rw [← zpow_one_add₀ (two_ne_zero (α := ℚ)), show (1 : ℤ) + -1075 = -1074 from rfl]
  have low : (2 : ℚ) ^ (-1075 : ℤ) ≤ v :=
    calc (2 : ℚ) ^ (-1075 : ℤ) ≤ 1 / 2 * 2 ^ e := by linarith
      _ ≤ (m - reachBelow m e) * 2 ^ e :=
        mul_le_mul_of_nonneg_right (by linarith) (by positivity)
      _ ≤ v := reads.low
  have apart : (10 : ℚ) ^ (-400 : ℤ) < 2 ^ (-1075 : ℤ) := by
    rw [zpow_neg, zpow_neg]
    exact inv_strictAnti₀ (by positivity) two_zpow_lt_ten_zpow
  exact absurd (small.trans apart) (not_lt.2 low)

/-- **A decimal that reads as a double is rounded to it.** -/
theorem ofDecimal_eq {m n : Nat} {e k : Int} (negative : Bool) (normal : Normal m e) (pos : 0 < n)
    (reads : ReadsAs m e (n * 10 ^ k)) : ofDecimal negative n k = finite negative m e := by
  have bounded : ¬400 < k + (n.log2 / 4 : Nat) := fun large =>
    absurd (reads.lt_ten_zpow normal) (not_lt.2 (ten_zpow_le_decimal pos large))
  unfold ofDecimal
  rw [if_neg pos.ne', if_neg bounded]
  by_cases tiny : k + (n.log2 / 3 : Nat) + 1 < -400
  · rw [if_pos tiny]
    obtain rfl := reads.eq_zero_of_lt normal (decimal_lt_ten_zpow tiny)
    obtain rfl : e = -1074 := normal.full.resolve_left (by decide)
    rfl
  · rw [if_neg tiny]
    split
    · rename_i whole
      have same : ((n * Nat.pow 10 k.toNat : Nat) : ℚ) / (1 : Nat) = n * 10 ^ k := by
        obtain ⟨k, rfl⟩ := Int.eq_ofNat_of_zero_le whole
        rw [Nat.cast_one, div_one, zpow_natCast]
        exact_mod_cast rfl
      exact ofRatio_eq negative normal (Nat.mul_pos pos (Nat.pow_pos (by decide))) Nat.one_pos
        (same ▸ reads)
    · rename_i broken
      have same : (n : ℚ) / (Nat.pow 10 (-k).toNat : Nat) = n * 10 ^ k := by
        obtain ⟨k, rfl⟩ := Int.exists_eq_neg_ofNat (by omega : k ≤ 0)
        rw [neg_neg, Int.toNat_natCast, zpow_neg, zpow_natCast, div_eq_mul_inv]
        exact_mod_cast rfl
      exact ofRatio_eq negative normal pos (Nat.pow_pos (by decide)) (same ▸ reads)

/-- Halfway between two doubles the even mantissa is taken. -/
example : toRat? (ofDecimal false 9007199254740993 0) = some 9007199254740992 := by
  decide +kernel

/-! ### What is read is a double -/

/-- Rounding to nearest does not go below the quotient. -/
theorem le_roundDiv (num den : Nat) : num / den ≤ roundDiv num den := by
  unfold roundDiv
  dsimp only
  split <;> omega

/-- Rounding to nearest goes above the quotient by one at most. -/
theorem roundDiv_le (num den : Nat) : roundDiv num den ≤ num / den + 1 := by
  unfold roundDiv
  dsimp only
  split <;> omega

/-- A rounded mantissa and its exponent make up a double, also after a carry. -/
theorem ofRounded_encoded (negative : Bool) {m : Nat} {e : Int} (small : m ≤ 9007199254740992)
    (least : -1074 ≤ e) (full : 4503599627370496 ≤ m ∨ e = -1074) :
    Encoded (ofRounded negative m e) := by
  have pow : Nat.pow 2 53 = 9007199254740992 := rfl
  unfold ofRounded
  rw [pow]
  split
  · split
    · exact .infinite negative
    · exact .finite negative ⟨by decide, by omega, by omega, .inl (le_refl 4503599627370496)⟩
  · split
    · exact .infinite negative
    · exact .finite negative ⟨by omega, least, by omega, full⟩

/-- What a quotient is rounded to is a double. -/
theorem ofRatio_encoded (negative : Bool) (num : Nat) {den : Nat} (hden : 0 < den) :
    Encoded (ofRatio negative num den) := by
  unfold ofRatio
  rcases Nat.eq_zero_or_pos num with rfl | hnum
  · rw [if_pos rfl]
    exact .finite negative ⟨by decide, by decide, by decide, .inr rfl⟩
  rw [if_neg hnum.ne', lastPlace_eq hnum hden]
  dsimp only
  have value : (0 : ℚ) < num / den := div_pos (Nat.cast_pos.2 hnum) (Nat.cast_pos.2 hden)
  obtain ⟨e, place⟩ : ∃ e, max (Int.log 2 (num / den : ℚ) - 52) (-1074) = e := ⟨_, rfl⟩
  rw [place]
  have weight : (0 : ℚ) < 2 ^ e := by positivity
  have below : (0 : ℚ) < scaleUp den e := Nat.cast_pos.2 (scaleUp_pos hden e)
  have reach (z : ℤ) : (2 : ℚ) ^ z ≤ num / den ↔ z ≤ Int.log 2 (num / den : ℚ) :=
    Int.zpow_le_iff_le_log (by decide) value
  have beyond (z : ℤ) : (num / den : ℚ) < 2 ^ z ↔ Int.log 2 (num / den : ℚ) < z :=
    Int.lt_zpow_iff_log_lt (by decide) value
  -- The quotient in units of the last place has 53 digits.
  have upper : scaleUp num (-e) / scaleUp den e < 9007199254740992 := by
    have reads : (num / den : ℚ) < 2 ^ (53 + e) := (beyond _).2 (by omega)
    rw [Nat.div_lt_iff_lt_mul (scaleUp_pos hden e), ← Nat.cast_lt (α := ℚ), Nat.cast_mul,
      ← div_lt_iff₀ below, scaleUp_div, div_lt_iff₀ weight]
    rwa [show (53 : ℤ) = (53 : ℕ) from rfl, zpow_add_nat] at reads
  have lower : 4503599627370496 ≤ scaleUp num (-e) / scaleUp den e ∨ e = -1074 := by
    by_cases least : e = -1074
    · exact .inr least
    · have reached : (2 : ℚ) ^ (52 + e) ≤ num / den := (reach _).2 (by omega)
      left
      rw [Nat.le_div_iff_mul_le (scaleUp_pos hden e), ← Nat.cast_le (α := ℚ), Nat.cast_mul,
        ← le_div_iff₀ below, scaleUp_div, le_div_iff₀ weight]
      rwa [show (52 : ℤ) = (52 : ℕ) from rfl, zpow_add_nat] at reached
  have nearest := le_roundDiv (scaleUp num (-e)) (scaleUp den e)
  have nearest' := roundDiv_le (scaleUp num (-e)) (scaleUp den e)
  exact ofRounded_encoded negative (by omega) (by omega) (lower.imp_left (·.trans nearest))

/-- **A decimal is read as a double.** -/
theorem ofDecimal_encoded (negative : Bool) (n : Nat) (k : Int) :
    Encoded (ofDecimal negative n k) := by
  have zero : Encoded (finite negative 0 (-1074)) :=
    .finite negative ⟨by decide, by decide, by decide, .inr rfl⟩
  unfold ofDecimal
  split
  · exact zero
  · split
    · exact .infinite negative
    · split
      · exact zero
      · split
        · exact ofRatio_encoded negative _ Nat.one_pos
        · exact ofRatio_encoded negative _ (Nat.pow_pos (by decide))

end Binary64
end MipShrink
