/-
# Integers as doubles

An integer is rounded to its first 53 binary digits.  Rounding keeps the order
(`ParamValue.doubleOf_mono`), but several integers of more than 53 digits can have one double: only
when one of two integers has no more than that are they told apart by their doubles
(`ParamValue.le_of_doubleOf_le`).
-/

import MipShrink.Parameters.Registry
import MipShrink.Proofs.Decimal.Order

namespace MipShrink
namespace Binary64

/-! ### Rounding keeps the order -/

/-- **A larger numerator is not rounded to less.** -/
theorem roundDiv_mono {num num' den : Nat} (le : num ≤ num') :
    roundDiv num den ≤ roundDiv num' den := by
  have below := Nat.div_le_div_right (c := den) le
  have whole := Nat.div_add_mod num den
  have whole' := Nat.div_add_mod num' den
  rcases Nat.eq_or_lt_of_le below with same | less
  · rw [← same] at whole'
    unfold roundDiv
    dsimp only
    rw [← same]
    split <;> split <;> omega
  · have first := roundDiv_le num den
    have second := le_roundDiv num' den
    omega

/-- Nothing is rounded over the denominator one. -/
theorem roundDiv_one (num : Nat) : roundDiv num 1 = num := by
  unfold roundDiv
  dsimp only
  rw [Nat.div_one, Nat.mod_one]
  exact if_neg (by omega)

/-- The places behind the first 53 digits of an integer. -/
def places (n : Nat) : Int := (n.log2 : Int) - 52

/-- The first 53 digits of an integer, rounded. -/
def digits (n : Nat) : Nat :=
  roundDiv (scaleUp n (-places n)) (scaleUp 1 (places n))

/-- The last place of an integer depends on its digits only. -/
theorem lastPlace_one {n : Nat} (pos : 0 < n) : lastPlace n 1 = places n := by
  have reached : scaleUp 1 (n.log2 : Int) ≤ scaleUp n (-(n.log2 : Int)) := by
    have := Nat.log2_self_le pos.ne'
    unfold scaleUp
    rw [Int.toNat_natCast, Int.toNat_of_nonpos (by omega), Nat.one_mul]
    exact this.trans_eq (Nat.mul_one n).symm
  unfold lastPlace places
  dsimp only
  rw [show Nat.log2 1 = 0 from rfl, Int.natCast_zero, Int.sub_zero, if_pos reached]
  omega

/-- The first 53 digits are as many. -/
theorem scaleUp_places {n : Nat} (pos : 0 < n) :
    4503599627370496 * scaleUp 1 (places n) ≤ scaleUp n (-places n) ∧
      scaleUp n (-places n) < 9007199254740992 * scaleUp 1 (places n) := by
  have lower : 2 ^ n.log2 ≤ n := Nat.log2_self_le pos.ne'
  have upper : n < 2 ^ (n.log2 + 1) := Nat.lt_log2_self
  unfold scaleUp places
  rcases Nat.le_total n.log2 52 with short | long
  · obtain ⟨k, places⟩ := Nat.exists_eq_add_of_le short
    rw [Int.toNat_of_nonpos (by omega), show (-((n.log2 : Int) - 52)).toNat = k by omega]
    have weight : 4503599627370496 = 2 ^ n.log2 * 2 ^ k := by rw [← Nat.pow_add, ← places]
    have weight' : 9007199254740992 = 2 ^ (n.log2 + 1) * 2 ^ k := by
      rw [← Nat.pow_add, Nat.add_right_comm, ← places]
    constructor
    · show 4503599627370496 * 1 ≤ n * 2 ^ k
      rw [Nat.mul_one, weight]
      exact Nat.mul_le_mul_right _ lower
    · show n * 2 ^ k < 9007199254740992 * 1
      rw [Nat.mul_one, weight']
      exact Nat.mul_lt_mul_of_pos_right upper (Nat.two_pow_pos k)
  · obtain ⟨k, places⟩ := Nat.exists_eq_add_of_le long
    rw [Int.toNat_of_nonpos (by omega : -((n.log2 : Int) - 52) ≤ 0),
      show ((n.log2 : Int) - 52).toNat = k by omega]
    constructor
    · show 4503599627370496 * (1 * 2 ^ k) ≤ n * 1
      rw [Nat.one_mul, Nat.mul_one]
      refine Nat.le_trans (Nat.le_of_eq ?_) lower
      rw [places, Nat.pow_add]
    · show n * 1 < 9007199254740992 * (1 * 2 ^ k)
      rw [Nat.one_mul, Nat.mul_one]
      refine Nat.lt_of_lt_of_eq upper ?_
      rw [places, Nat.add_right_comm, Nat.pow_add]

/-- The leading 53 digits of an integer form a full mantissa, or the next power of two. -/
theorem digits_bounds {n : Nat} (pos : 0 < n) :
    4503599627370496 ≤ digits n ∧ digits n ≤ 9007199254740992 := by
  obtain ⟨lower, upper⟩ := scaleUp_places pos
  have unit : 0 < scaleUp 1 (places n) := scaleUp_pos Nat.one_pos _
  have nearest := le_roundDiv (scaleUp n (-places n)) (scaleUp 1 (places n))
  have nearest' := roundDiv_le (scaleUp n (-places n)) (scaleUp 1 (places n))
  have whole := (Nat.le_div_iff_mul_le unit).2 lower
  have whole' := (Nat.div_lt_iff_lt_mul unit).2 upper
  unfold digits
  omega

/-- A mantissa that is rounded has its size for a rank, and that of infinity if it is too large. -/
theorem rank?_ofRounded (negative : Bool) {m : Nat} {e : Int} (full : 4503599627370496 ≤ m)
    (small : m ≤ 9007199254740992) : (ofRounded negative m e).rank? =
      some (signed negative (min infiniteSize (size m e))) := by
  have pow : Nat.pow 2 53 = 9007199254740992 := rfl
  unfold ofRounded
  rw [pow]
  split
  · rename_i next
    split
    · rename_i large
      rw [min_eq_left (by unfold infiniteSize size; omega)]
      rfl
    · rw [min_eq_right (by unfold infiniteSize size; omega), rank?, next, pow_52]
      congr 2
      unfold size
      omega
  · split
    · rw [min_eq_left (by unfold infiniteSize size; omega)]
      rfl
    · rw [min_eq_right (by unfold infiniteSize size; omega)]
      rfl

/-- The rank of the double nearest to a number. -/
def wholeRank (n : Nat) : Int :=
  if n = 0 then 0 else min infiniteSize (size (digits n) (places n))

/-- An integer that is read as a decimal has the rank of its leading digits. -/
theorem rank?_ofDecimal (negative : Bool) (n : Nat) :
    (ofDecimal negative n 0).rank? = some (signed negative (wholeRank n)) := by
  unfold ofDecimal wholeRank
  rcases Nat.eq_zero_or_pos n with rfl | pos
  · rfl
  obtain ⟨full, small⟩ := digits_bounds pos
  rw [if_neg pos.ne', if_neg pos.ne']
  split
  · rename_i large
    have beyond : infiniteSize ≤ size (digits n) (places n) := by
      unfold infiniteSize size places
      omega
    rw [min_eq_left beyond]
    rfl
  · rw [if_neg (by omega), if_pos (Int.le_refl 0)]
    show (ofRatio negative (n * 1) 1).rank? = _
    rw [Nat.mul_one, ofRatio, if_neg pos.ne', lastPlace_one pos]
    exact rank?_ofRounded negative full small

/-- A larger integer has leading digits that are at least as large. -/
theorem size_digits_le {n n' : Nat} (pos : 0 < n) (le : n ≤ n') :
    size (digits n) (places n) ≤ size (digits n') (places n') := by
  have pos' := Nat.lt_of_lt_of_le pos le
  obtain ⟨full, small⟩ := digits_bounds pos
  obtain ⟨full', small'⟩ := digits_bounds pos'
  have logs : n.log2 ≤ n'.log2 := (Nat.le_log2 pos'.ne').2 ((Nat.log2_self_le pos.ne').trans le)
  rcases Nat.eq_or_lt_of_le logs with same | less
  · have same : places n = places n' := by
      unfold places
      rw [same]
    have rounded : digits n ≤ digits n' := by
      unfold digits
      rw [same]
      exact roundDiv_mono (Nat.mul_le_mul_right _ le)
    unfold size
    rw [same]
    omega
  · unfold size places
    omega

/-- The digits of a number of up to 53 digits are its own. -/
theorem digits_of_lt {n : Nat} (pos : 0 < n) (short : n < 9007199254740992) :
    digits n = scaleUp n (-places n) ∧ digits n < 9007199254740992 := by
  have logs : n.log2 < 53 := (Nat.log2_lt pos.ne').2 short
  have unit : scaleUp 1 (places n) = 1 := by
    unfold scaleUp places
    rw [Int.toNat_of_nonpos (by omega), Nat.one_mul]
  have upper := (scaleUp_places pos).2
  unfold digits
  rw [unit] at upper ⊢
  rw [roundDiv_one]
  exact ⟨rfl, upper⟩

/-- **A number of up to 53 digits is told from all larger ones.** -/
theorem size_digits_lt {n n' : Nat} (pos : 0 < n) (lt : n < n') (short : n < 9007199254740992) :
    size (digits n) (places n) < size (digits n') (places n') := by
  have pos' := Nat.lt_trans pos lt
  obtain ⟨exact, small⟩ := digits_of_lt pos short
  obtain ⟨full', -⟩ := digits_bounds pos'
  have logs : n.log2 ≤ n'.log2 :=
    (Nat.le_log2 pos'.ne').2 ((Nat.log2_self_le pos.ne').trans lt.le)
  rcases Nat.eq_or_lt_of_le logs with same | less
  · have short' : n' < 9007199254740992 := by
      have digits : n.log2 < 53 := (Nat.log2_lt pos.ne').2 short
      exact (Nat.log2_lt pos'.ne').1 (same ▸ digits)
    have same : places n = places n' := by
      unfold places
      rw [same]
    have scaled : digits n < digits n' := by
      rw [exact, (digits_of_lt pos' short').1, same]
      exact Nat.mul_lt_mul_of_pos_right lt (Nat.two_pow_pos _)
    unfold size
    rw [same]
    omega
  · unfold size places
    omega

/-- A positive integer has a positive rank. -/
theorem wholeRank_pos {n : Nat} (pos : 0 < n) : 0 < wholeRank n := by
  obtain ⟨full, -⟩ := digits_bounds pos
  rw [wholeRank, if_neg pos.ne']
  unfold infiniteSize size places
  omega

/-- An integer without sign has no negative rank. -/
theorem wholeRank_nonneg (n : Nat) : 0 ≤ wholeRank n := by
  rcases Nat.eq_zero_or_pos n with rfl | pos
  · exact Int.le_refl 0
  · exact (wholeRank_pos pos).le

/-- **The ranks of natural numbers are in their order.** -/
theorem wholeRank_mono {n n' : Nat} (le : n ≤ n') : wholeRank n ≤ wholeRank n' := by
  rcases Nat.eq_zero_or_pos n with rfl | pos
  · exact wholeRank_nonneg n'
  · have larger := size_digits_le pos le
    rw [wholeRank, wholeRank, if_neg pos.ne', if_neg (by omega)]
    omega

/-- Up to 53 digits integers are told apart by their ranks. -/
theorem wholeRank_lt {n n' : Nat} (lt : n < n') (short : n < 9007199254740992) :
    wholeRank n < wholeRank n' := by
  rcases Nat.eq_zero_or_pos n with rfl | pos
  · exact wholeRank_pos lt
  · have larger := size_digits_lt pos lt short
    have logs : n.log2 < 53 := (Nat.log2_lt pos.ne').2 short
    have small := (digits_of_lt pos short).2
    have finite : size (digits n) (places n) < infiniteSize := by
      unfold size places infiniteSize
      omega
    rw [wholeRank, wholeRank, if_neg pos.ne', if_neg (by omega)]
    omega

end Binary64

namespace ParamValue

open Binary64

/-! ### Integers -/

/-- The rank of the double nearest to an integer. -/
def rankOf (n : Int) : Int :=
  signed (decide (n < 0)) (wholeRank n.natAbs)

/-- The double of an integer is a number, and its rank is known. -/
theorem rank?_doubleOf (n : Int) : (ofFloat (doubleOf n)).rank? = some (rankOf n) := by
  unfold doubleOf
  rw [ofFloat_toFloat (ofDecimal_encoded _ _ _), rank?_ofDecimal]
  rfl

/-- The rank of an integer that is not negative is that of its magnitude. -/
theorem rankOf_of_nonneg {n : Int} (nonneg : 0 ≤ n) : rankOf n = wholeRank n.natAbs := by
  rw [rankOf, decide_eq_false nonneg.not_gt, signed_false]

/-- The rank of a negative integer is that of its magnitude with the sign in front. -/
theorem rankOf_of_neg {n : Int} (neg : n < 0) : rankOf n = -wholeRank n.natAbs := by
  rw [rankOf, decide_eq_true neg, signed_true]

/-- Ranks keep the order of integers. -/
theorem rankOf_mono {a b : Int} (le : a ≤ b) : rankOf a ≤ rankOf b := by
  rcases Int.lt_or_le a 0 with neg | nonneg
  · rw [rankOf_of_neg neg]
    rcases Int.lt_or_le b 0 with neg' | nonneg'
    · rw [rankOf_of_neg neg']
      exact Int.neg_le_neg (wholeRank_mono (by omega))
    · have first := wholeRank_nonneg a.natAbs
      have second := wholeRank_nonneg b.natAbs
      rw [rankOf_of_nonneg nonneg']
      omega
  · rw [rankOf_of_nonneg nonneg, rankOf_of_nonneg (nonneg.trans le)]
    exact wholeRank_mono (by omega)

/-- Ranks keep the strict order if one of the integers has no more than 53 digits. -/
theorem rankOf_lt {a b : Int} (lt : a < b) (short : a < 9007199254740992)
    (short' : -9007199254740992 < b) : rankOf a < rankOf b := by
  rcases Int.lt_or_le a 0 with neg | nonneg
  · rw [rankOf_of_neg neg]
    rcases Int.lt_or_le b 0 with neg' | nonneg'
    · rw [rankOf_of_neg neg']
      exact Int.neg_lt_neg (wholeRank_lt (by omega) (by omega))
    · have first := wholeRank_pos (Int.natAbs_pos.2 neg.ne)
      have second := wholeRank_nonneg b.natAbs
      rw [rankOf_of_nonneg nonneg']
      omega
  · rw [rankOf_of_nonneg nonneg, rankOf_of_nonneg (nonneg.trans lt.le)]
    exact wholeRank_lt (by omega) (by omega)

/-- Doubles of integers are compared by their ranks. -/
theorem doubleOf_le_iff {a b : Int} : doubleOf a ≤ doubleOf b ↔ rankOf a ≤ rankOf b := by
  rw [le_iff_rank, rank?_doubleOf, rank?_doubleOf]
  constructor
  · rintro ⟨i, j, hi, hj, le⟩
    cases hi
    cases hj
    exact le
  · exact fun le => ⟨_, _, rfl, rfl, le⟩

/-- **The doubles nearest to integers are in their order.** -/
theorem doubleOf_mono {a b : Int} (le : a ≤ b) : doubleOf a ≤ doubleOf b :=
  doubleOf_le_iff.2 (rankOf_mono le)

/-- **Integers are in the order of their doubles** when one of them has at most 53 digits. -/
theorem le_of_doubleOf_le {a b : Int} (le : doubleOf a ≤ doubleOf b)
    (short : a ≤ 9007199254740992 ∨ b < 9007199254740992)
    (short' : -9007199254740992 < a ∨ -9007199254740992 ≤ b) : a ≤ b := by
  by_contra above
  have strict := rankOf_lt (Int.lt_of_not_ge above) (by omega) (by omega)
  have weak := doubleOf_le_iff.1 le
  omega

/-- The doubles of integers are numbers. -/
theorem not_doubleOf_lt {a b : Int} : ¬doubleOf a < doubleOf b ↔ doubleOf b ≤ doubleOf a := by
  rw [lt_iff_rank, le_iff_rank, rank?_doubleOf, rank?_doubleOf]
  simp

end ParamValue
end MipShrink
