/-
# Doubles in 64 bits

An encoding is a sign, an exponent field and a fraction side by side (`joined`), and each of them
can be taken out again.  So a normal double comes back from its encoding (`ofBits_toBits`), and a
machine number is told by what it stands for (`toFloat_ofFloat`): only one of them is no number.
-/

import Mathlib
import MipShrink.Proofs.Decimal.Nearest

namespace MipShrink
namespace Binary64

theorem pow_11 : Nat.pow 2 11 = 2048 := rfl

theorem pow_52 : Nat.pow 2 52 = 4503599627370496 := rfl

theorem pow_63 : Nat.pow 2 63 = 9223372036854775808 := rfl

/-- The number that a sign, an exponent field and a fraction make. -/
def joined (negative : Bool) (biased fraction : Nat) : Nat :=
  toBits.signBit negative + biased * Nat.pow 2 52 + fraction

/-- The fields of an encoding add up, since they do not overlap. -/
theorem joined_eq (negative : Bool) (biased fraction : Nat) : joined negative biased fraction =
    (if negative then 9223372036854775808 else 0) + biased * 4503599627370496 + fraction := rfl

/-- The exponent field stands above the fraction. -/
theorem joined_div {biased fraction : Nat} (negative : Bool) (exponent : biased < 2048)
    (small : fraction < Nat.pow 2 52) :
    joined negative biased fraction / Nat.pow 2 52 % Nat.pow 2 11 = biased := by
  rw [joined_eq, pow_11]
  rw [pow_52] at *
  split <;> omega

/-- The fraction stands below the exponent field. -/
theorem joined_mod {fraction : Nat} (negative : Bool) (biased : Nat)
    (small : fraction < Nat.pow 2 52) :
    joined negative biased fraction % Nat.pow 2 52 = fraction := by
  rw [joined_eq]
  rw [pow_52] at *
  split <;> omega

/-- The sign stands above all else. -/
theorem le_joined {biased fraction : Nat} (negative : Bool) (exponent : biased < 2048)
    (small : fraction < Nat.pow 2 52) :
    decide (Nat.pow 2 63 ≤ joined negative biased fraction) = negative := by
  rw [joined_eq, pow_63]
  rw [pow_52] at small
  cases negative
  · exact decide_eq_false (by simp only [Bool.false_eq_true, if_false]; omega)
  · exact decide_eq_true (by simp only [if_true]; omega)

/-- The fields of an encoding fill 64 bits and no more. -/
theorem joined_lt {biased fraction : Nat} (negative : Bool) (exponent : biased < 2048)
    (small : fraction < Nat.pow 2 52) : joined negative biased fraction < 2 ^ 64 := by
  rw [joined_eq]
  rw [pow_52] at small
  split <;> omega

/-- What an encoding stands for, field by field. -/
theorem ofBits_of_joined {bits : UInt64} {negative : Bool} {biased fraction : Nat}
    (exponent : biased < 2048) (small : fraction < Nat.pow 2 52)
    (h : bits.toNat = joined negative biased fraction) :
    ofBits bits =
      if biased = 2047 then if fraction = 0 then infinite negative else nan negative
      else if biased = 0 then finite negative fraction (-1074)
      else finite negative (fraction + Nat.pow 2 52) ((biased : Int) - 1075) := by
  unfold ofBits
  dsimp only
  rw [h, le_joined negative exponent small, joined_div negative exponent small,
    joined_mod negative biased small]

/-- Every encoding is made of its fields. -/
theorem exists_joined (bits : UInt64) : ∃ negative biased fraction,
    biased < 2048 ∧ fraction < Nat.pow 2 52 ∧ bits.toNat = joined negative biased fraction := by
  have bound : bits.toNat < 18446744073709551616 := bits.toNat_lt
  refine ⟨decide (9223372036854775808 ≤ bits.toNat), bits.toNat / 4503599627370496 % 2048,
    bits.toNat % 4503599627370496, by omega, by rw [pow_52]; omega, ?_⟩
  rw [joined_eq]
  split
  · rename_i high
    have := of_decide_eq_true high
    omega
  · rename_i low
    have := of_decide_eq_false (Bool.not_eq_true _ ▸ low)
    omega

section Fields

open Float.Model

variable {bits : UInt64} {negative : Bool} {biased fraction : Nat}

/-- The exponent field of an encoding. -/
theorem toNat_unpackExponent (exponent : biased < 2048) (small : fraction < Nat.pow 2 52)
    (fields : bits.toNat = joined negative biased fraction) :
    (@UnpackedFloat.unpackExponent Format.binary64 bits.toBitVec).toNat = biased := by
  rw [UnpackedFloat.unpackExponent_def, BitVec.extractLsb'_toNat, Nat.shiftRight_eq_div_pow]
  show bits.toNat / Nat.pow 2 52 % Nat.pow 2 11 = biased
  rw [fields, joined_div negative exponent small]

/-- The fraction of an encoding. -/
theorem toNat_unpackMantissa (small : fraction < Nat.pow 2 52)
    (fields : bits.toNat = joined negative biased fraction) :
    (@UnpackedFloat.unpackMantissa Format.binary64 bits.toBitVec).toNat = fraction := by
  rw [UnpackedFloat.unpackMantissa_def, BitVec.extractLsb'_toNat, Nat.shiftRight_zero]
  show bits.toNat % Nat.pow 2 52 = fraction
  rw [fields, joined_mod negative biased small]

end Fields

/-- A finite double that is encoded is normal. -/
theorem normal_of_ofBits {bits : UInt64} {negative : Bool} {m : Nat} {e : Int}
    (h : ofBits bits = finite negative m e) : Normal m e := by
  obtain ⟨sign, biased, fraction, exponent, small, fields⟩ := exists_joined bits
  rw [ofBits_of_joined exponent small fields] at h
  rw [pow_52] at small h
  split at h
  · split at h <;> cases h
  · split at h
    · cases h
      constructor <;> omega
    · cases h
      constructor <;> omega

/-- A mantissa below `2^52` has the lowest exponent field; any other one loses its leading bit. -/
theorem toBits_finite (negative : Bool) (m : Nat) (e : Int) :
    (finite negative m e).toBits = if m < Nat.pow 2 52 then UInt64.ofNat (joined negative 0 m)
      else UInt64.ofNat (joined negative (e + 1075).toNat (m - Nat.pow 2 52)) := by
  unfold joined
  rw [Nat.zero_mul]
  rfl

/-- **A normal double comes back from its encoding.** -/
theorem ofBits_toBits {m : Nat} {e : Int} (negative : Bool) (normal : Normal m e) :
    ofBits (finite negative m e).toBits = finite negative m e := by
  obtain ⟨small, least, greatest, full⟩ := normal
  rw [toBits_finite]
  split
  · rename_i short
    have encoded := UInt64.toNat_ofNat_of_lt'
      (joined_lt negative (by decide : 0 < 2048) short)
    obtain rfl : e = -1074 := full.resolve_left (by rw [pow_52] at short; omega)
    exact ofBits_of_joined (by decide) short encoded
  · rename_i long
    rw [pow_52] at long
    have fraction : m - Nat.pow 2 52 < Nat.pow 2 52 := by
      rw [pow_52]
      omega
    have exponent : (e + 1075).toNat < 2047 := by omega
    have encoded := UInt64.toNat_ofNat_of_lt'
      (joined_lt negative (exponent.trans (by decide)) fraction)
    have decoded := ofBits_of_joined (exponent.trans (by decide)) fraction encoded
    rw [if_neg exponent.ne, if_neg (by omega)] at decoded
    have field : ((e + 1075).toNat : Int) - 1075 = e := by omega
    rw [decoded, field, Nat.sub_add_cancel (Nat.le_of_not_lt long)]

/-! ### Machine numbers -/

/-- An encoding comes back from what it stands for, unless that is no number. -/
theorem toBits_ofBits {bits : UInt64} (number : ∀ negative, ofBits bits ≠ nan negative) :
    (ofBits bits).toBits = bits := by
  obtain ⟨sign, biased, fraction, exponent, small, fields⟩ := exists_joined bits
  have decoded := ofBits_of_joined exponent small fields
  have same {n : Nat} (h : n = joined sign biased fraction) : UInt64.ofNat n = bits := by
    rw [h, ← fields, UInt64.ofNat_toNat]
  rw [decoded]
  split
  · rename_i last
    rw [if_pos last] at decoded
    split
    · rename_i zero
      refine same ?_
      rw [last, zero]
      rfl
    · rename_i fractional
      rw [if_neg fractional] at decoded
      exact absurd decoded (number sign)
  · split
    · rename_i zero
      rw [toBits_finite, if_pos small]
      exact same (zero ▸ rfl)
    · rw [toBits_finite, if_neg (by omega)]
      refine same ?_
      have field : ((biased : Int) - 1075 + 1075).toNat = biased := by omega
      rw [field, Nat.add_sub_cancel]

/-- Machine numbers that are no number have a single encoding. -/
theorem toBits_of_nan {x : Float} {negative : Bool} (h : ofBits x.toBits = nan negative) :
    x.toBits = 0x7ff8000000000000 := by
  obtain ⟨sign, biased, fraction, exponent, small, fields⟩ := exists_joined x.toBits
  have decoded := ofBits_of_joined exponent small fields
  rw [h] at decoded
  have last : biased = 2047 := by
    by_contra other
    rw [if_neg other] at decoded
    split at decoded <;> cases decoded
  have fractional : fraction ≠ 0 := by
    rintro rfl
    rw [if_pos last, if_pos rfl] at decoded
    cases decoded
  subst last
  have valid := x.toModel.valid
  rw [← UInt64.toBitVec_inj]
  refine valid.eq_packedNaN ?_ fun zero => ?_
  · exact BitVec.eq_of_toNat_eq (toNat_unpackExponent exponent small fields)
  · have field := congrArg BitVec.toNat zero
    exact fractional ((toNat_unpackMantissa small fields).symm.trans field)

/-- A machine number has the mantissa and the exponent of an encoding. -/
theorem encoded_ofFloat (x : Float) : Encoded (ofFloat x) := by
  unfold ofFloat
  cases shape : ofBits x.toBits with
  | nan negative =>
    rw [toBits_of_nan shape] at shape
    obtain rfl : false = negative := by
      have : ofBits 0x7ff8000000000000 = nan false := by decide
      rw [this] at shape
      injection shape
    exact .nan
  | infinite negative => exact .infinite negative
  | finite negative m e => exact .finite negative (normal_of_ofBits shape)

/-- **A machine number is told by its decoded form.** -/
theorem toFloat_ofFloat (x : Float) : (ofFloat x).toFloat = x := by
  unfold ofFloat toFloat
  by_cases number : ∀ negative, ofBits x.toBits ≠ nan negative
  · rw [toBits_ofBits number, Float.ofBits_toBits]
  · obtain ⟨negative, h⟩ := not_forall_not.1 number
    have bits := toBits_of_nan h
    have decoded : ofBits x.toBits = nan false := by
      rw [bits]
      decide
    rw [decoded, show (nan false).toBits = x.toBits from bits.symm ▸ rfl, Float.ofBits_toBits]

end Binary64
end MipShrink
