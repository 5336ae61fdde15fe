/-
# Numbers survive as texts

A machine number is written with its shortest digits and comes back (`Real64.read_text`).

A rational that is not an integer is written `p/q`, and what holds a slash is read as it stands.  An
integer is written without a slash, and what holds none is read as the nearest double: so it comes
back only when it is a double (`Rational.read_text_iff`).  The first integer that is none is
`2^53 + 1`, and the one before it comes back in its place (`Rational.read_text_first_lost`).
-/

import MipShrink.Proofs.Decimal.DoubleTexts
import MipShrink.Proofs.Decimal.Encoding
import MipShrink.Proofs.Decimal.NumberTexts
import MipShrink.Proofs.Text.Trimming

namespace MipShrink

namespace Real64

/-- **Machine numbers survive as texts**, unless they are none. -/
theorem read_text {a : Real64} (number : ∀ negative, a.toBinary64 ≠ .nan negative) :
    Scalar.read (Scalar.text a).toList = some a := by
  cases a with
  | nan negative => exact absurd rfl (number negative)
  | number x =>
    have decoded := Layout.double?_plain (Binary64.encoded_ofFloat x)
    have plain : ∀ c ∈ (Layout.plain (Binary64.ofFloat x)).toList, Text.isBlank c = false :=
      fun c mem => Layout.not_isBlank_of_isNumeric (Layout.numeric_plain _ c mem)
    show (Grammar.double? (Text.trim (Layout.plain (Binary64.ofFloat x)).toList)).map ofBinary64 = _
    rw [(Text.trimmed_of_not_blank plain).trim_eq, decoded]
    have whole := Binary64.toFloat_ofFloat x
    generalize same : Binary64.ofFloat x = b at whole
    cases b with
    | nan negative => exact absurd same (number negative)
    | infinite negative => exact congrArg (fun x => some (Real64.number x)) whole
    | finite negative m e => exact congrArg (fun x => some (Real64.number x)) whole

end Real64

namespace Grammar

open Layout

/-- **An integer is read as the nearest double.** -/
theorem double?_ofInt (k : Int) :
    double? (ofInt k) = some (Binary64.ofDecimal (decide (k < 0)) k.natAbs 0) := by
  have sign : ofInt k = signed (decide (k < 0)) (digitsOf k.natAbs ++ []) := by
    rw [List.append_nil]
    by_cases negative : k < 0
    · rw [ofInt, if_pos negative, decide_eq_true negative]
      rfl
    · rw [ofInt, if_neg negative, decide_eq_false negative]
      rfl
  rw [sign, double?_signed _ (head?_digitsOf _ _),
    unsigned?_whole _ (digitsOf_ne_nil _) (fun c => isDigit_of_mem_digitsOf) .none, natOf_digitsOf]

/-- The digits of a natural number are read as the number. -/
theorem bigNat?_digitsOf (n : Nat) : bigNat? (digitsOf n) = some n := by
  have digits : ∀ c ∈ digitsOf n, c.isDigit = true := fun c => isDigit_of_mem_digitsOf
  have number := natOf_digitsOf n
  cases shape : digitsOf n with
  | nil => exact absurd shape (digitsOf_ne_nil n)
  | cons c rest =>
    rw [shape] at digits number
    obtain ⟨first, others⟩ := List.forall_mem_cons.1 digits
    have all : rest.all (fun x => x.isDigit || x == '_') = true :=
      List.all_eq_true.2 fun x mem => Bool.or_eq_true_iff.2 (.inl (others x mem))
    show (if (c.isDigit && rest.all (fun x => x.isDigit || x == '_')) = true then
      some (natOf (c :: rest.filter Char.isDigit)) else none) = some n
    rw [first, all, List.filter_eq_self.2 others, number]
    rfl

/-- A big integer that begins with a digit has no sign. -/
theorem bigInt?_of_isDigit {t : List Char} (h : t.head?.any Char.isDigit = true) :
    bigInt? t = (bigNat? t).map fun n => (n : Int) := by
  unfold bigInt?
  split
  · exact absurd (show ('-').isDigit = true from h) (by decide)
  · exact absurd (show ('+').isDigit = true from h) (by decide)
  · cases bigNat? t <;> rfl

/-- The digits of a natural number are read as an integer, too. -/
theorem bigInt?_digitsOf (n : Nat) : bigInt? (digitsOf n) = some (n : Int) := by
  have head := head?_digitsOf n []
  rw [List.append_nil] at head
  rw [bigInt?_of_isDigit head, bigNat?_digitsOf]
  rfl

/-- The text of an integer is read as the integer. -/
theorem bigInt?_ofInt (k : Int) : bigInt? (ofInt k) = some k := by
  unfold ofInt
  split
  · show ((bigNat? (digitsOf k.natAbs)).bind fun n => some (n : Int)).map (fun n => -n) = some k
    rw [bigNat?_digitsOf]
    exact congrArg some (show -(k.natAbs : Int) = k by omega)
  · rw [bigInt?_digitsOf]
    congr 1
    omega

/-- An integer is written without a slash. -/
theorem not_mem_ofInt (k : Int) : '/' ∉ ofInt k := by
  intro mem
  unfold ofInt at mem
  split at mem
  · exact absurd (isDigit_of_mem_digitsOf (List.mem_of_ne_of_mem (by decide) mem)) (by decide)
  · exact absurd (isDigit_of_mem_digitsOf mem) (by decide)

/-- **A quotient is read as it stands.** -/
theorem quotient?_append (n : Int) {d : Nat} (pos : d ≠ 0) :
    quotient? (ofInt n ++ '/' :: digitsOf d) = some ((n : Rat) / (d : Int)) := by
  unfold quotient?
  rw [Text.splitFirst_append (not_mem_ofInt n)]
  dsimp only
  rw [bigInt?_ofInt, bigInt?_digitsOf]
  exact if_neg (by omega)

end Grammar

namespace Binary64

/-- The exact value of a double is its mantissa times a power of two, with the sign in front. -/
theorem toRat?_finite (negative : Bool) (m : Nat) (e : Int) : toRat? (finite negative m e) =
    some (if negative then -(m * 2 ^ e : ℚ) else m * 2 ^ e) := by
  have size : mkRat (scaleUp m e) (scaleUp 1 (-e)) = (m * 2 ^ e : ℚ) := by
    have scaled := scaleUp_div m 1 (-e)
    rw [neg_neg, Nat.cast_one, div_one, zpow_neg, div_inv_eq_mul] at scaled
    rw [Rat.mkRat_eq_div, Int.cast_natCast]
    exact scaled
  unfold toRat?
  dsimp only
  rw [size]

/-- An integer that is the value of a double is read as it. -/
theorem toRat?_ofDecimal_of_finite {k : Int} {negative : Bool} {m : Nat} {e : Int}
    (normal : Normal m e)
    (value : (if negative then -(m * 2 ^ e : ℚ) else m * 2 ^ e) = (k : ℚ)) :
    toRat? (ofDecimal (decide (k < 0)) k.natAbs 0) = some (k : ℚ) := by
  have size : ((k.natAbs : Nat) : ℚ) = m * 2 ^ e := by
    have weight : (0 : ℚ) ≤ m * 2 ^ e := by positivity
    rw [Nat.cast_natAbs, Int.cast_abs, ← value]
    split
    · rw [abs_neg, abs_of_nonneg weight]
    · exact abs_of_nonneg weight
  rcases Nat.eq_zero_or_pos k.natAbs with zero | pos
  · obtain rfl := Int.natAbs_eq_zero.1 zero
    show toRat? (finite false 0 (-1074)) = some ((0 : Int) : ℚ)
    rw [toRat?_finite, Nat.cast_zero, zero_mul]
    rfl
  · -- The sign that is written is that of the integer, whatever the sign of the double.
    have reads := readsAs_self m e
    rw [← size, ← mul_one ((k.natAbs : Nat) : ℚ), ← zpow_zero (10 : ℚ)] at reads
    rw [ofDecimal_eq _ normal pos reads, toRat?_finite, ← size]
    congr 1
    split
    · rename_i sign
      have same : -(k.natAbs : ℤ) = k := by
        have := of_decide_eq_true sign
        omega
      rw [← same, Int.cast_neg, Int.cast_natCast, same]
    · rename_i sign
      have same : (k.natAbs : ℤ) = k := by
        have := of_decide_eq_false (Bool.not_eq_true _ ▸ sign)
        omega
      rw [← same, Int.cast_natCast, same]

/-- **An integer is the value of the nearest double if it is the value of any.** -/
theorem toRat?_ofDecimal_iff (k : Int) :
    toRat? (ofDecimal (decide (k < 0)) k.natAbs 0) = some (k : ℚ) ↔
      ∃ bits, toRat? (ofBits bits) = some (k : ℚ) := by
  constructor
  · intro exact
    have encoded := ofDecimal_encoded (decide (k < 0)) k.natAbs 0
    generalize ofDecimal (decide (k < 0)) k.natAbs 0 = b at *
    cases encoded with
    | nan => cases exact
    | infinite => cases exact
    | finite negative normal =>
      exact ⟨_, (congrArg toRat? (ofBits_toBits negative normal)).trans exact⟩
  · rintro ⟨bits, value⟩
    cases shape : ofBits bits with
    | nan => rw [shape] at value; cases value
    | infinite => rw [shape] at value; cases value
    | finite negative m e =>
      rw [shape, toRat?_finite, Option.some.injEq] at value
      exact toRat?_ofDecimal_of_finite (normal_of_ofBits shape) value

end Binary64

namespace Rational

/-- A text of an integer is read as the value of a double. -/
theorem parse_ofInt (k : Int) : parse (Layout.ofInt k) =
    (Binary64.ofDecimal (decide (k < 0)) k.natAbs 0).toRat? := by
  unfold parse
  rw [if_neg (mt List.contains_iff_mem.1 (Grammar.not_mem_ofInt k)), Grammar.double?_ofInt]
  rfl

/-- **Rationals survive as texts** if they are no integers or are doubles. -/
theorem read_text_iff (x : Rat) : Scalar.read (Scalar.text x).toList = some x ↔
    x.den ≠ 1 ∨ ∃ bits, (Binary64.ofBits bits).toRat? = some x := by
  have trimmed : Scalar.read (Scalar.text x).toList = parse (text x).toList := by
    exact congrArg parse (Text.trimmed_of_not_blank (Text.isWord_text x).2).trim_eq
  rw [trimmed]
  unfold text
  dsimp only
  by_cases integer : x.den = 1
  · obtain ⟨k, rfl⟩ : ∃ k : Int, x = k := ⟨x.num, ((Rat.den_eq_one_iff x).1 integer).symm⟩
    rw [if_pos integer, String.toList_ofList, Rat.num_intCast, parse_ofInt,
      Binary64.toRat?_ofDecimal_iff]
    exact (or_iff_right (not_not_intro integer)).symm
  · rw [if_neg integer]
    have read : parse (Layout.ofInt x.num ++ '/' :: Layout.digitsOf x.den) = some x := by
      unfold parse
      rw [if_pos (List.contains_iff_mem.2 (by simp)), Grammar.quotient?_append x.num x.den_nz]
      exact congrArg some (Rat.num_div_den x)
    refine iff_of_true ?_ (.inl integer)
    rw [← read]
    simp

/-- **The first integer that is lost:** the one before it comes back. -/
theorem read_text_first_lost :
    Scalar.read (Scalar.text (9007199254740993 : Rat)).toList = some (9007199254740992 : Rat) := by
  decide +kernel

/-- Not every rational survives as a text. -/
theorem not_read_text : ¬∀ x : Rat, Scalar.read (Scalar.text x).toList = some x := by
  intro survives
  have same := (survives 9007199254740993).symm.trans read_text_first_lost
  exact absurd (Option.some.inj same) (by decide)

end Rational
end MipShrink
