/-
# Digits that are read back

The digits of a natural number are read as that number, with any zeros in front, and an integer as
that integer (`int?_ofInt`).  A decimal is a sign, digits with or without a point, and an exponent
or none: `unsigned?_whole` and `unsigned?_pointed` say which digits and which exponent it is read
as, for all texts that can be written.
-/

import MipShrink.Decimal.Grammar
import MipShrink.Decimal.Layout

namespace MipShrink

namespace Layout

/-- A natural number is written in decimal digits. -/
theorem isDigit_of_mem_digitsOf {n : Nat} {c : Char} (mem : c ∈ digitsOf n) : c.isDigit = true :=
  Nat.isDigit_of_mem_toDigits (by decide) (by decide) mem

/-- A natural number has one digit at least. -/
theorem digitsOf_ne_nil (n : Nat) : digitsOf n ≠ [] := Nat.toDigits_ne_nil

/-- Zeros are digits. -/
theorem isDigit_of_mem_zeros {k : Nat} {c : Char} (mem : c ∈ zeros k) : c.isDigit = true := by
  rw [List.eq_of_mem_replicate mem]
  rfl

end Layout

namespace Grammar

open Layout

/-! ### Natural numbers -/

/-- Digits are worth what the library takes them for. -/
theorem natOf_eq (ds : List Char) : natOf ds = Nat.ofDigitChars 10 ds 0 :=
  Nat.ofDigitChars_eq_foldl.symm

/-- The digits of a natural number are worth the number. -/
theorem natOf_digitsOf (n : Nat) : natOf (digitsOf n) = n := by
  rw [natOf_eq]
  exact Nat.ofDigitChars_ten_toDigits

/-- Zeros at the end multiply. -/
theorem natOf_append_zeros (ds : List Char) (k : Nat) :
    natOf (ds ++ zeros k) = natOf ds * Nat.pow 10 k := by
  rw [natOf_eq, natOf_eq, Nat.ofDigitChars_append, zeros, Nat.ofDigitChars_replicate_zero,
    Nat.mul_comm]
  rfl

/-- Zeros in front do not count. -/
theorem natOf_zeros_append (k : Nat) (ds : List Char) : natOf (zeros k ++ ds) = natOf ds := by
  rw [natOf_eq, natOf_eq, Nat.ofDigitChars_append, zeros, Nat.ofDigitChars_replicate_zero,
    Nat.mul_zero]

/-- Digits without anything else are read as what they are worth. -/
theorem nat?_eq_some {ds : List Char} (nonempty : ds ≠ []) (digits : ∀ c ∈ ds, c.isDigit = true) :
    nat? ds = some (natOf ds) := by
  unfold nat?
  rw [if_pos]
  rw [List.isEmpty_eq_false_iff.2 nonempty, List.all_eq_true.2 digits]
  rfl

/-! ### Signs -/

/-- A text that begins with a digit has no sign. -/
theorem splitSign_of_isDigit {t : List Char} (h : t.head?.any Char.isDigit = true) :
    splitSign t = (false, t) := by
  unfold splitSign
  split
  · exact absurd (show ('-').isDigit = true from h) (by decide)
  · exact absurd (show ('+').isDigit = true from h) (by decide)
  · rfl

/-- A sign in front of a digit is split off again. -/
theorem splitSign_signed (negative : Bool) {t : List Char}
    (h : t.head?.any Char.isDigit = true) : splitSign (signed negative t) = (negative, t) := by
  cases negative with
  | true => rfl
  | false => exact splitSign_of_isDigit h

/-- A text that begins with a natural number begins with a digit. -/
theorem head?_digitsOf (n : Nat) (t : List Char) :
    (digitsOf n ++ t).head?.any Char.isDigit = true := by
  cases h : digitsOf n with
  | nil => exact absurd h (digitsOf_ne_nil n)
  | cons d ds => exact isDigit_of_mem_digitsOf (h ▸ List.mem_cons_self)

/-- **An integer is read back.** -/
theorem int?_ofInt (k : Int) : int? (ofInt k) = some k := by
  have split : splitSign (ofInt k) = (decide (k < 0), digitsOf k.natAbs) := by
    have head := head?_digitsOf k.natAbs []
    rw [List.append_nil] at head
    by_cases negative : k < 0
    · rw [ofInt, if_pos negative, decide_eq_true negative]
      rfl
    · rw [ofInt, if_neg negative, decide_eq_false negative]
      exact splitSign_of_isDigit head
  unfold int?
  dsimp only
  rw [split, nat?_eq_some (digitsOf_ne_nil _) fun c => isDigit_of_mem_digitsOf, natOf_digitsOf]
  show some (if decide (k < 0) = true then -(k.natAbs : Int) else k.natAbs) = some k
  congr 1
  split
  · rename_i negative
    have := of_decide_eq_true negative
    omega
  · rename_i negative
    have := of_decide_eq_false (Bool.not_eq_true _ ▸ negative)
    omega

/-- An integer of so many bits in two's complement. -/
def Fits (bits : Nat) (n : Int) : Prop :=
  -Nat.pow 2 (bits - 1) ≤ n ∧ n < Nat.pow 2 (bits - 1)

instance (bits : Nat) (n : Int) : Decidable (Fits bits n) :=
  inferInstanceAs (Decidable (_ ∧ _))

/-- **What is read as a machine integer** is an integer that fits. -/
theorem word?_eq_some_iff_fits {bits : Nat} {t : List Char} {n : Int} :
    word? bits t = some n ↔ int? t = some n ∧ Fits bits n := by
  refine Option.filter_eq_some_iff.trans (and_congr_right fun _ => ?_)
  dsimp only
  rw [Bool.and_eq_true, decide_eq_true_eq, decide_eq_true_eq]
  exact Iff.rfl

/-! ### Decimals -/

/-- The text does not go on with a digit. -/
def EndsDigits (t : List Char) : Prop :=
  t.head?.all (fun c => !c.isDigit) = true

/-- The digits in front of something that ends them are all taken. -/
theorem takeWhile_digits {ds t : List Char} (digits : ∀ c ∈ ds, c.isDigit = true)
    (ends : EndsDigits t) : (ds ++ t).takeWhile Char.isDigit = ds := by
  rw [List.takeWhile_append_of_pos digits]
  cases t with
  | nil => exact List.append_nil ds
  | cons c t =>
    have other : c.isDigit = false := Bool.not_inj ends
    rw [List.takeWhile_cons, other]
    exact List.append_nil ds

/-- Behind the digits stands what ends them. -/
theorem dropWhile_digits {ds t : List Char} (digits : ∀ c ∈ ds, c.isDigit = true)
    (ends : EndsDigits t) : (ds ++ t).dropWhile Char.isDigit = t := by
  rw [List.dropWhile_append_of_pos digits]
  cases t with
  | nil => rfl
  | cons c t =>
    have other : c.isDigit = false := Bool.not_inj ends
    rw [List.dropWhile_cons, other]
    rfl

/-- The exponents that are written. -/
inductive WritesExponent : List Char → Int → Prop where
  | none : WritesExponent [] 0
  | mark (k : Int) : WritesExponent ('e' :: ofInt k) k

/-- What writes an exponent is read as the exponent. -/
theorem WritesExponent.exponent? {x : List Char} {k : Int} (h : WritesExponent x k) :
    exponent? x = some k := by
  cases h with
  | none => rfl
  | mark k =>
    unfold Grammar.exponent?
    exact int?_ofInt k

/-- An exponent ends the digits before it. -/
theorem WritesExponent.endsDigits {x : List Char} {k : Int} (h : WritesExponent x k) :
    EndsDigits x := by
  cases h <;> exact rfl

/-- **A decimal without a point.** -/
theorem unsigned?_whole (negative : Bool) {ds x : List Char} {k : Int} (nonempty : ds ≠ [])
    (digits : ∀ c ∈ ds, c.isDigit = true) (written : WritesExponent x k) :
    unsigned? negative (ds ++ x) = some (Binary64.ofDecimal negative (natOf ds) k) := by
  have ends := written.endsDigits
  unfold unsigned?
  dsimp only
  rw [takeWhile_digits digits ends, dropWhile_digits digits ends,
    List.isEmpty_eq_false_iff.2 nonempty]
  cases written with
  | none => simp [Grammar.exponent?]
  | mark k => simp [Grammar.exponent?, int?_ofInt]

/-- **A decimal with a point.** -/
theorem unsigned?_pointed (negative : Bool) {ws fs x : List Char} {k : Int} (nonempty : ws ≠ [])
    (whole : ∀ c ∈ ws, c.isDigit = true) (digits : ∀ c ∈ fs, c.isDigit = true)
    (written : WritesExponent x k) : unsigned? negative (ws ++ '.' :: (fs ++ x)) =
      some (Binary64.ofDecimal negative (natOf (ws ++ fs)) (k - fs.length)) := by
  have ends : EndsDigits ('.' :: (fs ++ x)) := rfl
  unfold unsigned?
  dsimp only
  rw [takeWhile_digits whole ends, dropWhile_digits whole ends,
    List.isEmpty_eq_false_iff.2 nonempty]
  simp only [Bool.false_and, Bool.false_eq_true, if_false]
  rw [takeWhile_digits digits written.endsDigits, dropWhile_digits digits written.endsDigits,
    written.exponent?]
  rfl

/-- Digits have no other case. -/
theorem toLower_of_isDigit {c : Char} (h : c.isDigit = true) : c.toLower = c := by
  have high : c.toNat ≤ 57 := (Char.isDigit_iff_toNat.1 h).2
  refine dif_neg fun upper => ?_
  have low : 65 ≤ c.toNat := UInt32.le_iff_toNat_le.1 upper.1
  omega

/-- A text that begins with a digit is no word. -/
theorem double?_signed (negative : Bool) {t : List Char} (h : t.head?.any Char.isDigit = true) :
    double? (signed negative t) = unsigned? negative t := by
  unfold double?
  rw [splitSign_signed negative h]
  dsimp only
  have other {w : List Char} (letter : w.head?.all (fun c => !c.isDigit) = true)
      (long : w ≠ []) : Text.lowerAscii t ≠ w := by
    rintro rfl
    cases t with
    | nil => exact absurd h (by decide)
    | cons c t =>
      have digit : c.isDigit = true := h
      have same : c.toLower = c := toLower_of_isDigit digit
      have letter : (!c.toLower.isDigit) = true := letter
      rw [same, digit] at letter
      exact absurd letter (by decide)
  rw [if_neg (other (by decide) (by decide)), if_neg]
  rintro (low | low)
  · exact other (by decide) (by decide) low
  · exact other (by decide) (by decide) low

end Grammar
end MipShrink
