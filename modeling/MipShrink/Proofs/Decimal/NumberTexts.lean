/-
# The characters of numbers

Doubles and integers are written in a few characters (`Layout.isNumeric`), none of which is blank, a
quote or a comment.  A double with a point or an exponent shows one that no integer has, so the two
kinds are told apart by their texts (`Grammar.int?_pointed`).

`Scalar.Printed` is what the arithmetics of a program share here: their numbers are words in these
characters, with a slash in a quotient.
-/

import MipShrink.Proofs.Decimal.Digits
import MipShrink.Proofs.Text.Trimming
import MipShrink.Proofs.Text.Words

namespace MipShrink
namespace Layout

/-- The characters that doubles and integers are written with. -/
def isNumeric (c : Char) : Bool :=
  c.isDigit || ['-', '.', 'N', 'a', 'e', 'f', 'i', 'n'].contains c

/-- All characters are those of numbers. -/
def Numeric (t : List Char) : Prop :=
  ∀ c ∈ t, isNumeric c = true

instance (t : List Char) : Decidable (Numeric t) :=
  decidable_of_iff (t.all isNumeric = true) List.all_eq_true

/-- Digits are among the characters of numbers. -/
theorem isNumeric_of_isDigit {c : Char} (h : c.isDigit = true) : isNumeric c = true :=
  Bool.or_eq_true_iff.2 (.inl h)

/-- No character of a number is blank. -/
theorem not_isBlank_of_isNumeric {c : Char} (h : isNumeric c = true) :
    Text.isBlank c = false := by
  rcases Bool.or_eq_true_iff.1 h with digit | mark
  · exact Text.not_isBlank_of_isDigit digit
  · have marks :
        ['-', '.', 'N', 'a', 'e', 'f', 'i', 'n'].all (fun d => !Text.isBlank d) = true := by
      decide
    simpa using List.all_eq_true.1 marks c (List.contains_iff_mem.1 mark)

namespace Numeric

variable {s t : List Char}

/-- Two texts in the characters of numbers make up a third one. -/
theorem append (hs : Numeric s) (ht : Numeric t) : Numeric (s ++ t) :=
  List.forall_mem_append.2 ⟨hs, ht⟩

/-- A character of a number may stand in front. -/
theorem cons {c : Char} (hc : isNumeric c = true) (ht : Numeric t) : Numeric (c :: t) :=
  List.forall_mem_cons.2 ⟨hc, ht⟩

/-- A sign is a character of a number. -/
theorem signed (negative : Bool) (ht : Numeric t) : Numeric (signed negative t) := by
  cases negative with
  | false => exact ht
  | true => exact cons rfl ht

/-- Other characters are not in the text. -/
theorem not_mem {c : Char} (ht : Numeric t) (other : isNumeric c = false) : c ∉ t :=
  fun mem => Bool.false_ne_true (other.symm.trans (ht c mem))

/-- A text in the characters of numbers has no blanks to trim. -/
theorem trimmed (ht : Numeric t) : Text.Trimmed t :=
  Text.trimmed_of_not_blank fun c mem => not_isBlank_of_isNumeric (ht c mem)

end Numeric

/-- The empty text has no other characters. -/
theorem numeric_nil : Numeric [] := fun _ mem => absurd mem List.not_mem_nil

/-- Digits are in the characters of numbers. -/
theorem numeric_of_isDigit {t : List Char} (h : ∀ c ∈ t, c.isDigit = true) : Numeric t :=
  fun c mem => isNumeric_of_isDigit (h c mem)

/-- Natural numbers are written in the characters of numbers. -/
theorem numeric_digitsOf (n : Nat) : Numeric (digitsOf n) :=
  numeric_of_isDigit fun _ => isDigit_of_mem_digitsOf

/-- Zeros are in the characters of numbers. -/
theorem numeric_zeros (k : Nat) : Numeric (zeros k) :=
  numeric_of_isDigit fun _ => isDigit_of_mem_zeros

/-- Integers are written in the characters of numbers. -/
theorem numeric_ofInt (k : Int) : Numeric (ofInt k) := by
  unfold ofInt
  split
  · exact .cons rfl (numeric_digitsOf _)
  · exact numeric_digitsOf _

/-- Positional digits are in the characters of numbers. -/
theorem numeric_positional (c : Nat) (p : Int) : Numeric (positional c p) := by
  have digits := numeric_digitsOf c
  unfold positional
  dsimp only
  split
  · exact digits.append (numeric_zeros _)
  · split
    · exact Numeric.append (fun d mem => digits d (List.mem_of_mem_take mem))
        (.cons rfl fun d mem => digits d (List.mem_of_mem_drop mem))
    · exact .cons rfl (.cons rfl ((numeric_zeros _).append digits))

/-- Digits with a point are in the characters of numbers. -/
theorem numeric_withPoint (c : Nat) (p : Int) : Numeric (withPoint c p) := by
  unfold withPoint
  split
  · exact (numeric_positional c p).append (.cons rfl (.cons rfl numeric_nil))
  · exact numeric_positional c p

/-- Scientific digits are in the characters of numbers. -/
theorem numeric_scientific (c : Nat) (p : Int) : Numeric (scientific c p) := by
  have digits := numeric_digitsOf c
  unfold scientific
  dsimp only
  refine Numeric.append ?_ (.cons rfl (numeric_ofInt _))
  split
  · exact numeric_nil
  · rename_i d shape
    exact shape ▸ digits
  · rename_i d rest _ shape
    rw [shape] at digits
    obtain ⟨first, others⟩ := List.forall_mem_cons.1 digits
    exact .cons first (.cons rfl others)

/-- A double without a point is written in the characters of numbers. -/
theorem numeric_plain (b : Binary64) : Numeric (plain b).toList := by
  unfold plain
  split
  · exact (by decide : Numeric "NaN".toList)
  · rw [String.toList_ofList]
    exact .signed _ (by decide : Numeric "inf".toList)
  · split
    · rw [String.toList_ofList]
      exact .signed _ (.cons rfl numeric_nil)
    · dsimp only
      rw [String.toList_ofList]
      exact .signed _ (numeric_positional _ _)

/-- Positional digits are there even if the decimal is zero. -/
theorem positional_ne_nil (c : Nat) (p : Int) : positional c p ≠ [] := by
  unfold positional
  dsimp only
  split
  · exact List.append_ne_nil_of_left_ne_nil (digitsOf_ne_nil c) _
  · split
    · exact List.append_ne_nil_of_right_ne_nil _ (List.cons_ne_nil _ _)
    · exact List.cons_ne_nil _ _

/-- No double has an empty text. -/
theorem plain_ne_empty (b : Binary64) : plain b ≠ "" := by
  have signed_ne {negative : Bool} {t : List Char} (h : t ≠ []) :
      String.ofList (signed negative t) ≠ "" := by
    rw [ne_eq, ← String.toList_eq_nil_iff, String.toList_ofList]
    cases negative with
    | false => exact h
    | true => exact List.cons_ne_nil _ _
  unfold plain
  split
  · decide
  · exact signed_ne (by decide)
  · split
    · exact signed_ne (by decide)
    · exact signed_ne (positional_ne_nil _ _)

/-- A double with a point is written in the characters of numbers. -/
theorem numeric_pointed (b : Binary64) : Numeric (pointed b).toList := by
  unfold pointed
  split
  · exact (by decide : Numeric "NaN".toList)
  · rw [String.toList_ofList]
    exact .signed _ (by decide : Numeric "inf".toList)
  · split
    · rw [String.toList_ofList]
      exact .signed _ (by decide : Numeric "0.0".toList)
    · dsimp only
      rw [String.toList_ofList]
      refine .signed _ ?_
      split
      · exact numeric_scientific _ _
      · exact numeric_withPoint _ _

/-! ### No integers -/

/-- The characters of which a double with a point or an exponent shows one. -/
def marks : List Char := ['.', 'N', 'e', 'i']

/-- A sign takes nothing away. -/
theorem mem_signed {t : List Char} {c : Char} (negative : Bool) (mem : c ∈ t) :
    c ∈ signed negative t := by
  cases negative with
  | false => exact mem
  | true => exact List.mem_cons_of_mem _ mem

/-- Digits with a point show it. -/
theorem point_mem_withPoint (c : Nat) (p : Int) : '.' ∈ withPoint c p := by
  unfold withPoint
  split
  · simp
  · rename_i broken
    unfold positional
    dsimp only
    rw [if_neg broken]
    split <;> simp

/-- **A double with a point or an exponent does not look like an integer.** -/
theorem exists_mark_mem_pointed (b : Binary64) : ∃ c ∈ marks, c ∈ (pointed b).toList := by
  unfold pointed
  split
  · exact ⟨'N', by decide, by decide⟩
  · rw [String.toList_ofList]
    exact ⟨'i', by decide, mem_signed _ (by decide)⟩
  · split
    · rw [String.toList_ofList]
      exact ⟨'.', by decide, mem_signed _ (by decide)⟩
    · dsimp only
      rw [String.toList_ofList]
      split
      · refine ⟨'e', by decide, mem_signed _ ?_⟩
        exact List.mem_append_right _ List.mem_cons_self
      · exact ⟨'.', by decide, mem_signed _ (point_mem_withPoint _ _)⟩

end Layout

namespace Grammar

/-- With a character that is neither a digit nor a sign there is no integer. -/
theorem int?_eq_none {t : List Char} {c : Char} (mem : c ∈ t) (digit : c.isDigit = false)
    (minus : c ≠ '-') (plus : c ≠ '+') : int? t = none := by
  have rest : c ∈ (splitSign t).2 := by
    unfold splitSign
    split
    · exact List.mem_of_ne_of_mem minus mem
    · exact List.mem_of_ne_of_mem plus mem
    · exact mem
  have all : (splitSign t).2.all Char.isDigit = false :=
    List.all_eq_false.2 ⟨c, rest, by rw [digit]; decide⟩
  unfold int? nat?
  dsimp only
  rw [all, Bool.and_false]
  rfl

/-- A double with a point or an exponent is not read as an integer. -/
theorem int?_pointed (b : Binary64) : int? (Layout.pointed b).toList = none := by
  obtain ⟨c, mark, mem⟩ := Layout.exists_mark_mem_pointed b
  have known : c = '.' ∨ c = 'N' ∨ c = 'e' ∨ c = 'i' := by simpa [Layout.marks] using mark
  rcases known with rfl | rfl | rfl | rfl <;>
    exact int?_eq_none mem (by decide) (by decide) (by decide)

end Grammar
/-! ### The numbers of a problem -/

namespace Scalar

/-- The characters that the numbers of a problem are written with. -/
def isPrinted (c : Char) : Bool :=
  Layout.isNumeric c || c == '/'

/-- Numbers are written in these characters, and zero is zero. -/
class Printed (α : Type) [Scalar α] : Prop where
  text_ne_empty : ∀ a : α, text a ≠ ""
  isPrinted_text : ∀ a : α, ∀ c ∈ (text a).toList, isPrinted c = true
  isZero_zero : isZero (0 : α) = true

/-- The characters of numbers are among those that scalars are printed in. -/
theorem isPrinted_of_numeric {t : List Char} (h : Layout.Numeric t) :
    ∀ c ∈ t, isPrinted c = true :=
  fun c mem => Bool.or_eq_true_iff.2 (.inl (h c mem))

/-- So are two numbers with a slash between them. -/
theorem isPrinted_quotient {s t : List Char} (hs : Layout.Numeric s) (ht : Layout.Numeric t) :
    ∀ c ∈ (String.ofList s ++ "/" ++ String.ofList t).toList, isPrinted c = true := by
  have parts : (String.ofList s ++ "/" ++ String.ofList t).toList = s ++ '/' :: t := by simp
  rw [parts]
  exact List.forall_mem_append.2
    ⟨isPrinted_of_numeric hs, List.forall_mem_cons.2 ⟨rfl, isPrinted_of_numeric ht⟩⟩

/-- No character of a printed scalar is blank. -/
theorem not_isBlank_of_isPrinted {c : Char} (h : isPrinted c = true) : Text.isBlank c = false := by
  rcases Bool.or_eq_true_iff.1 h with numeric | slash
  · exact Layout.not_isBlank_of_isNumeric numeric
  · rw [beq_iff_eq.1 slash]
    decide

instance : Printed Rat where
  text_ne_empty a := (Text.isWord_text a).1
  isPrinted_text a := by
    show ∀ c ∈ (Rational.text a).toList, isPrinted c = true
    unfold Rational.text
    dsimp only
    split
    · rw [String.toList_ofList]
      exact isPrinted_of_numeric (Layout.numeric_ofInt _)
    · exact isPrinted_quotient (Layout.numeric_ofInt _) (Layout.numeric_digitsOf _)
  isZero_zero := by decide

instance : Printed Fraction where
  text_ne_empty a := by
    show a.text ≠ ""
    unfold Fraction.text
    dsimp only
    split
    · exact (Text.isWord_ofInt _).1
    · exact (((Text.isWord_ofInt _).append (by decide)).append (Text.isWord_ofInt _)).1
  isPrinted_text a := by
    show ∀ c ∈ a.text.toList, isPrinted c = true
    unfold Fraction.text
    dsimp only
    split
    · rw [String.toList_ofList]
      exact isPrinted_of_numeric (Layout.numeric_ofInt _)
    · exact isPrinted_quotient (Layout.numeric_ofInt _) (Layout.numeric_ofInt _)
  isZero_zero := by
    show (Fraction.order 0 0 == .eq) = true
    rw [Fraction.order, if_pos rfl]
    rfl

instance : Printed Real64 where
  text_ne_empty a := Layout.plain_ne_empty _
  isPrinted_text a := isPrinted_of_numeric (Layout.numeric_plain _)
  isZero_zero := by decide

section

variable {α : Type} [Scalar α] [Printed α]

/-- **Numbers are written as words.** -/
theorem isWord_text (a : α) : Text.IsWord (text a) :=
  ⟨Printed.text_ne_empty a, fun c mem => not_isBlank_of_isPrinted (Printed.isPrinted_text a c mem)⟩

/-- Other characters are not in the text of a scalar. -/
theorem not_mem_text {c : Char} (other : isPrinted c = false) (a : α) : c ∉ (text a).toList :=
  fun mem => Bool.false_ne_true (other.symm.trans (Printed.isPrinted_text a c mem))

end

end Scalar
end MipShrink
