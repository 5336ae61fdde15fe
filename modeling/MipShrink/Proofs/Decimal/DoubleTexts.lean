/-
# Written doubles are read back

The shortest digits are laid out in positions, with a point, or with an exponent.  Each layout is a
text of the same decimal (`Layout.Writes`), and a decimal that reads as a double is read as it: so
both forms of text give the double back (`double?_plain`, `double?_pointed`).
-/

import MipShrink.Proofs.Decimal.Shortest

namespace MipShrink
namespace Layout

open Grammar

/-- The text begins with a digit and reads as a decimal of the value, with whatever sign. -/
structure Writes (t : List Char) (v : ℚ) : Prop where
  digit : t.head?.any Char.isDigit = true
  reads : ∀ negative, ∃ (n : Nat) (k : Int), 0 < n ∧ (n * 10 ^ k : ℚ) = v ∧
    unsigned? negative t = some (Binary64.ofDecimal negative n k)

/-- A power of ten among the naturals is that power among the rationals. -/
theorem cast_ten_pow (k : Nat) : ((Nat.pow 10 k : Nat) : ℚ) = 10 ^ (k : ℤ) := by
  rw [zpow_natCast]
  exact_mod_cast rfl

/-- Two texts of digits make up a text of digits. -/
theorem isDigit_of_mem_append {a b : List Char} (left : ∀ c ∈ a, c.isDigit = true)
    (right : ∀ c ∈ b, c.isDigit = true) : ∀ c ∈ a ++ b, c.isDigit = true :=
  List.forall_mem_append.2 ⟨left, right⟩

/-- A text that begins with digits begins with a digit. -/
theorem head?_append {ds t : List Char} (nonempty : ds ≠ [])
    (digits : ∀ c ∈ ds, c.isDigit = true) : (ds ++ t).head?.any Char.isDigit = true := by
  cases ds with
  | nil => exact absurd rfl nonempty
  | cons d ds => exact digits d List.mem_cons_self

/-- Digits and an exponent. -/
theorem writes_whole {t x : List Char} {k : Int} {v : ℚ} (nonempty : t ≠ [])
    (digits : ∀ c ∈ t, c.isDigit = true) (written : WritesExponent x k)
    (pos : 0 < natOf t) (value : (natOf t * 10 ^ k : ℚ) = v) : Writes (t ++ x) v where
  digit := head?_append nonempty digits
  reads negative := ⟨natOf t, k, pos, value, unsigned?_whole negative nonempty digits written⟩

/-- Digits on both sides of a point, and an exponent. -/
theorem writes_pointed {s t x : List Char} {k : Int} {v : ℚ} (nonempty : s ≠ [])
    (whole : ∀ c ∈ s, c.isDigit = true) (digits : ∀ c ∈ t, c.isDigit = true)
    (written : WritesExponent x k) (pos : 0 < natOf (s ++ t))
    (value : (natOf (s ++ t) * 10 ^ (k - t.length) : ℚ) = v) :
    Writes (s ++ '.' :: (t ++ x)) v where
  digit := head?_append nonempty whole
  reads negative :=
    ⟨natOf (s ++ t), k - t.length, pos, value,
      unsigned?_pointed negative nonempty whole digits written⟩

variable {c : Nat} {p : Int}

/-- Positional digits are a text of the decimal. -/
theorem writes_positional (pos : 0 < c) : Writes (positional c p) (c * 10 ^ p) := by
  have digits : ∀ d ∈ digitsOf c, d.isDigit = true := fun d => isDigit_of_mem_digitsOf
  unfold positional
  dsimp only
  split
  · rename_i whole
    obtain ⟨k, rfl⟩ := Int.eq_ofNat_of_zero_le whole
    have number : natOf (digitsOf c ++ zeros k) = c * Nat.pow 10 k := by
      rw [natOf_append_zeros, natOf_digitsOf]
    rw [Int.toNat_natCast, ← List.append_nil (digitsOf c ++ zeros k)]
    refine writes_whole (List.append_ne_nil_of_left_ne_nil (digitsOf_ne_nil c) _)
      (isDigit_of_mem_append digits fun d => isDigit_of_mem_zeros) .none ?_ ?_
    · rw [number]
      exact Nat.mul_pos pos (Nat.pow_pos (by decide))
    · rw [number, Nat.cast_mul, cast_ten_pow, zpow_zero, mul_one]
  · rename_i broken
    obtain ⟨k, rfl⟩ := Int.exists_eq_neg_ofNat (by omega : p ≤ 0)
    rw [neg_neg, Int.toNat_natCast]
    split
    · rename_i inside
      have parts := List.take_append_drop ((digitsOf c).length - k) (digitsOf c)
      have whole : (digitsOf c).take ((digitsOf c).length - k) ≠ [] := by
        rw [← List.length_pos_iff, List.length_take]
        omega
      have places : ((digitsOf c).drop ((digitsOf c).length - k)).length = k := by
        rw [List.length_drop]
        omega
      rw [← List.append_nil ((digitsOf c).drop _)]
      refine writes_pointed whole (fun d mem => digits d (List.mem_of_mem_take mem))
        (fun d mem => digits d (List.mem_of_mem_drop mem)) .none ?_ ?_
      · rw [parts, natOf_digitsOf]
        exact pos
      · rw [parts, natOf_digitsOf, places, zero_sub]
    · rename_i outside
      have number : natOf ('0' :: (zeros (k - (digitsOf c).length) ++ digitsOf c)) = c :=
        (natOf_zeros_append (k - (digitsOf c).length + 1) (digitsOf c)).trans (natOf_digitsOf c)
      have places : (zeros (k - (digitsOf c).length) ++ digitsOf c).length = k := by
        rw [List.length_append, zeros, List.length_replicate]
        omega
      rw [← List.append_nil (zeros _ ++ digitsOf c)]
      refine writes_pointed (s := ['0']) (by decide) (List.forall_mem_singleton.2 rfl)
        (isDigit_of_mem_append (fun d => isDigit_of_mem_zeros) digits) .none ?_ ?_
      · exact number.symm ▸ pos
      · rw [List.singleton_append, number, places, zero_sub]

/-- Digits with a point are a text of the decimal. -/
theorem writes_withPoint (pos : 0 < c) : Writes (withPoint c p) (c * 10 ^ p) := by
  unfold withPoint
  split
  · rename_i whole
    obtain ⟨k, rfl⟩ := Int.eq_ofNat_of_zero_le whole
    have shape : positional c (k : Int) ++ ['.', '0'] =
        (digitsOf c ++ zeros k) ++ '.' :: (zeros 1 ++ []) := by
      rw [positional, if_pos whole]
      rfl
    have number : natOf ((digitsOf c ++ zeros k) ++ zeros 1) = c * Nat.pow 10 k * 10 := by
      rw [natOf_append_zeros, natOf_append_zeros, natOf_digitsOf]
    rw [shape]
    refine writes_pointed (List.append_ne_nil_of_left_ne_nil (digitsOf_ne_nil c) _)
      (isDigit_of_mem_append (fun d => isDigit_of_mem_digitsOf) fun d => isDigit_of_mem_zeros)
      (fun d => isDigit_of_mem_zeros) .none ?_ ?_
    · rw [number]
      exact Nat.mul_pos (Nat.mul_pos pos (Nat.pow_pos (by decide))) (by decide)
    · rw [number, Nat.cast_mul, Nat.cast_mul, cast_ten_pow]
      exact mul_inv_cancel_right₀ (by norm_num) _
  · exact writes_positional pos

/-- Scientific digits are a text of the decimal. -/
theorem writes_scientific (pos : 0 < c) : Writes (scientific c p) (c * 10 ^ p) := by
  have digits : ∀ d ∈ digitsOf c, d.isDigit = true := fun d => isDigit_of_mem_digitsOf
  have number := natOf_digitsOf c
  unfold scientific
  dsimp only
  cases shape : digitsOf c with
  | nil => exact absurd shape (digitsOf_ne_nil c)
  | cons d rest =>
    rw [shape] at digits number
    cases rest with
    | nil =>
      refine writes_whole (t := [d]) (List.cons_ne_nil d []) digits (.mark _) ?_ ?_
      · exact number.symm ▸ pos
      · rw [number]
        simp
    | cons f fs =>
      refine writes_pointed (s := [d]) (t := f :: fs) (List.cons_ne_nil d [])
        (fun e mem => digits e (List.mem_singleton.1 mem ▸ List.mem_cons_self))
        (fun e mem => digits e (List.mem_cons_of_mem d mem)) (.mark _) ?_ ?_
      · exact number.symm ▸ pos
      · rw [List.singleton_append, number]
        simp

/-- A decimal of a number that reads as a double is read back. -/
theorem Writes.double? {t : List Char} {v : ℚ} (written : Writes t v) {m : Nat} {e : Int}
    (normal : Binary64.Normal m e) (reads : Binary64.ReadsAs m e v) (negative : Bool) :
    Grammar.double? (signed negative t) = some (.finite negative m e) := by
  obtain ⟨n, k, pos, rfl, read⟩ := written.reads negative
  rw [double?_signed negative written.digit, read,
    Binary64.ofDecimal_eq negative normal pos reads]

/-- A layout is read back if it writes the shortest digits of what is not zero, and if the doubles
without digits are read back. -/
theorem double?_of_layout {layout : Binary64 → String}
    (nan : double? (layout (.nan false)).toList = some (.nan false))
    (infinite : ∀ s, double? (layout (.infinite s)).toList = some (.infinite s))
    (zero : ∀ s, double? (layout (.finite s 0 (-1074))).toList = some (.finite s 0 (-1074)))
    (digits : ∀ s m e, 0 < m → 0 < (Shortest.digits m e).1 → ∃ t,
      (layout (.finite s m e)).toList = signed s t ∧
        Writes t ((Shortest.digits m e).1 * 10 ^ (Shortest.digits m e).2))
    {b : Binary64} (encoded : Binary64.Encoded b) : double? (layout b).toList = some b := by
  cases encoded with
  | nan => exact nan
  | infinite negative => exact infinite negative
  | finite negative normal =>
    rename_i m e
    rcases Nat.eq_zero_or_pos m with rfl | pos
    · obtain rfl : e = -1074 := normal.full.resolve_left (by decide)
      exact zero negative
    · obtain ⟨some, reads⟩ := Shortest.digits_readsAs normal pos
      obtain ⟨t, text, writes⟩ := digits negative m e pos some
      rw [text]
      exact writes.double? normal reads negative

/-- **The shortest digits, always written out, are read back.** -/
theorem double?_plain {b : Binary64} (encoded : Binary64.Encoded b) :
    double? (plain b).toList = some b := by
  refine double?_of_layout (by decide) (by decide) (by decide) (fun s m e pos some => ?_) encoded
  refine ⟨_, ?_, writes_positional some⟩
  unfold plain
  dsimp only
  rw [if_neg pos.ne', String.toList_ofList]

/-- **The shortest digits with a point or an exponent are read back.** -/
theorem double?_pointed {b : Binary64} (encoded : Binary64.Encoded b) :
    double? (pointed b).toList = some b := by
  refine double?_of_layout (by decide) (by decide) (by decide) (fun s m e pos some => ?_) encoded
  unfold pointed
  dsimp only
  rw [if_neg pos.ne', String.toList_ofList]
  split
  · exact ⟨_, rfl, writes_scientific some⟩
  · exact ⟨_, rfl, writes_withPoint some⟩

end Layout
end MipShrink
