/-
# Lines of settings

A value that is read is written as it stood, or in characters from the minus sign to the last
letter, among which there are no quotes, blanks or comments (`Settings.Rewritten`).  In both cases
its text is read as the value again.  Neither the name nor the value of a setting that was read
begins a comment where it stands, and the quotes before the value are those of the name: so no
comment begins in the line that is written (`Settings.legible_of_readLine`), in whatever order
quotes and marks come.
-/

import MipShrink.Proofs.Decimal.DoubleTexts
import MipShrink.Proofs.Decimal.Encoding
import MipShrink.Proofs.Decimal.NumberTexts
import MipShrink.Proofs.Text.Trimming
import MipShrink.Settings.File

namespace MipShrink

namespace Text

/-- A text that is unquoted stood between its quotes. -/
theorem unquote_eq_some {c : Char} {t s : List Char} (h : unquote c t = some s) :
    t = c :: (s ++ [c]) := by
  unfold unquote at h
  split at h
  · cases h
  · split at h
    · rename_i ends
      obtain ⟨rfl, last⟩ := ends
      obtain ⟨start, rfl⟩ := List.getLast?_eq_some_iff.1 last
      rw [List.dropLast_concat] at h
      cases h
      rfl
    · cases h

/-- A text that begins with another character is not quoted. -/
theorem unquote_eq_none {c x : Char} (other : x ≠ c) (t : List Char) :
    unquote c (x :: t) = none :=
  if_neg fun h => other h.1

end Text

namespace Grammar

/-- The integers of 64 bits. -/
theorem word?_eq_some_iff {t : List Char} {n : Int} : word? 64 t = some n ↔
    int? t = some n ∧ -9223372036854775808 ≤ n ∧ n ≤ 9223372036854775807 := by
  refine word?_eq_some_iff_fits.trans (and_congr_right fun _ => ?_)
  show -((Nat.pow 2 63 : Nat) : Int) ≤ n ∧ n < (Nat.pow 2 63 : Nat) ↔ _
  rw [Binary64.pow_63]
  omega

end Grammar

namespace Settings

/-! ### Values -/

/-- Only the trimmed text of a value counts. -/
theorem readValue_congr (name : List Char) {a b : List Char} (h : Text.trim a = Text.trim b) :
    readValue name a = readValue name b := by
  unfold readValue
  rw [h]

/-- A text in the characters of numbers is read as a number. -/
theorem readValue_numeric (name : List Char) {t : List Char} (h : Layout.Numeric t) :
    readValue name t = readNumber name t := by
  have no {w : List Char} (c : Char) (mem : c ∈ w) (other : Layout.isNumeric c = false) : t ≠ w :=
    fun same => h.not_mem other (same ▸ mem)
  have plain (c : Char) (other : Layout.isNumeric c = false) : Text.unquote c t = none := by
    cases t with
    | nil => rfl
    | cons x t =>
      exact Text.unquote_eq_none (fun same => h.not_mem other (List.mem_cons.2 (.inl same.symm))) t
  unfold readValue
  rw [h.trimmed.trim_eq]
  dsimp only
  rw [if_neg, if_neg, plain '"' rfl, plain '\'' rfl]
  · exact not_or.2 ⟨no 'S' (by decide) rfl, no 's' (by decide) rfl⟩
  · exact not_or.2 ⟨no 'T' (by decide) rfl, no 't' (by decide) rfl⟩

/-- The kind of an integer does not show in its text. -/
theorem text_ofInt (name : List Char) (n : Int) :
    (ofInt name n).text = SettingValue.intText n := by
  unfold ofInt
  split
  · rfl
  · split <;> rfl

/-- The printed ASCII characters from the minus sign to the last letter. -/
def isPlain (c : Char) : Bool :=
  decide ('-' ≤ c) && decide (c ≤ 'z')

/-- The plain characters go from the minus sign to the last letter. -/
theorem isPlain_iff {c : Char} : isPlain c = true ↔ 45 ≤ c.toNat ∧ c.toNat ≤ 122 := by
  rw [isPlain, Bool.and_eq_true, decide_eq_true_eq, decide_eq_true_eq]
  exact Iff.rfl

/-- The characters of numbers are plain. -/
theorem isPlain_of_isNumeric {c : Char} (h : Layout.isNumeric c = true) : isPlain c = true := by
  rcases Bool.or_eq_true_iff.1 h with digit | mark
  · have low : 48 ≤ c.toNat := (Char.isDigit_iff_toNat.1 digit).1
    have high : c.toNat ≤ 57 := (Char.isDigit_iff_toNat.1 digit).2
    exact isPlain_iff.2 ⟨by omega, by omega⟩
  · have marks : ['-', '.', 'N', 'a', 'e', 'f', 'i', 'n'].all isPlain = true := by decide
    exact List.all_eq_true.1 marks c (List.contains_iff_mem.1 mark)

/-- Plain characters are not blank. -/
theorem not_isBlank_of_isPlain {c : Char} (h : isPlain c = true) : Text.isBlank c = false := by
  obtain ⟨low, high⟩ := isPlain_iff.1 h
  unfold Text.isBlank Text.blankRanges
  simp only [List.any_cons, List.any_nil, Bool.or_false, Bool.or_eq_false_iff,
    Bool.and_eq_false_iff, decide_eq_false_iff_not]
  omega

/-- How a value that is read will be written: as it stood, or in plain characters. -/
inductive Rewritten (name value : List Char) (v : SettingValue) : Prop where
  | verbatim (same : v.text.toList = Text.trim value) (read : readValue name value = some v)
  | plain (characters : ∀ c ∈ v.text.toList, isPlain c = true)
      (read : readValue name v.text.toList = some v)

/-- The text of an integer of 64 bits is read as the integer. -/
theorem readNumber_ofInt {n : Int} (range : -9223372036854775808 ≤ n ∧ n ≤ 9223372036854775807)
    (name : List Char) : readNumber name (Layout.ofInt n) = some (ofInt name n) := by
  have word := Grammar.word?_eq_some_iff.2 ⟨Grammar.int?_ofInt n, range⟩
  rw [readNumber, word]

/-- The text of a double is read as the double. -/
theorem readNumber_pointed (name : List Char) (x : Float) :
    readNumber name (Layout.pointed (Binary64.ofFloat x)).toList = some (.double x) := by
  have word : Grammar.word? 64 (Layout.pointed (Binary64.ofFloat x)).toList = none := by
    rw [Grammar.word?, Grammar.int?_pointed]
    rfl
  rw [readNumber, word, Layout.double?_pointed (Binary64.encoded_ofFloat x)]
  dsimp only
  rw [Option.map_some, Binary64.toFloat_ofFloat]

/-- **Numbers are written as they are read.** -/
theorem rewritten_of_readNumber {name value t : List Char} {v : SettingValue}
    (read : readNumber name t = some v) : Rewritten name value v := by
  have numeric : Layout.Numeric v.text.toList ∧ readNumber name v.text.toList = some v := by
    unfold readNumber at read
    split at read
    · rename_i n integer
      obtain ⟨-, range⟩ := Grammar.word?_eq_some_iff.1 integer
      cases read
      rw [text_ofInt, SettingValue.intText, String.toList_ofList]
      exact ⟨Layout.numeric_ofInt n, readNumber_ofInt range name⟩
    · obtain ⟨b, -, rfl⟩ := Option.map_eq_some_iff.1 read
      exact ⟨Layout.numeric_pointed _, readNumber_pointed name b.toFloat⟩
  exact .plain (fun c mem => isPlain_of_isNumeric (numeric.1 c mem))
    ((readValue_numeric name numeric.1).trans numeric.2)

/-- **Every value that is read is written in one of two ways.** -/
theorem rewritten_of_readValue {name value : List Char} {v : SettingValue}
    (read : readValue name value = some v) : Rewritten name value v := by
  have origin := read
  unfold readValue at read
  dsimp only at read
  split at read
  · cases read
    exact .plain (List.all_eq_true.1 (by decide : "TRUE".toList.all isPlain = true)) rfl
  · split at read
    · cases read
      exact .plain (List.all_eq_true.1 (by decide : "FALSE".toList.all isPlain = true)) rfl
    · split at read
      · rename_i s quoted
        cases read
        refine .verbatim ?_ origin
        rw [Text.unquote_eq_some quoted]
        simp [SettingValue.text]
      · split at read
        · rename_i c quoted
          cases read
          refine .verbatim ?_ origin
          rw [Text.unquote_eq_some quoted]
          simp [SettingValue.text]
        · cases read
        · exact rewritten_of_readNumber read

namespace Rewritten

variable {name value : List Char} {v : SettingValue}

/-- **The text of a value is read as the value.** -/
theorem readValue_text (h : Rewritten name value v) :
    readValue name v.text.toList = some v := by
  cases h with
  | verbatim same read =>
    rw [← read]
    refine readValue_congr name ?_
    rw [same, (Text.trimmed_trim value).trim_eq]
  | plain characters read => exact read

/-- What is rewritten has no blanks to trim. -/
theorem trimmed (h : Rewritten name value v) : Text.Trimmed v.text.toList := by
  cases h with
  | verbatim same => exact same ▸ Text.trimmed_trim value
  | plain characters =>
    exact Text.trimmed_of_not_blank fun c mem => not_isBlank_of_isPlain (characters c mem)

/-- A character that is not plain is in the text only if it is in what was read. -/
theorem mem_of_mem_text (h : Rewritten name value v) {c : Char} (special : isPlain c = false)
    (mem : c ∈ v.text.toList) : c ∈ value := by
  cases h with
  | verbatim same => exact Text.mem_of_mem_trim (same ▸ mem)
  | plain characters => exact absurd (characters c mem) (by rw [special]; decide)

/-- No comment begins in the text if none begins in what was read. -/
theorem uncommented (h : Rewritten name value v) {quoted : Bool}
    (clean : Text.Uncommented quoted value) : Text.Uncommented quoted v.text.toList := by
  cases h with
  | verbatim same => exact same ▸ clean.trim
  | plain characters =>
    exact Text.uncommented_of_not_mem
      (fun mem => absurd (characters _ mem) (by decide)) quoted

end Rewritten

theorem readValue_nil (name : List Char) : readValue name [] = none := rfl

/-- Nothing is read from an empty text. -/
theorem ne_nil_of_readValue {name text : List Char} {v : SettingValue}
    (read : readValue name text = some v) : text ≠ [] := by
  rintro rfl
  rw [readValue_nil] at read
  cases read

/-! ### Lines -/

/-- The line of the setting is read as the setting, and does not break into others. -/
structure Legible (e : String × SettingValue) : Prop where
  reads : readLine (lineOf e).toList = .ok (some e)
  whole : '\n' ∉ (lineOf e).toList
  last : (lineOf e).toList.getLast? ≠ some '\r'

/-- A line is a name, an equals sign between blanks, and a value. -/
theorem toList_lineOf (name : List Char) (v : SettingValue) :
    (lineOf (String.ofList name, v)).toList = name ++ ([' ', '=', ' '] ++ v.text.toList) := by
  simp [lineOf]

/-- **A line without comments is read.** -/
theorem readLine_append {name text : List Char} {v : SettingValue}
    (first : Text.Trimmed name) (last : Text.Trimmed text) (new : '=' ∉ name)
    (clean : Text.Uncommented false name)
    (clean' : Text.Uncommented (Text.quotedAfter false name) text)
    (read : readValue name text = some v) :
    readLine (name ++ ([' ', '=', ' '] ++ text)) = .ok (some (String.ofList name, v)) := by
  have kept : Text.Uncommented false (name ++ ([' ', '=', ' '] ++ text)) := by
    rw [Text.uncommented_append, Text.uncommented_append,
      Text.quotedAfter_of_not_mem (by decide : '"' ∉ [' ', '=', ' '])]
    exact ⟨clean, Text.uncommented_of_not_mem (by decide) _, clean'⟩
  -- Trimming removes nothing but the blank between an empty name and the mark.
  have tail : ((' ' :: text).reverse.dropWhile Text.isBlank).reverse = ' ' :: text := by
    rw [Text.dropWhile_eq_self, List.reverse_reverse]
    rw [List.head?_reverse, List.getLast?_cons_of_ne_nil (ne_nil_of_readValue read)]
    exact last.last
  have trimmed : Text.trim (name ++ ([' ', '=', ' '] ++ text)) =
      (name ++ [' ']).dropWhile Text.isBlank ++ '=' :: ' ' :: text := by
    have shape := Text.trim_append_cons (c := '=') rfl (name ++ [' ']) (' ' :: text)
    rw [tail, List.append_assoc] at shape
    exact shape
  have new' : '=' ∉ (name ++ [' ']).dropWhile Text.isBlank := by
    intro mem
    rcases List.mem_append.1 ((List.dropWhile_suffix _).subset mem) with mem | mem
    · exact new mem
    · exact absurd mem (by decide : '=' ∉ [' '])
  have name' : Text.trim ((name ++ [' ']).dropWhile Text.isBlank) = name := by
    rw [Text.trim_dropWhile, Text.trim_concat rfl, first.trim_eq]
  have value' : readValue name (' ' :: text) = some v :=
    (readValue_congr name (Text.trim_cons rfl text)).trans read
  unfold readLine
  dsimp only
  rw [kept, trimmed, if_neg (by simp), Text.splitFirst_append new']
  dsimp only
  rw [name', value']

/-- **The line of a setting that was read is read as that setting.** -/
theorem legible_of_readLine {line : List Char} {e : String × SettingValue} (whole : '\n' ∉ line)
    (read : readLine line = .ok (some e)) : Legible e := by
  unfold readLine at read
  dsimp only at read
  split at read
  · cases read
  split at read
  · cases read
  rename_i before value parts
  split at read
  · rename_i v known
    cases read
    have written := rewritten_of_readValue known
    have split := Text.splitFirst_eq_some parts
    have clean := (Text.uncommented_stripComment false line).trim
    rw [split, Text.uncommented_append, Text.uncommented_cons] at clean
    have inside {c : Char} (mem : c ∈ before ++ '=' :: value) : c ∈ line :=
      Text.mem_of_mem_stripComment (Text.mem_of_mem_trim (split ▸ mem))
    constructor
    · rw [toList_lineOf]
      refine readLine_append (Text.trimmed_trim before) written.trimmed ?_ clean.1.trim ?_
        written.readValue_text
      · exact mt Text.mem_of_mem_trim (Text.not_mem_of_splitFirst parts)
      · rw [Text.quotedAfter_trim]
        exact written.uncommented clean.2.2
    · -- A line break in the new line would be one in the old line.
      rw [toList_lineOf, List.mem_append, List.mem_append, not_or, not_or]
      refine ⟨fun mem => whole (inside ?_), by decide, fun mem => whole (inside ?_)⟩
      · exact List.mem_append_left _ (Text.mem_of_mem_trim mem)
      · exact List.mem_append_right _ (List.mem_cons_of_mem _ (written.mem_of_mem_text rfl mem))
    · have nonempty := ne_nil_of_readValue written.readValue_text
      rw [toList_lineOf,
        List.getLast?_append_of_ne_nil _ (List.append_ne_nil_of_right_ne_nil _ nonempty),
        List.getLast?_append_of_ne_nil _ nonempty]
      exact fun last => absurd (written.trimmed.last '\r' last) (by decide)
  · cases read

end Settings
end MipShrink
