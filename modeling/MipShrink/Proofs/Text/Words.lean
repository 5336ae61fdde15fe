/-
# Lines and words that are written

A text is cut at line feeds and a line at blanks.  What was put together from lines and words comes
apart again: lines in which nothing breaks them are the lines of their text
(`Text.linesOf_unlines`), and words with blanks between them are the words of their line.  Both
follow from one equation for the pieces of a text around a cut (`Text.pieces_append_cons`).

`Text.DataLine` describes a line that begins with a blank and holds certain words.  Numbers are
words (`Text.isWord_text`).
-/

import MipShrink.Mps.Reader

namespace MipShrink
namespace Text

variable {cut : Char → Bool}

/-- **Pieces around a cut.** -/
theorem pieces_append_cons {c : Char} (here : cut c = true) (x y : List Char) :
    pieces cut (x ++ c :: y) = pieces cut x ++ pieces cut y := by
  induction x with
  | nil =>
    rw [List.nil_append, pieces, pieces, if_pos here]
    rfl
  | cons a x ih =>
    rw [List.cons_append, pieces, pieces, ih]
    split
    · rfl
    · cases parts : pieces cut x with
      | nil => exact absurd parts (pieces_ne_nil cut x)
      | cons part parts => rfl

/-- A text that is not cut. -/
theorem pieces_eq_singleton {x : List Char} (whole : ∀ c ∈ x, cut c = false) :
    pieces cut x = [x] := by
  induction x with
  | nil => rfl
  | cons c x ih =>
    obtain ⟨first, rest⟩ := List.forall_mem_cons.1 whole
    rw [pieces, if_neg (by rw [first]; decide), ih rest]

/-- In a piece there is nothing to cut at. -/
theorem not_of_mem_pieces {t part : List Char} {c : Char} (mem : part ∈ pieces cut t)
    (inside : c ∈ part) : cut c = false := by
  induction t generalizing part with
  | nil =>
    rw [pieces] at mem
    rw [List.mem_singleton.1 mem] at inside
    exact absurd inside List.not_mem_nil
  | cons x t ih =>
    rw [pieces] at mem
    split at mem
    · rcases List.mem_cons.1 mem with rfl | mem
      · exact absurd inside List.not_mem_nil
      · exact ih mem inside
    · rename_i other
      split at mem
      · rw [List.mem_singleton.1 mem] at inside
        rw [List.mem_singleton.1 inside]
        exact Bool.not_eq_true _ ▸ other
      · rename_i first rest parts
        rcases List.mem_cons.1 mem with rfl | mem
        · rcases List.mem_cons.1 inside with rfl | inside
          · exact Bool.not_eq_true _ ▸ other
          · exact ih (parts ▸ List.mem_cons_self) inside
        · exact ih (parts ▸ List.mem_cons_of_mem _ mem) inside

/-! ### Lines -/

/-- **There is no line feed in a line.** -/
theorem not_mem_of_mem_linesOf {s : String} {line : List Char} (mem : line ∈ linesOf s) :
    '\n' ∉ line := by
  have whole {part : List Char} (mem : part ∈ pieces (· == '\n') s.toList) : '\n' ∉ part :=
    fun inside => absurd (not_of_mem_pieces mem inside) (by decide)
  unfold linesOf lines at mem
  dsimp only at mem
  rcases List.mem_append.1 mem with mem | mem
  · obtain ⟨part, inside, rfl⟩ := List.mem_map.1 mem
    unfold dropReturn
    split
    · exact fun mem => whole (List.dropLast_subset _ inside) (List.dropLast_subset _ mem)
    · exact whole (List.dropLast_subset _ inside)
  · have mem := Option.mem_toList.1 (List.mem_filter.1 mem).1
    exact whole (List.mem_of_mem_getLast? mem)

/-- No line ends in the string. -/
def Unbroken (s : String) : Prop :=
  ∀ c ∈ s.toList, c ≠ '\n' ∧ c ≠ '\r'

-- By name, since the search could come upon a test of all the characters there are.
instance (s : String) : Decidable (Unbroken s) :=
  List.decidableBAll (fun c => c ≠ '\n' ∧ c ≠ '\r') s.toList

/-- Two texts without line breaks make up one without. -/
theorem Unbroken.append {s t : String} (h : Unbroken s) (h' : Unbroken t) :
    Unbroken (s ++ t) := by
  intro c mem
  rw [String.toList_append] at mem
  exact (List.mem_append.1 mem).elim (h c) (h' c)

/-- A line without a carriage return at its end is left as it is. -/
theorem dropReturn_eq_self {s : String} (h : s.toList.getLast? ≠ some '\r') :
    dropReturn s.toList = s.toList :=
  if_neg h

/-- Lines in which there is no line feed, and which do not end with a carriage return, are the
lines of their text. -/
theorem linesOf_unlines_of_not_mem {ls : List String} (whole : ∀ l ∈ ls, '\n' ∉ l.toList)
    (ends : ∀ l ∈ ls, l.toList.getLast? ≠ some '\r') :
    linesOf (unlines ls) = ls.map String.toList := by
  have parts : pieces (· == '\n') (unlines ls).toList = ls.map String.toList ++ [[]] := by
    unfold unlines
    rw [String.toList_join]
    clear ends
    induction ls with
    | nil => rfl
    | cons l ls ih =>
      obtain ⟨first, rest⟩ := List.forall_mem_cons.1 whole
      have line : ∀ c ∈ l.toList, (c == '\n') = false := fun c mem =>
        beq_eq_false_iff_ne.2 fun same => first (same ▸ mem)
      have broken : (l ++ "\n").toList = l.toList ++ ['\n'] := String.toList_append
      rw [List.map_cons, List.flatMap_cons, broken, List.append_assoc, List.singleton_append,
        pieces_append_cons rfl, pieces_eq_singleton line, ih rest]
      rfl
  have kept : (ls.map String.toList).map dropReturn = ls.map String.toList := by
    rw [List.map_map]
    exact List.map_congr_left fun l mem => dropReturn_eq_self (ends l mem)
  unfold linesOf lines
  rw [parts]
  dsimp only
  rw [List.dropLast_concat, List.getLast?_concat, kept]
  exact List.append_nil _

/-- **Lines that are written are the lines of their text.** -/
theorem linesOf_unlines {ls : List String} (whole : ∀ l ∈ ls, Unbroken l) :
    linesOf (unlines ls) = ls.map String.toList :=
  linesOf_unlines_of_not_mem (fun l mem feed => (whole l mem _ feed).1 rfl)
    fun l mem last => (whole l mem _ (List.mem_of_getLast? last)).2 rfl

/-! ### Words -/

/-- There is something in the string, and no blank. -/
def IsWord (s : String) : Prop :=
  s ≠ "" ∧ ∀ c ∈ s.toList, isBlank c = false

instance (s : String) : Decidable (IsWord s) :=
  have : Decidable (∀ c ∈ s.toList, isBlank c = false) :=
    List.decidableBAll (fun c => isBlank c = false) s.toList
  inferInstanceAs (Decidable (s ≠ "" ∧ ∀ c ∈ s.toList, isBlank c = false))

/-- Line breaks are blank. -/
theorem unbroken_of_not_blank {s : String} (h : ∀ c ∈ s.toList, isBlank c = false) :
    Unbroken s := by
  intro c mem
  refine ⟨?_, ?_⟩ <;>
    · rintro rfl
      exact absurd (h _ mem) (by decide)

/-- Nothing breaks a word. -/
theorem IsWord.unbroken {s : String} (h : IsWord s) : Unbroken s :=
  unbroken_of_not_blank h.2

/-- Two words without a blank between them make up a word. -/
theorem IsWord.append {s t : String} (h : IsWord s) (h' : IsWord t) : IsWord (s ++ t) := by
  refine ⟨fun empty => h.1 ?_, fun c mem => ?_⟩
  · rw [← String.toList_eq_nil_iff, String.toList_append, List.append_eq_nil_iff] at empty
    exact String.toList_eq_nil_iff.1 empty.1
  · rw [String.toList_append] at mem
    exact (List.mem_append.1 mem).elim (h.2 c) (h'.2 c)

/-- **What a line is cut into are words.** -/
theorem isWord_of_mem_wordsOf {line : List Char} {w : String} (mem : w ∈ wordsOf line) :
    IsWord w := by
  obtain ⟨part, cut, rfl⟩ := List.mem_map.1 mem
  obtain ⟨cut, used⟩ := List.mem_filter.1 cut
  constructor
  · intro empty
    have nothing : part = [] := by
      rw [← String.toList_ofList (l := part), empty]
      rfl
    rw [nothing] at used
    exact absurd used (by decide)
  · rw [String.toList_ofList]
    exact fun c inside => not_of_mem_pieces cut inside

/-- A blank parts the words before it from those behind it. -/
theorem wordsOf_append_cons {c : Char} (blank : isBlank c = true) (x y : List Char) :
    wordsOf (x ++ c :: y) = wordsOf x ++ wordsOf y := by
  unfold wordsOf words
  rw [pieces_append_cons blank, List.filter_append, List.map_append]

/-- A word is its only word. -/
theorem wordsOf_word {s : String} (h : IsWord s) : wordsOf s.toList = [s] := by
  have nonempty : s.toList.isEmpty = false := by
    rw [List.isEmpty_eq_false_iff, ne_eq, String.toList_eq_nil_iff]
    exact h.1
  unfold wordsOf words
  rw [pieces_eq_singleton h.2, List.filter_cons, nonempty]
  exact congrArg ([·]) String.ofList_toList

/-- Words at both sides of a string that ends with a blank. -/
theorem wordsOf_append {s : String} (blank : s.toList.getLast?.any isBlank = true) (t : String) :
    wordsOf (s ++ t).toList = wordsOf s.toList ++ wordsOf t.toList := by
  obtain ⟨c, last, isBlank⟩ := (Option.any_eq_true _ _).1 blank
  obtain ⟨start, ends⟩ := List.getLast?_eq_some_iff.1 last
  have single : wordsOf s.toList = wordsOf start := by
    rw [ends, wordsOf_append_cons isBlank]
    exact List.append_nil _
  rw [String.toList_append, single, ends, List.append_assoc]
  exact wordsOf_append_cons isBlank start t.toList

/-- A line that begins with a blank and holds certain words. -/
structure DataLine (l : String) (ws : List String) : Prop where
  indented : l.toList.head?.any isBlank = true
  words : wordsOf l.toList = ws
  unbroken : Unbroken l

namespace DataLine

variable {l : String} {ws : List String}

/-- The line with another word at its end, which follows a blank. -/
theorem word (h : DataLine l ws) (blank : l.toList.getLast?.any isBlank = true) {w : String}
    (word : IsWord w) : DataLine (l ++ w) (ws ++ [w]) where
  indented := by
    obtain ⟨c, first, isBlank⟩ := (Option.any_eq_true _ _).1 h.indented
    obtain ⟨rest, begins⟩ := List.head?_eq_some_iff.1 first
    rw [String.toList_append, begins]
    exact isBlank
  words := by rw [wordsOf_append blank, h.words, wordsOf_word word]
  unbroken := h.unbroken.append word.unbroken

/-- The line with a blank and another word at its end. -/
theorem next (h : DataLine l ws) {w : String} (word : IsWord w) :
    DataLine (l ++ " " ++ w) (ws ++ [w]) := by
  have blank : (l ++ " ").toList = l.toList ++ [' '] := String.toList_append
  refine DataLine.word ⟨?_, ?_, h.unbroken.append (by decide)⟩ ?_ word
  · obtain ⟨c, first, isBlank⟩ := (Option.any_eq_true _ _).1 h.indented
    obtain ⟨rest, begins⟩ := List.head?_eq_some_iff.1 first
    rw [blank, begins]
    exact isBlank
  · rw [blank, wordsOf_append_cons rfl, h.words]
    exact List.append_nil _
  · rw [blank, List.getLast?_concat]
    rfl

end DataLine

/-! ### Numbers -/

/-- Digits are not blank. -/
theorem not_isBlank_of_isDigit {c : Char} (h : c.isDigit = true) : isBlank c = false := by
  obtain ⟨low, high⟩ := Bool.and_eq_true_iff.1 h
  have low : 48 ≤ c.toNat := of_decide_eq_true low
  have high : c.toNat ≤ 57 := of_decide_eq_true high
  unfold isBlank blankRanges
  simp only [List.any_cons, List.any_nil, Bool.or_false, Bool.or_eq_false_iff,
    Bool.and_eq_false_iff, decide_eq_false_iff_not]
  omega

/-- The digits of a natural number are a word. -/
theorem isWord_digitsOf (n : Nat) : IsWord (String.ofList (Layout.digitsOf n)) := by
  constructor
  · rw [ne_eq, ← String.toList_eq_nil_iff, String.toList_ofList]
    exact Nat.toDigits_ne_nil
  · intro c mem
    rw [String.toList_ofList] at mem
    exact not_isBlank_of_isDigit (Nat.isDigit_of_mem_toDigits (by decide) (by decide) mem)

/-- The text of an integer is a word. -/
theorem isWord_ofInt (k : Int) : IsWord (String.ofList (Layout.ofInt k)) := by
  unfold Layout.ofInt
  split
  · rw [String.ofList_cons]
    exact IsWord.append (by decide) (isWord_digitsOf _)
  · exact isWord_digitsOf _

/-- **Numbers are written as words.** -/
theorem isWord_text (a : Rat) : IsWord (Scalar.text a) := by
  show IsWord (Rational.text a)
  unfold Rational.text
  dsimp only
  split
  · exact isWord_ofInt _
  · exact ((isWord_ofInt _).append (by decide)).append (isWord_digitsOf _)

end Text
end MipShrink
