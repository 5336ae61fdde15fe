/-
# Trimmed texts and comments

`Text.trim` removes the blanks at both ends, and `Text.stripComment` what follows a `#` outside of
double quotes.  A trimmed text is left as it is, and what is trimmed stands between blanks in the
text (`Text.exists_trim`).

Whether a part of a line begins a comment depends on the quotes before it alone:
`Text.quotedAfter` is the state of the scan behind a part, and a line is free of comments when each
of its parts is in the state that it starts in (`Text.uncommented_append`).
-/

import MipShrink.Text.Lines

namespace MipShrink
namespace Text

/-! ### Trimming -/

/-- All characters are blank. -/
def Blank (t : List Char) : Prop :=
  ∀ c ∈ t, isBlank c = true

/-- Neither end is blank. -/
structure Trimmed (t : List Char) : Prop where
  first : ∀ c ∈ t.head?, isBlank c = false
  last : ∀ c ∈ t.getLast?, isBlank c = false

/-- A text without blanks is trimmed. -/
theorem trimmed_of_not_blank {t : List Char} (h : ∀ c ∈ t, isBlank c = false) : Trimmed t where
  first c mem := h c (List.mem_of_mem_head? mem)
  last c mem := h c (List.mem_of_mem_getLast? mem)

/-- Nothing is dropped if the text does not begin with a blank. -/
theorem dropWhile_eq_self {t : List Char} (h : ∀ c ∈ t.head?, isBlank c = false) :
    t.dropWhile isBlank = t := by
  cases t with
  | nil => rfl
  | cons c t =>
    rw [List.dropWhile_cons, h c rfl]
    rfl

/-- When the blanks are dropped, the text does not begin with one. -/
theorem not_blank_head?_dropWhile (t : List Char) :
    ∀ c ∈ (t.dropWhile isBlank).head?, isBlank c = false := by
  intro c mem
  have first := List.head?_dropWhile_not isBlank t
  rw [mem] at first
  exact first

/-- A trimmed text is left as it is. -/
theorem Trimmed.trim_eq {t : List Char} (h : Trimmed t) : trim t = t := by
  have last : ∀ c ∈ t.reverse.head?, isBlank c = false := by
    rw [List.head?_reverse]
    exact h.last
  unfold trim trimWhile
  rw [dropWhile_eq_self h.first, dropWhile_eq_self last, List.reverse_reverse]

/-- **The trimmed text stands between blanks.** -/
theorem exists_trim (t : List Char) : ∃ a b, Blank a ∧ Blank b ∧ t = a ++ trim t ++ b := by
  refine ⟨t.takeWhile isBlank, ((t.dropWhile isBlank).reverse.takeWhile isBlank).reverse,
    List.all_eq_true.1 List.all_takeWhile,
    fun c mem => List.all_eq_true.1 List.all_takeWhile c (List.mem_reverse.1 mem), ?_⟩
  unfold trim trimWhile
  rw [List.append_assoc, ← List.reverse_append, List.takeWhile_append_dropWhile,
    List.reverse_reverse, List.takeWhile_append_dropWhile]

/-- Trimming adds nothing. -/
theorem mem_of_mem_trim {t : List Char} {c : Char} (mem : c ∈ trim t) : c ∈ t := by
  obtain ⟨a, b, -, -, parts⟩ := exists_trim t
  rw [parts]
  exact List.mem_append_left b (List.mem_append_right a mem)

/-- **What is trimmed is trimmed.** -/
theorem trimmed_trim (t : List Char) : Trimmed (trim t) := by
  unfold trim trimWhile
  constructor
  · intro c mem
    have start :=
      List.takeWhile_append_dropWhile (p := isBlank) (l := (t.dropWhile isBlank).reverse)
    have start := congrArg List.reverse start
    rw [List.reverse_append, List.reverse_reverse] at start
    refine not_blank_head?_dropWhile t c ?_
    rw [← start, List.head?_append, mem]
    rfl
  · rw [List.getLast?_reverse]
    exact not_blank_head?_dropWhile _

/-- A blank in front is trimmed. -/
theorem trim_cons {c : Char} (blank : isBlank c = true) (t : List Char) :
    trim (c :: t) = trim t := by
  unfold trim trimWhile
  rw [List.dropWhile_cons, if_pos blank]

/-- A blank at the end is trimmed. -/
theorem trim_concat {c : Char} (blank : isBlank c = true) (t : List Char) :
    trim (t ++ [c]) = trim t := by
  unfold trim trimWhile
  rw [List.dropWhile_append]
  split
  · rename_i empty
    rw [List.isEmpty_iff.1 empty, List.dropWhile_cons, if_pos blank]
    rfl
  · rw [List.reverse_append, List.reverse_singleton, List.singleton_append, List.dropWhile_cons,
      if_pos blank]

/-- Blanks in front do not matter for trimming. -/
theorem trim_dropWhile (t : List Char) : trim (t.dropWhile isBlank) = trim t := by
  unfold trim trimWhile
  rw [dropWhile_eq_self (not_blank_head?_dropWhile t)]

/-- Blanks at the end are trimmed. -/
theorem trim_append_blank {t w : List Char} (blank : Blank w) : trim (t ++ w) = trim t := by
  induction w generalizing t with
  | nil => rw [List.append_nil]
  | cons c w ih =>
    obtain ⟨first, rest⟩ := List.forall_mem_cons.1 blank
    rw [List.append_cons, ih rest, trim_concat first]

/-- Blanks at the end do not matter for trimming. -/
theorem trim_reverse_dropWhile (t : List Char) :
    trim (t.reverse.dropWhile isBlank).reverse = trim t := by
  have ends :
      t = (t.reverse.dropWhile isBlank).reverse ++ (t.reverse.takeWhile isBlank).reverse := by
    rw [← List.reverse_append, List.takeWhile_append_dropWhile, List.reverse_reverse]
  have blank : Blank (t.reverse.takeWhile isBlank).reverse := fun c mem =>
    List.all_eq_true.1 List.all_takeWhile c (List.mem_reverse.1 mem)
  conv => rhs; rw [ends]
  exact (trim_append_blank blank).symm

/-- Around a character that is not blank the two sides are trimmed by themselves. -/
theorem trim_append_cons {c : Char} (solid : isBlank c = false) (a b : List Char) :
    trim (a ++ c :: b) = a.dropWhile isBlank ++ c :: (b.reverse.dropWhile isBlank).reverse := by
  have keep (x y : List Char) :
      (x ++ c :: y).dropWhile isBlank = x.dropWhile isBlank ++ c :: y := by
    rw [List.dropWhile_append]
    split
    · rename_i empty
      rw [List.isEmpty_iff.1 empty, List.dropWhile_cons, if_neg (by rw [solid]; decide)]
      rfl
    · rfl
  unfold trim trimWhile
  rw [keep, List.reverse_append, List.reverse_cons, List.append_assoc, List.singleton_append, keep,
    List.reverse_append, List.reverse_cons, List.reverse_reverse, List.append_assoc,
    List.singleton_append]

/-! ### The first mark -/

/-- Before the first mark there is none. -/
theorem not_mem_of_splitFirst {c : Char} {t a b : List Char} (h : splitFirst c t = some (a, b)) :
    c ∉ a := by
  induction t generalizing a with
  | nil => cases h
  | cons x t ih =>
    unfold splitFirst at h
    split at h
    · cases h
      exact List.not_mem_nil
    · rename_i other
      obtain ⟨⟨a', b'⟩, rest, same⟩ := Option.map_eq_some_iff.1 h
      cases same
      exact fun mem => (List.mem_cons.1 mem).elim (fun same => other same.symm) (ih rest)

/-- **A text is split at the first mark.** -/
theorem splitFirst_append {c : Char} {a : List Char} (new : c ∉ a) (b : List Char) :
    splitFirst c (a ++ c :: b) = some (a, b) := by
  induction a with
  | nil => exact if_pos rfl
  | cons x a ih =>
    obtain ⟨other, rest⟩ := not_or.1 (mt List.mem_cons.2 new)
    rw [List.cons_append, splitFirst, if_neg (Ne.symm other), ih rest]
    rfl

/-- A text is not split if the mark is not in it. -/
theorem splitFirst_eq_none_iff {c : Char} {t : List Char} : splitFirst c t = none ↔ c ∉ t := by
  induction t with
  | nil => exact ⟨fun _ => List.not_mem_nil, fun _ => rfl⟩
  | cons x t ih =>
    rw [splitFirst, List.mem_cons, not_or]
    split
    · rename_i here
      exact iff_of_false (Option.some_ne_none _) fun h => h.1 here.symm
    · rename_i other
      rw [Option.map_eq_none_iff, ih]
      exact ⟨fun rest => ⟨Ne.symm other, rest⟩, And.right⟩

/-! ### Comments -/

/-- Whether a scan is inside of double quotes behind a text. -/
def quotedAfter (quoted : Bool) (t : List Char) : Bool :=
  t.foldl (fun q c => if c = '"' then !q else q) quoted

/-- No comment begins in the text. -/
def Uncommented (quoted : Bool) (t : List Char) : Prop :=
  stripComment quoted t = t

/-- No comment begins in a text if none begins with its first character and none in the rest. -/
theorem uncommented_cons {quoted : Bool} {c : Char} {t : List Char} :
    Uncommented quoted (c :: t) ↔ ¬(c = '#' ∧ quoted = false) ∧
      Uncommented (if c = '"' then !quoted else quoted) t := by
  unfold Uncommented
  rw [stripComment]
  split
  · rename_i comment
    exact iff_of_false (List.cons_ne_nil c t).symm fun h => h.1 comment
  · rename_i other
    exact ⟨fun h => ⟨other, (List.cons.inj h).2⟩, fun h => congrArg (c :: ·) h.2⟩

/-- **Comments begin in one part or in another.** -/
theorem uncommented_append {quoted : Bool} {a b : List Char} : Uncommented quoted (a ++ b) ↔
    Uncommented quoted a ∧ Uncommented (quotedAfter quoted a) b := by
  induction a generalizing quoted with
  | nil => exact ⟨fun h => ⟨rfl, h⟩, fun h => h.2⟩
  | cons c a ih =>
    rw [List.cons_append, uncommented_cons, uncommented_cons, ih, and_assoc]
    rfl

/-- A stripped text has no comment. -/
theorem uncommented_stripComment (quoted : Bool) (t : List Char) :
    Uncommented quoted (stripComment quoted t) := by
  induction t generalizing quoted with
  | nil => rfl
  | cons c t ih =>
    rw [stripComment]
    split
    · rfl
    · rename_i other
      exact uncommented_cons.2 ⟨other, ih _⟩

/-- Taking comments away adds nothing. -/
theorem mem_of_mem_stripComment {quoted : Bool} {t : List Char} {c : Char}
    (mem : c ∈ stripComment quoted t) : c ∈ t := by
  induction t generalizing quoted with
  | nil => exact mem
  | cons x t ih =>
    rw [stripComment] at mem
    split at mem
    · exact absurd mem List.not_mem_nil
    · exact (List.mem_cons.1 mem).elim (fun same => same ▸ List.mem_cons_self)
        fun later => List.mem_cons_of_mem x (ih later)

/-- Without a mark there is no comment. -/
theorem uncommented_of_not_mem {t : List Char} (h : '#' ∉ t) (quoted : Bool) :
    Uncommented quoted t := by
  induction t generalizing quoted with
  | nil => rfl
  | cons c t ih =>
    obtain ⟨other, rest⟩ := not_or.1 (mt List.mem_cons.2 h)
    exact uncommented_cons.2 ⟨fun comment => other comment.1.symm, ih rest _⟩

/-- Without a quote nothing changes between quoted and not. -/
theorem quotedAfter_of_not_mem {t : List Char} (h : '"' ∉ t) (quoted : Bool) :
    quotedAfter quoted t = quoted := by
  induction t with
  | nil => rfl
  | cons c t ih =>
    obtain ⟨other, rest⟩ := not_or.1 (mt List.mem_cons.2 h)
    show quotedAfter (if c = '"' then !quoted else quoted) t = quoted
    rw [if_neg (Ne.symm other), ih rest]

/-- Quotes count along the text. -/
theorem quotedAfter_append (quoted : Bool) (a b : List Char) :
    quotedAfter quoted (a ++ b) = quotedAfter (quotedAfter quoted a) b :=
  List.foldl_append

/-- In a blank text there is no other character. -/
theorem Blank.not_mem {t : List Char} (blank : Blank t) {c : Char} (solid : isBlank c = false) :
    c ∉ t :=
  fun mem => absurd (blank c mem) (by rw [solid]; decide)

/-- Trimming leaves the scan for comments alone. -/
theorem quotedAfter_trim (quoted : Bool) (t : List Char) :
    quotedAfter quoted (trim t) = quotedAfter quoted t := by
  obtain ⟨a, b, left, right, parts⟩ := exists_trim t
  conv => rhs; rw [parts]
  rw [quotedAfter_append, quotedAfter_append, quotedAfter_of_not_mem (left.not_mem rfl),
    quotedAfter_of_not_mem (right.not_mem rfl)]

/-- The trimmed text has no comment if the text has none. -/
theorem Uncommented.trim {quoted : Bool} {t : List Char} (h : Uncommented quoted t) :
    Uncommented quoted (trim t) := by
  obtain ⟨a, b, left, right, parts⟩ := exists_trim t
  rw [parts, uncommented_append, uncommented_append, quotedAfter_of_not_mem (left.not_mem rfl)] at h
  exact h.1.2

end Text
end MipShrink
