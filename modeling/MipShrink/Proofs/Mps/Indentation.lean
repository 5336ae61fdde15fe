/-
# Indentation of data

In a file with first-column names the lines of data begin at the left edge.  Whether a line is data
or the header of a section shows there in its first word alone, and an indented line is data in any
case.  So lines of data can lose the blanks in front of them (`Text.unindent`) unless their first
word is the name of a section: the same program is read (`Mps.ofText_unindent`).

A line with such a word becomes a header.  This is what happens to the lines of a vector that is
called `RHS`, as it mostly is: what stands behind the word is passed over, and no error tells it
(`Mps.ofText_unindent_lost`).
-/

import MipShrink.Proofs.Mps.Reading
import MipShrink.Proofs.Text.Trimming

namespace MipShrink

namespace Text

/-! ### Texts and their lines -/

/-- **The text without the blanks in front of the chosen lines**, which are counted from zero. -/
def unindent (chosen : Nat → Bool) (text : String) : String :=
  String.ofList (['\n'].intercalate ((pieces (· == '\n') text.toList).mapIdx fun i part =>
    if chosen i then part.dropWhile isBlank else part))

/-- Pieces with a cut between them are cut there again. -/
theorem pieces_intercalate {cut : Char → Bool} {c : Char} (here : cut c = true)
    {parts : List (List Char)} (nonempty : parts ≠ [])
    (whole : ∀ part ∈ parts, ∀ d ∈ part, cut d = false) :
    pieces cut ([c].intercalate parts) = parts := by
  induction parts with
  | nil => exact absurd rfl nonempty
  | cons part parts ih =>
    obtain ⟨first, others⟩ := List.forall_mem_cons.1 whole
    cases parts with
    | nil =>
      show pieces cut (part ++ []) = [part]
      rw [List.append_nil, pieces_eq_singleton first]
    | cons next rest =>
      rw [List.intercalate_cons_cons, List.append_assoc, List.singleton_append,
        pieces_append_cons here, pieces_eq_singleton first, ih (List.cons_ne_nil _ _) others]
      rfl

/-- A carriage return at the end and the blanks in front can be removed in either order. -/
theorem dropReturn_dropWhile (t : List Char) :
    dropReturn (t.dropWhile isBlank) = (dropReturn t).dropWhile isBlank := by
  by_cases ends : t.getLast? = some '\r'
  · obtain ⟨s, rfl⟩ := List.getLast?_eq_some_iff.1 ends
    have kept : dropReturn (s ++ ['\r']) = s := by
      rw [dropReturn, if_pos ends, List.dropLast_concat]
    rw [kept, List.dropWhile_append]
    split
    · rename_i blank
      rw [List.isEmpty_iff.1 blank]
      rfl
    · rw [dropReturn, if_pos List.getLast?_concat, List.dropLast_concat]
  · rw [dropReturn, dropReturn, if_neg ends, if_neg]
    intro last
    obtain ⟨before, parts⟩ := List.dropWhile_suffix (l := t) isBlank
    refine ends ?_
    rw [← parts, List.getLast?_append, last]
    rfl

/-- Between the line breaks nothing else has changed. -/
theorem pieces_unindent (chosen : Nat → Bool) (text : String) :
    pieces (· == '\n') (unindent chosen text).toList = (pieces (· == '\n') text.toList).mapIdx
      fun i part => if chosen i then part.dropWhile isBlank else part := by
  rw [unindent, String.toList_ofList]
  refine pieces_intercalate rfl (mt List.mapIdx_eq_nil_iff.1 (pieces_ne_nil _ _)) ?_
  intro part mem c inside
  obtain ⟨i, place, rfl⟩ := List.mem_mapIdx.1 mem
  have clean (c : Char) := @not_of_mem_pieces (· == '\n') _ _ c (List.getElem_mem place)
  refine clean c ?_
  split at inside
  · exact (List.dropWhile_suffix _).subset inside
  · exact inside

/-- **The lines of the text** are those it had, and the chosen ones have lost their blanks.  A line
of blanks must not be chosen: it would be gone at the end of a text. -/
theorem linesOf_unindent (chosen : Nat → Bool) (text : String)
    (used : ∀ i line, chosen i = true → (linesOf text)[i]? = some line →
      line.dropWhile isBlank ≠ []) :
    linesOf (unindent chosen text) = (linesOf text).mapIdx fun i line =>
      if chosen i then line.dropWhile isBlank else line := by
  obtain ⟨init, last, parts⟩ : ∃ init last, pieces (· == '\n') text.toList = init ++ [last] :=
    ⟨_, _, (List.dropLast_concat_getLast (pieces_ne_nil (· == '\n') text.toList)).symm⟩
  have old : linesOf text = init.map dropReturn ++ [last].filter fun part => !part.isEmpty := by
    unfold linesOf lines
    rw [parts]
    dsimp only
    rw [List.dropLast_concat, List.getLast?_concat]
    rfl
  have new : pieces (· == '\n') (unindent chosen text).toList =
      init.mapIdx (fun i part => if chosen i then part.dropWhile isBlank else part) ++
        [if chosen init.length then last.dropWhile isBlank else last] := by
    rw [pieces_unindent, parts, List.mapIdx_concat]
  rw [linesOf, lines, new, old, List.dropLast_concat, List.getLast?_concat, List.mapIdx_append,
    List.length_map]
  refine congr (congrArg HAppend.hAppend ?_) ?_
  · refine List.ext_getElem? fun i => ?_
    rw [List.getElem?_map, List.getElem?_mapIdx, List.getElem?_mapIdx, List.getElem?_map,
      Option.map_map, Option.map_map]
    refine congrArg (Option.map · init[i]?) (funext fun part => ?_)
    show dropReturn (if chosen i then _ else _) = if chosen i then _ else _
    split
    · exact dropReturn_dropWhile part
    · rfl
  · -- Behind the last line break there is a line only if the piece is not empty.
    cases filled : last.isEmpty with
    | true =>
      rw [List.isEmpty_iff.1 filled]
      show List.filter _ [if chosen init.length then [] else []] = []
      rw [ite_self]
      rfl
    | false =>
      have place : (linesOf text)[init.length]? = some last := by
        rw [old, List.filter_cons, filled,
          List.getElem?_append_right (Nat.le_of_eq (List.length_map dropReturn)), List.length_map,
          Nat.sub_self]
        rfl
      have solid :
          (if chosen init.length then last.dropWhile isBlank else last).isEmpty = false := by
        split
        · rename_i here
          exact List.isEmpty_eq_false_iff.2 (used _ last here place)
        · exact filled
      show List.filter _ [_] = List.mapIdx _ (List.filter _ [last])
      rw [List.filter_cons, List.filter_cons, solid, filled]
      show [_] = List.mapIdx _ [last]
      rw [List.mapIdx_cons, List.mapIdx_nil, Nat.zero_add]

/-- One line of the text has lost its blanks. -/
theorem linesOf_unindent_one {text : String} {i : Nat} {line : List Char}
    (place : (linesOf text)[i]? = some line) (used : line.dropWhile isBlank ≠ []) :
    linesOf (unindent (· == i) text) = (linesOf text).set i (line.dropWhile isBlank) := by
  rw [linesOf_unindent (· == i) text fun j other here found => ?_]
  · refine List.ext_getElem? fun j => ?_
    rw [List.getElem?_mapIdx, List.getElem?_set]
    by_cases here : i = j
    · subst here
      rw [place, if_pos rfl, if_pos (List.getElem?_eq_some_iff.1 place).1, Option.map_some,
        beq_self_eq_true, if_pos rfl]
    · have other : (j == i) = false := beq_eq_false_iff_ne.2 (Ne.symm here)
      rw [if_neg here, other]
      exact Option.map_id' ..
  · obtain rfl : j = i := eq_of_beq here
    obtain rfl := Option.some.inj (place.symm.trans found)
    exact used

/-- The words of a line stay when the blanks in front go. -/
theorem wordsOf_dropWhile (line : List Char) :
    wordsOf (line.dropWhile isBlank) = wordsOf line := by
  induction line with
  | nil => rfl
  | cons c line ih =>
    rw [List.dropWhile_cons]
    split
    · rename_i blank
      rw [ih]
      exact (wordsOf_append_cons blank [] line).symm
    · rfl

/-- A line with words is not blank throughout. -/
theorem dropWhile_ne_nil_of_wordsOf {line : List Char} (used : wordsOf line ≠ []) :
    line.dropWhile isBlank ≠ [] := by
  intro empty
  rw [← wordsOf_dropWhile, empty] at used
  exact used rfl

end Text

namespace Mps

/-! ### Lines -/

/-- The first word of a line. -/
def firstWord (line : List Char) : String :=
  (Text.wordsOf line).headD ""

/-- A line of data: not blank, no comment, and not the header of a section. -/
structure IsData (line : List Char) : Prop where
  used : Text.wordsOf line ≠ []
  noComment : line.head? ≠ some '*'
  noHeader : line.head?.any Text.isBlank = true ∨ Section.ofWord? (firstWord line) = none

/-- What is left of the line begins a comment no more than the line. -/
structure CanShift (line : List Char) : Prop extends IsData line where
  noStar : (line.dropWhile Text.isBlank).head? ≠ some '*'

instance (line : List Char) : Decidable (IsData line) :=
  decidable_of_iff (Text.wordsOf line ≠ [] ∧ line.head? ≠ some '*' ∧
      (line.head?.any Text.isBlank = true ∨ Section.ofWord? (firstWord line) = none))
    ⟨fun h => ⟨h.1, h.2.1, h.2.2⟩, fun h => ⟨h.used, h.noComment, h.noHeader⟩⟩

instance (line : List Char) : Decidable (CanShift line) :=
  decidable_of_iff (IsData line ∧ (line.dropWhile Text.isBlank).head? ≠ some '*')
    ⟨fun h => ⟨h.1, h.2⟩, fun h => ⟨h.toIsData, h.noStar⟩⟩

namespace Reader

variable {α : Type} [Scalar α] {r r' : Reader α} {line : List Char}

/-- At the left edge a line is read by its first word. -/
theorem readLine_dropWhile_eq (h : CanShift line) :
    r.readLine (line.dropWhile Text.isBlank) = r.readWords false (Text.wordsOf line) := by
  have edge : (line.dropWhile Text.isBlank).head?.any Text.isBlank = false := by
    cases first : (line.dropWhile Text.isBlank).head? with
    | none => rfl
    | some c => exact Text.not_blank_head?_dropWhile line c first
  rw [readLine_eq (by rw [Text.wordsOf_dropWhile]; exact h.used) h.noStar, edge,
    Text.wordsOf_dropWhile]

/-- **A line of data is read alike at the left edge**, unless its first word opens a section. -/
theorem readLine_dropWhile (h : CanShift line) (other : Section.ofWord? (firstWord line) = none)
    (read : r.readLine line = .ok r') : r.readLine (line.dropWhile Text.isBlank) = .ok r' := by
  rw [readLine_eq h.used h.noComment] at read
  rw [readLine_dropWhile_eq h]
  cases indented : line.head?.any Text.isBlank with
  | false => rwa [indented] at read
  | true =>
    rw [indented, readWords, if_pos rfl] at read
    have inside : ¬(r.place = .name ∨ r.place = .ends) := by
      rintro (place | place) <;>
        · rw [readData, place] at read
          cases read
    rw [readWords, if_neg Bool.false_ne_true]
    dsimp only
    rw [show Section.ofWord? ((Text.wordsOf line).headD "") = none from other]
    dsimp only
    rwa [if_neg inside]

/-- **A line whose first word opens a section is its header** at the left edge. -/
theorem readLine_dropWhile_header (h : CanShift line) {s : Section}
    (opens : Section.ofWord? (firstWord line) = some s) :
    r.readLine (line.dropWhile Text.isBlank) = r.openSection s (Text.wordsOf line) := by
  rw [readLine_dropWhile_eq h, readWords, if_neg Bool.false_ne_true]
  dsimp only
  rw [show Section.ofWord? ((Text.wordsOf line).headD "") = some s from opens]

omit [Scalar α] in
/-- What follows the word of a header is used for the name and the sense only. -/
theorem openSection_eq {s : Section} (name : s ≠ .name) (sense : s ≠ .objSense)
    (words : List String) : r.openSection s words = .ok { r with place := s } := by
  cases s with
  | name => exact absurd rfl name
  | objSense => exact absurd rfl sense
  | rows | columns | rhs | ranges | bounds | ends => rfl

/-! ### Whole files -/

/-- **Lines that are read alike** can stand for each other while a file is read. -/
theorem readLines_mapIdx {path : String} {n : Nat} {lines : List (List Char)}
    {f : Nat → List Char → List Char}
    (alike : ∀ i line, lines[i]? = some line → ∀ r r' : Reader α, r.readLine line = .ok r' →
      r.readLine (f i line) = .ok r')
    (read : readLines path n (lines.map .ok) r = .ok r') :
    readLines path n ((lines.mapIdx f).map .ok) r = .ok r' := by
  induction lines generalizing n r f with
  | nil => exact read
  | cons line lines ih =>
    rw [List.map_cons, readLines] at read
    rw [List.mapIdx_cons, List.map_cons, readLines]
    split at read
    · cases read
    · rename_i r₁ first
      rw [alike 0 line rfl r r₁ first]
      exact ih (fun i line place => alike (i + 1) line place) read

/-- Of two lines that every reader takes for the same either can stand in a file. -/
theorem readLines_set {path : String} {n : Nat} {lines : List (List Char)} {a b : List Char}
    (same : ∀ r : Reader α, r.readLine a = r.readLine b) (i : Nat) :
    readLines path n ((lines.set i a).map .ok) r =
      readLines path n ((lines.set i b).map .ok) r := by
  induction lines generalizing n r i with
  | nil => rfl
  | cons line lines ih =>
    cases i with
    | zero =>
      rw [List.set_cons_zero, List.set_cons_zero, List.map_cons, List.map_cons, readLines,
        readLines, same]
    | succ i =>
      rw [List.set_cons_succ, List.set_cons_succ, List.map_cons, List.map_cons, readLines,
        readLines]
      split
      · rfl
      · exact ih i

end Reader

variable {α : Type} [Scalar α]

/-- **The indentation of data does not matter** unless the first word of a line opens a section.
The lines in which it does not, any number of them, can lose the blanks in front of them.  A line in
which it does is taken for the header of that section, and what follows the word is lost, but for
the name of the program and the sense of the objective. -/
theorem ofText_unindent {path text : String} {p : Problem α} (read : ofText path text = .ok p) :
    (∀ chosen : Nat → Bool,
      (∀ i line, chosen i = true → (Text.linesOf text)[i]? = some line →
        CanShift line ∧ Section.ofWord? (firstWord line) = none) →
      ofText path (Text.unindent chosen text) = .ok p) ∧
    ∀ i line s, (Text.linesOf text)[i]? = some line → CanShift line →
      Section.ofWord? (firstWord line) = some s → s ≠ .name → s ≠ .objSense →
      (ofText path (Text.unindent (· == i) text) : Except Error (Problem α)) =
        ofLines path (((Text.linesOf text).set i s.word.toList).map .ok) := by
  constructor
  · intro chosen shifts
    have lines := Text.linesOf_unindent chosen text fun i line here place =>
      Text.dropWhile_ne_nil_of_wordsOf (shifts i line here place).1.used
    have alike (i : Nat) (line : List Char) (place : (Text.linesOf text)[i]? = some line)
        (r r' : Reader α) (first : r.readLine line = .ok r') :
        r.readLine (if chosen i then line.dropWhile Text.isBlank else line) = .ok r' := by
      split
      · rename_i here
        obtain ⟨data, shown⟩ := shifts i line here place
        exact Reader.readLine_dropWhile data shown first
      · exact first
    unfold ofText ofLines at read ⊢
    rw [lines]
    split at read
    · cases read
    · rename_i r first
      rw [Reader.readLines_mapIdx alike first]
      exact read
  · intro i line s place shift opens name sense
    have lines := Text.linesOf_unindent_one place (Text.dropWhile_ne_nil_of_wordsOf shift.used)
    have same (r : Reader α) :
        r.readLine (line.dropWhile Text.isBlank) = r.readLine s.word.toList := by
      rw [Reader.readLine_dropWhile_header shift opens, Reader.readLine_word,
        Reader.openSection_eq name sense, Reader.openSection_eq name sense]
    unfold ofText ofLines
    rw [lines, Reader.readLines_set same]

/-- A file with a vector that is called `RHS`. -/
def vectorText : String :=
  "NAME v\nROWS\n N obj\n L c\nCOLUMNS\n x obj 1 c 1\nRHS\n RHS c 5\nENDATA\n"

/-- The program of the text with the given right-hand side. -/
def vectorProblem (side : Rat) : Problem Rat where
  name := "v"
  sense := .minimize
  offset := 0
  columns := [{ (ColumnPlan.start "x").toColumn with cost := 1 }]
  rows := [{ name := "c", coeffs := [(0, 1)], lhs := 0, rhs := side, flags := { lhsInf := true } }]

/-- The example is read, with five as the right-hand side. -/
theorem ofText_vectorText : ofText "v.mps" vectorText = .ok (vectorProblem 5) := by
  with_unfolding_all rfl

/-- Without the lines of the vector the rest can be moved to the left edge. -/
theorem ofText_unindent_vectorText : ofText "v.mps" vectorText = .ok (vectorProblem 5) ∧
    (ofText "v.mps" (Text.unindent (· ∈ [2, 3, 5]) vectorText) : Except Error (Problem Rat)) =
      .ok (vectorProblem 5) := by
  refine ⟨ofText_vectorText, (ofText_unindent ofText_vectorText).1 _ fun i line here place => ?_⟩
  have known : ∀ i ∈ [2, 3, 5], ∀ line ∈ (Text.linesOf vectorText)[i]?,
      CanShift line ∧ Section.ofWord? (firstWord line) = none := by
    decide +kernel
  exact known i (of_decide_eq_true here) line place

/-- **A line of the vector is lost at the left edge:** the row has its right-hand side no more. -/
theorem ofText_unindent_lost : ¬∀ (text : String) (p : Problem Rat) (i : Nat) (line : List Char),
    ofText "v.mps" text = .ok p → (Text.linesOf text)[i]? = some line → CanShift line →
    ofText "v.mps" (Text.unindent (· == i) text) = .ok p := by
  intro same
  have lost : ofText "v.mps" (Text.unindent (· == 7) vectorText) = .ok (vectorProblem 0) := by
    with_unfolding_all rfl
  have kept := same vectorText (vectorProblem 5) 7 " RHS c 5".toList ofText_vectorText
    (by decide +kernel) (by decide +kernel)
  have rows := congrArg Problem.rows (Except.ok.inj (kept.symm.trans lost))
  have sides := congrArg (List.map Row.rhs) rows
  exact absurd sides (by decide)

end Mps
end MipShrink
