/-
# Solutions survive as a text

A feasible solution is written as its status and a line for each value that is not zero: the name of
the column and the value.  When such a line is read, it gives the column its value if its name tells
one (`Solution.TellsValue`).  The names that do not are those that begin lines of another kind, the
status and the objective, and those with a comment in them: their values are dropped, or the line
is refused.  So a solution survives exactly when all of its nonzero values belong to names that tell
one (`Solution.ofText_toText_iff`).
-/

import MipShrink.Proofs.Decimal.NumberTexts
import MipShrink.Proofs.Mps.ColumnNames
import MipShrink.Proofs.Mps.Reading
import MipShrink.Proofs.Text.Trimming
import MipShrink.Solution.File

namespace MipShrink

namespace Text

/-- What follows a comment does not count. -/
theorem stripComment_append {quoted : Bool} {a : List Char} (h : ¬Uncommented quoted a)
    (b : List Char) : stripComment quoted (a ++ b) = stripComment quoted a := by
  induction a generalizing quoted with
  | nil => exact absurd rfl h
  | cons c a ih =>
    rw [uncommented_cons, not_and] at h
    rw [List.cons_append, stripComment, stripComment]
    split
    · rfl
    · rename_i other
      rw [ih (h other)]

/-- Without blanks there is one word at most. -/
theorem wordsOf_of_not_blank {t : List Char} (h : ∀ c ∈ t, isBlank c = false) :
    wordsOf t = [] ∨ ∃ w, wordsOf t = [w] := by
  unfold wordsOf words
  rw [pieces_eq_singleton h, List.filter_cons]
  split
  · exact .inr ⟨_, rfl⟩
  · exact .inl rfl

end Text

namespace Solution

variable {α : Type} [Scalar α]

/-- Two letters that each word of a status has one of, and numbers have none of. -/
theorem toLower_of_isPrinted {c : Char} (h : Scalar.isPrinted c = true) :
    c.toLower ≠ 'b' ∧ c.toLower ≠ 'k' := by
  have marks : ['-', '.', 'N', 'a', 'e', 'f', 'i', 'n', '/'].all
      (fun d => decide (d.toLower ≠ 'b' ∧ d.toLower ≠ 'k')) = true := by decide
  have mark {c : Char} (mem : c ∈ ['-', '.', 'N', 'a', 'e', 'f', 'i', 'n', '/']) :
      c.toLower ≠ 'b' ∧ c.toLower ≠ 'k' :=
    of_decide_eq_true (List.all_eq_true.1 marks c mem)
  rcases Bool.or_eq_true_iff.1 h with numeric | slash
  · rcases Bool.or_eq_true_iff.1 numeric with digit | numeric
    · rw [Grammar.toLower_of_isDigit digit]
      constructor <;>
        · rintro rfl
          exact absurd digit (by decide)
    · exact mark (List.mem_append_left ['/'] (List.contains_iff_mem.1 numeric))
  · rw [beq_iff_eq.1 slash]
    decide

/-- A line that begins with the name tells a value: the name is none of the words that other lines
begin with, and no comment begins in it. -/
def TellsValue (name : String) : Prop :=
  name ∉ ["status", "=obj=", "objective"] ∧ Text.Uncommented false name.toList

instance (name : String) : Decidable (TellsValue name) :=
  inferInstanceAs (Decidable (_ ∧ Text.stripComment false name.toList = name.toList))

/-- The line of a value. -/
def valueLine (name : String) (a : α) : String :=
  name ++ " " ++ Scalar.text a

/-- A line is a name, a blank and a value. -/
theorem toList_valueLine (name : String) (a : α) :
    (valueLine name a).toList = name.toList ++ ' ' :: (Scalar.text a).toList := by
  simp [valueLine]

/-- The last place of a name is found behind others of the same name. -/
theorem lastIndex?_eq {done rest : List String} {name : String} (new : name ∉ rest) :
    lastIndex? (done ++ name :: rest) name = some done.length := by
  have reversed : (done ++ name :: rest).reverse = rest.reverse ++ name :: done.reverse := by simp
  have before : ∀ n ∈ rest.reverse, (n == name) = false := fun n mem =>
    beq_eq_false_iff_ne.2 fun same => new (same ▸ List.mem_reverse.1 mem)
  unfold lastIndex?
  rw [reversed, Mps.findIdx?_append_cons before (beq_self_eq_true name), Option.map_some]
  simp

/-- The lines of a feasible solution without a ray. -/
theorem toText_eq {p : Problem α} (surplus : p.surplus = {}) (x : List α) :
    toText p { status := .feasible, primal := x, ray := [] } =
      Text.unlines ("status feasible" ::
        ((((p.columns.map Column.name).zip x).filter fun e => !Scalar.isZero e.2).map
          fun e => valueLine e.1 e.2)) := by
  unfold toText linesOf
  dsimp only
  rw [surplus, List.zip_nil_right, List.filter_nil, List.map_nil, List.append_nil, List.append_nil]
  simp only [String.empty_append]
  rfl

/-- The line of the status is read first. -/
theorem readLines_status (path : String) (all : List String) (lines : List (List Char))
    {s : Partial α} (status : s.status = .feasible) :
    readLines path all 1 ("status feasible".toList :: lines) s = readLines path all 2 lines s := by
  have words : Text.wordsOf (Text.stripComment false "status feasible".toList) =
      ["status", "feasible"] := by decide
  have line : readWords all s ["status", "feasible"] = .ok { s with status := .feasible } := rfl
  rw [readLines, words, line, ← status]

variable [Scalar.Printed α]

/-- The words of the line of a value. -/
theorem wordsOf_valueLine {name : String} (word : Text.IsWord name) (a : α)
    (clean : Text.Uncommented false name.toList) :
    Text.wordsOf (Text.stripComment false (valueLine name a).toList) = [name, Scalar.text a] := by
  have kept : Text.Uncommented false (valueLine name a).toList := by
    rw [toList_valueLine, Text.uncommented_append]
    refine ⟨clean, Text.uncommented_of_not_mem ?_ _⟩
    exact List.not_mem_cons_of_ne_of_not_mem (by decide) (Scalar.not_mem_text rfl a)
  rw [kept, toList_valueLine, Text.wordsOf_append_cons rfl, Text.wordsOf_word word,
    Text.wordsOf_word (Scalar.isWord_text a)]
  rfl

/-- A value is not the word of a status. -/
theorem ofWord?_text (a : α) : SolutionStatus.ofWord? (Scalar.text a) = none := by
  have other {w : String} {c : Char} (mem : c ∈ w.toList) (letter : c = 'b' ∨ c = 'k') :
      String.ofList (Text.lowerAscii (Scalar.text a).toList) ≠ w := by
    rintro rfl
    rw [String.toList_ofList] at mem
    obtain ⟨d, inside, rfl⟩ := List.mem_map.1 mem
    obtain ⟨left, right⟩ := toLower_of_isPrinted (Scalar.Printed.isPrinted_text a d inside)
    exact letter.elim left right
  unfold SolutionStatus.ofWord?
  dsimp only
  rw [if_neg (other (c := 'b') (by decide) (by decide)),
    if_neg (other (c := 'b') (by decide) (by decide)),
    if_neg (other (c := 'b') (by decide) (by decide)),
    if_neg (other (c := 'k') (by decide) (by decide))]

/-! ### One line -/

/-- The value that is read for a column. -/
def valueRead (e : String × α) : α :=
  if Scalar.isZero e.2 = false ∧ TellsValue e.1 then e.2 else 0

/-- **The line of a value** gives the column its value, or nothing, or is an error. -/
theorem readWords_valueLine {all done rest : List String} {name : String} {a : α}
    {before after : List α} {s : Partial α} (split : all = done ++ name :: rest)
    (word : Text.IsWord name) (new : name ∉ rest)
    (length : before.length = done.length) (primal : s.primal = before ++ 0 :: after)
    (used : Scalar.isZero a = false) (back : Scalar.read (Scalar.text a).toList = some a) :
    let result := readWords all s
      (Text.wordsOf (Text.stripComment false (valueLine name a).toList))
    result = .ok { s with primal := before ++ valueRead (name, a) :: after } ∨
      ¬TellsValue name ∧ ∃ fault, result = .error fault := by
  intro result
  subst split
  have same : { s with primal := before ++ 0 :: after } = s := by rw [← primal]
  -- A name that is cut by a comment mark leaves one word or none; a whole one may be a keyword.
  by_cases clean : Text.Uncommented false name.toList
  · have words := wordsOf_valueLine word a clean
    by_cases keyword : name ∈ ["status", "=obj=", "objective"]
    · have skip : valueRead (name, a) = 0 := if_neg fun h => h.2.1 keyword
      by_cases status : name = "status"
      · refine .inr ⟨fun h => h.1 keyword, .unknownStatus (Scalar.text a), ?_⟩
        show readWords _ s _ = _
        rw [words, readWords, if_pos status, ofWord?_text]
      · left
        have other : name = "=obj=" ∨ name = "objective" := by
          simpa [status] using keyword
        show readWords _ s _ = _
        rw [words, readWords, if_neg status, if_pos other, skip, same]
    · left
      have kept : valueRead (name, a) = a := if_pos ⟨used, keyword, clean⟩
      simp only [List.mem_cons, List.not_mem_nil, or_false, not_or] at keyword
      have placed : s.primal.set done.length a = before ++ a :: after := by
        rw [primal, ← length]
        simp
      show readWords _ s _ = _
      rw [words, readWords, if_neg keyword.1, if_neg (not_or.2 keyword.2), place,
        lastIndex?_eq new]
      dsimp only
      rw [back, kept, ← placed]
      rfl
  · have skip : valueRead (name, a) = 0 := if_neg fun h => clean h.2.2
    have short : Text.stripComment false (valueLine name a).toList =
        Text.stripComment false name.toList := by
      rw [toList_valueLine, Text.stripComment_append clean]
    have solid : ∀ c ∈ Text.stripComment false name.toList, Text.isBlank c = false :=
      fun c mem => word.2 c (Text.mem_of_mem_stripComment mem)
    rcases Text.wordsOf_of_not_blank solid with none | ⟨w, one⟩
    · left
      show readWords _ s _ = _
      rw [short, none, skip, same]
      rfl
    · refine .inr ⟨fun h => clean h.2, .solutionShape, ?_⟩
      show readWords _ s _ = _
      rw [short, one]
      rfl

/-! ### All lines -/

/-- **The lines of the values** give every column what is read for it, or one is an error. -/
theorem readLines_valueLines (path : String) (number : Nat) {all done : List String}
    (distinct : Mps.Distinct all) {es : List (String × α)} (split : all = done ++ es.map Prod.fst)
    (back : ∀ e ∈ es, Scalar.isZero e.2 = false →
      Scalar.read (Scalar.text e.2).toList = some e.2)
    {before : List α} (length : before.length = done.length) {s : Partial α}
    (primal : s.primal = before ++ es.map fun _ => 0) :
    let result := readLines path all number
      (((es.filter fun e => !Scalar.isZero e.2).map fun e => valueLine e.1 e.2).map String.toList) s
    result = .ok { s with primal := before ++ es.map valueRead } ∨
      (∃ e ∈ es, Scalar.isZero e.2 = false ∧ ¬TellsValue e.1) ∧ ∃ error, result = .error error := by
  induction es generalizing done before number s with
  | nil =>
    left
    show Except.ok s = _
    rw [List.map_nil, ← show s.primal = before ++ [] from primal]
  | cons e es ih =>
    obtain ⟨first, others⟩ := List.forall_mem_cons.1 back
    have next : all = (done ++ [e.1]) ++ es.map Prod.fst := by
      rw [split, List.append_assoc]
      rfl
    have length' : (before ++ [valueRead e]).length = (done ++ [e.1]).length := by
      rw [List.length_append, List.length_append, length]
      rfl
    have after : { s with primal := before ++ valueRead e :: es.map fun _ => 0 }.primal =
        (before ++ [valueRead e]) ++ es.map fun _ => 0 := by simp
    have placed : (before ++ [valueRead e]) ++ es.map valueRead =
        before ++ (e :: es).map valueRead := by simp
    rw [List.filter_cons]
    split
    · rename_i used
      have used : Scalar.isZero e.2 = false := by simpa using used
      have word : Text.IsWord e.1 := distinct.word _ (by rw [split]; simp)
      have new : e.1 ∉ es.map Prod.fst := by
        have nodup := distinct.nodup
        rw [split] at nodup
        exact (List.nodup_cons.1 (List.nodup_append.1 nodup).2.1).1
      have line := readWords_valueLine split word new length primal used (first used)
      have rest := ih (number + 1) next others length' after
      rw [placed] at rest
      dsimp only at line rest ⊢
      rw [List.map_cons, List.map_cons, readLines]
      -- The first line that is an error ends the reading.
      rcases line with told | ⟨other, fault, refused⟩
      · rw [told]
        exact rest.imp_right fun ⟨⟨e', mem, bad⟩, error⟩ =>
          ⟨⟨e', List.mem_cons_of_mem _ mem, bad⟩, error⟩
      · rw [refused]
        exact .inr ⟨⟨e, List.mem_cons_self, used, other⟩, _, rfl⟩
    · -- A zero has no line, and zero is what the column has from the start.
      rename_i zero
      have zero : Scalar.isZero e.2 = true := by simpa using zero
      have skip : valueRead e = 0 := if_neg fun h => absurd h.1 (by rw [zero]; decide)
      have same : { s with primal := before ++ valueRead e :: es.map fun _ => 0 } = s := by
        rw [skip]
        exact congrArg (fun v => { s with primal := v }) primal.symm
      have rest := ih number next others length' after
      rw [placed, same] at rest
      exact rest.imp_right fun ⟨⟨e', mem, bad⟩, error⟩ =>
        ⟨⟨e', List.mem_cons_of_mem _ mem, bad⟩, error⟩

/-- A number, zero being without sign. -/
def unsignedZero (a : α) : α :=
  if Scalar.isZero a then 0 else a

/-- What is read for a column is its value, if its name tells one. -/
theorem valueRead_eq_unsignedZero_iff (e : String × α) :
    valueRead e = unsignedZero e.2 ↔ (Scalar.isZero e.2 = false → TellsValue e.1) := by
  unfold valueRead unsignedZero
  cases zero : Scalar.isZero e.2 with
  | true => simp
  | false =>
    by_cases tells : TellsValue e.1
    · simp [tells]
    · have differs : (0 : α) ≠ e.2 := by
        intro same
        rw [← same, Scalar.Printed.isZero_zero] at zero
        cases zero
      simp [tells, differs]

/-- **A feasible solution survives as a text** if every value that is not zero belongs to a column
whose name tells one, and only then. -/
theorem ofText_toText_iff {path path' : String} {lines : List (Except AccessFault (List Char))}
    {p : Problem α} (read : Mps.ofLines path lines = .ok p) {x : List α}
    (length : x.length = p.ncols)
    (back : ∀ a ∈ x, Scalar.isZero a = false → Scalar.read (Scalar.text a).toList = some a) :
    ofText path' p (toText p { status := .feasible, primal := x, ray := [] }) =
        .ok { status := .feasible, primal := x.map unsignedZero, ray := [] } ↔
      ∀ e ∈ (p.columns.map Column.name).zip x, Scalar.isZero e.2 = false → TellsValue e.1 := by
  have distinct := Mps.distinct_ofLines read
  have text := toText_eq (Mps.surplus_ofLines read) x
  have count : (p.columns.map Column.name).length = x.length := by rw [List.length_map, length]; rfl
  unfold ofText
  generalize p.columns.map Column.name = names at *
  obtain ⟨es, pairs⟩ : ∃ es, names.zip x = es := ⟨_, rfl⟩
  have left : names = es.map Prod.fst := by rw [← pairs, List.map_fst_zip (Nat.le_of_eq count)]
  have right : x = es.map Prod.snd := by rw [← pairs, List.map_snd_zip (Nat.le_of_eq count.symm)]
  rw [pairs] at text ⊢
  have whole : ∀ l ∈ "status feasible" :: (es.filter fun e => !Scalar.isZero e.2).map
      (fun e => valueLine e.1 e.2), Text.Unbroken l := by
    refine List.forall_mem_cons.2 ⟨by decide, List.forall_mem_map.2 fun e mem => ?_⟩
    have word := distinct.word e.1 (left ▸ List.mem_map_of_mem (List.mem_filter.1 mem).1)
    exact (word.unbroken.append (by decide)).append (Scalar.isWord_text e.2).unbroken
  have start : (names.map fun _ => (0 : α)) = [] ++ es.map fun _ => 0 := by
    rw [left, List.map_map]
    rfl
  have split : names = [] ++ es.map Prod.fst := left
  -- Behind the status, the value lines give each column what is read for it, or one is an error.
  have values := readLines_valueLines path' 2 distinct split
    (fun e mem => back e.2 (right ▸ List.mem_map_of_mem mem)) rfl
    (s := { status := .feasible, primal := names.map fun _ => 0, ray := none }) start
  dsimp only at values ⊢
  rw [text, Text.linesOf_unlines whole, List.map_cons, readLines_status _ _ _ rfl]
  rw [List.nil_append] at values
  have read_iff : es.map valueRead = x.map unsignedZero ↔
      ∀ e ∈ es, Scalar.isZero e.2 = false → TellsValue e.1 := by
    rw [right, List.map_map, List.map_inj_left]
    exact forall₂_congr fun e _ => valueRead_eq_unsignedZero_iff e
  rcases values with values | ⟨⟨e, mem, used, other⟩, error, values⟩
  · rw [values, ← read_iff]
    show Except.ok _ = Except.ok _ ↔ _
    rw [Except.ok.injEq]
    simp [ofPartial]
  · rw [values]
    refine iff_of_false (fun h => ?_) fun h => other (h e mem used)
    cases h

/-- A program with a column whose name begins another kind of line. -/
def titled : String :=
  "NAME titled\nROWS\n N cost\nCOLUMNS\n x cost 1\n objective cost 1\nENDATA\n"

/-- The program of the text. -/
def titledProblem : Problem Rat where
  name := "titled"
  sense := .minimize
  offset := 0
  columns := ["x", "objective"].map fun name => { (ColumnPlan.start name).toColumn with cost := 1 }
  rows := []

/-- The example is read as a program. -/
theorem ofText_titled :
    (Mps.ofText "titled.mps" titled : Except Error (Problem Rat)) = .ok titledProblem := by
  with_unfolding_all rfl

/-- With nothing in that column the solution survives. -/
theorem ofText_toText_titled :
    Mps.ofLines "titled.mps" ((Text.linesOf titled).map .ok) = .ok titledProblem ∧
      ([5, 0] : List Rat).length = titledProblem.ncols ∧
      (∀ a ∈ ([5, 0] : List Rat), Scalar.isZero a = false →
        Scalar.read (Scalar.text a).toList = some a) ∧
      ofText "titled.sol" titledProblem
          (toText titledProblem { status := .feasible, primal := [5, 0], ray := [] }) =
        .ok { status := .feasible, primal := [5, 0], ray := [] } := by
  have back : ∀ a ∈ ([5, 0] : List Rat), Scalar.isZero a = false →
      Scalar.read (Scalar.text a).toList = some a := by decide +kernel
  exact ⟨ofText_titled, rfl, back, (ofText_toText_iff ofText_titled rfl back).2 (by decide +kernel)⟩

/-- **A value of that column is lost.** -/
theorem not_ofText_toText : ¬∀ (lines : List (Except AccessFault (List Char))) (p : Problem Rat)
    (x : List Rat), Mps.ofLines "in.mps" lines = .ok p → x.length = p.ncols →
    (∀ a ∈ x, Scalar.read (Scalar.text a).toList = some a) →
    ofText "in.sol" p (toText p { status := .feasible, primal := x, ray := [] }) =
      .ok { status := .feasible, primal := x, ray := [] } := by
  intro survives
  have read : (Mps.ofLines "in.mps" ((Text.linesOf titled).map .ok) : Except Error (Problem Rat)) =
      .ok titledProblem := by
    with_unfolding_all rfl
  have lost : ofText "in.sol" titledProblem
      (toText titledProblem { status := .feasible, primal := [5, 7], ray := [] }) =
        .ok { status := .feasible, primal := [5, 0], ray := [] } := by
    with_unfolding_all rfl
  have same := (survives _ titledProblem [5, 7] read rfl (by decide +kernel)).symm.trans lost
  have values := congrArg Solution.primal (Except.ok.inj same)
  exact absurd values (by decide)

end Solution
end MipShrink
