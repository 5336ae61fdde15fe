/-
# Names of rows in written files

A file calls its objective as it likes, and the program that is read does not keep that name:
written files call the objective `obj`.  The rows keep their names.  So the names in the section of
the rows of a written file are different ones, unless a row is called `obj`.

When the file is read again, each name stands for the row that was written with it, from the header
of the columns on (`Mps.Reader.target`).  Only `obj` stands for the objective, also where it was
written for a row (`Mps.rowSection_toText`): the coefficients of that row become costs, and its side
becomes the constant (`Mps.not_nodup_rowSection`).
-/

import MipShrink.Proofs.Decimal.NumberTexts
import MipShrink.Proofs.Mps.ColumnLines
import MipShrink.Proofs.Mps.Indentation
import MipShrink.Proofs.Mps.WellRead

namespace MipShrink
namespace Mps

open Text

/-! ### What a name stands for -/

/-- What the name in front of a coefficient or a side stands for. -/
inductive Target where
  | objective
  | row (i : Nat)
  /-- A free row other than the objective; what is read for it is passed over. -/
  | free
  | unknown
deriving DecidableEq, Repr

namespace Reader

variable {α : Type}

/-- What a name stands for.  The objective has precedence over the rows. -/
def target (r : Reader α) (name : String) : Target :=
  if r.isObjective name then .objective
  else
    match r.rowIndex? name with
    | some i => .row i
    | none => if r.freeRows.contains name then .free else .unknown

variable [Scalar α] {word : String} {x : α}

/-- A coefficient goes to what its name stands for. -/
theorem readEntry_eq (value : number word = .ok x) (r : Reader α) (j : Nat) (name : String) :
    r.readEntry j (name, word) =
      match r.target name with
      | .objective => .ok (r.mapColumn j fun c => { c with cost := x })
      | .row i =>
        .ok (if Scalar.isZero x then r else { r with entries := ((i, j), x) :: r.entries })
      | .free => .ok r
      | .unknown => .error (.unknownRow name) := by
  unfold readEntry target
  rw [value]
  show (if r.isObjective name = true then _ else _) = _
  split
  · rfl
  · cases r.rowIndex? name with
    | some i =>
      dsimp only
      cases Scalar.isZero x <;> rfl
    | none =>
      dsimp only
      cases r.freeRows.contains name <;> rfl

/-- So does a side. -/
theorem readRhs_eq (value : number word = .ok x) (r : Reader α) (name : String) :
    r.readRhs (name, word) =
      match r.target name with
      | .objective => .ok { r with offset := -x }
      | .row i => .ok (r.mapRow i fun row => { row with rhs := x })
      | .free => .ok r
      | .unknown => .error (.unknownRow name) := by
  unfold readRhs target
  rw [value]
  show (if r.isObjective name = true then _ else _) = _
  split
  · rfl
  · cases r.rowIndex? name with
    | some i => rfl
    | none =>
      dsimp only
      cases r.freeRows.contains name <;> rfl

/-- A range goes to the row of its name; the name of the objective means nothing here. -/
theorem readRange_eq (value : number word = .ok x) (r : Reader α) {name : String} {i : Nat}
    (row : r.rowIndex? name = some i) :
    r.readRange (name, word) = .ok (r.mapRow i fun row => { row with range := some x }) := by
  unfold readRange
  rw [value]
  dsimp only [bind, Except.bind]
  rw [row]
  rfl

/-- A line with a coefficient of a row that is called like a marker is taken for a marker. -/
theorem readColumn_text [Scalar.Printed α] (r : Reader α) (column row : String) (a : α) :
    r.readColumn [column, row, Scalar.text a] =
      if row = "'MARKER'" then .error .unknownMarker
      else (r.withColumn column).2.readEntry (r.withColumn column).1 (row, Scalar.text a) := by
  have unquoted : '\'' ∉ (Scalar.text a).toList := Scalar.not_mem_text (by decide) a
  have other {word : String} (quoted : '\'' ∈ word.toList) :
      ¬[column, row, Scalar.text a][2]? = some word := fun same =>
    unquoted (Option.some.inj same ▸ quoted)
  split
  · rename_i marker
    have here : [column, row, Scalar.text a][1]? = some "'MARKER'" := congrArg some marker
    unfold readColumn
    rw [if_pos here, if_neg (other (by decide)), if_neg (other (by decide))]
  · rename_i noMarker
    exact readColumn_three noMarker

/-! ### Names that stay -/

/-- All labels but those of the columns. -/
def rowLabels (r : Reader α) : Labels :=
  { r.labels with columns := [] }

/-- A line of the columns keeps the labels of the rows. -/
theorem keeps_readColumn (words : List String) (r : Reader α) :
    Keeps rowLabels (r.readColumn words) r := by
  have entries (name : String) (ps : List (String × String)) :
      Keeps rowLabels (readColumn.entries r name ps) r := by
    intro r' read
    have added : (r.withColumn name).2.rowLabels = r.rowLabels := by
      unfold withColumn
      split <;> rfl
    exact ((keeps_readEntries _ ps _).of_labels (fun l => { l with columns := [] })
      r' read).trans added
  unfold readColumn
  split
  · split
    · exact .ok rfl
    · split
      · exact .ok rfl
      · exact .error _
  · split
    · exact entries _ _
    · exact entries _ _
    · exact .error _

/-- Only a header names the program. -/
theorem keeps_readData_name (words : List String) (r : Reader α) :
    Keeps Reader.name (r.readData words) r := by
  unfold readData
  split
  · exact .error _
  · exact .error _
  · split
    · exact .ok rfl
    · exact .error _
  · exact keeps_readRow (fun _ _ _ _ => rfl) _ r
  · exact fun r' read => congrArg Labels.name (keeps_readColumn _ r r' read)
  · exact (keeps_readPairs keeps_readRhs _ r).of_labels Labels.name
  · exact (keeps_readPairs keeps_readRange _ r).of_labels Labels.name
  · exact (keeps_readBound _ r).of_labels Labels.name

omit [Scalar α] in
/-- What names the program is a word, or there is none. -/
theorem not_blank_openSection {r r' : Reader α} {s : Section} {words : List String}
    (all : ∀ w ∈ words, IsWord w) (h : ∀ c ∈ r.name.toList, isBlank c = false)
    (read : r.openSection s words = .ok r') : ∀ c ∈ r'.name.toList, isBlank c = false := by
  unfold openSection at read
  split at read
  · cases read
    exact (all _ (List.mem_cons_of_mem _ List.mem_cons_self)).2
  · cases read
    exact fun c mem => absurd mem List.not_mem_nil
  · split at read
    · cases read
      exact h
    · cases read
  · cases read
    exact h

/-- **There is no blank in the name of a program** while its file is read. -/
theorem not_blank_readLines {path : String} {n : Nat}
    {lines : List (Except AccessFault (List Char))} {r r' : Reader α}
    (start : ∀ c ∈ r.name.toList, isBlank c = false)
    (read : readLines path n lines r = .ok r') : ∀ c ∈ r'.name.toList, isBlank c = false := by
  refine readLines_preserves (P := fun r => ∀ c ∈ r.name.toList, isBlank c = false)
    (fun line _ r r' h first => ?_) start read
  rcases readLine_cases first with rfl | ⟨s, -, opens⟩ | data
  · exact h
  · exact not_blank_openSection (fun w => isWord_of_mem_wordsOf) h opens
  · rw [keeps_readData_name _ r r' data]
    exact h

end Reader

/-! ### Programs that were read -/

variable {α : Type} [Scalar α]

/-- What the names of a program need in order to be told apart in its file. -/
structure Named (p : Problem α) : Prop where
  name : ∀ c ∈ p.name.toList, isBlank c = false
  rows : Distinct (p.rows.map Row.name)
  columns : ∀ c ∈ p.columns, IsWord c.name
  /-- All rows are written. -/
  written : writtenRows p = p.rows
  surplus : p.surplus = {}

/-- A row that was described has a finite side, and so it is written. -/
theorem isWritten_of_mem {r : Reader α} {row : Row α} (mem : row ∈ r.builder.toProblem.rows) :
    isWritten row = true := by
  obtain ⟨i, place⟩ := List.mem_iff_getElem?.1 mem
  rw [Builder.getElem?_rows_toProblem] at place
  obtain ⟨plan, described, rfl⟩ := Option.map_eq_some_iff.1 place
  obtain ⟨data, -, rfl⟩ := List.mem_map.1 (List.mem_of_getElem? described)
  unfold isWritten Row.isRedundant
  rw [Row.flags_overlay]
  show (!false && !(data.plan.lhs.isNone && data.plan.rhs.isNone)) = true
  rcases data.sided_plan with side | side
  · rw [Option.isNone_eq_false_iff.2 side]
    rfl
  · rw [Option.isNone_eq_false_iff.2 side, Bool.and_false]
    rfl

/-- **A program that was read** has names that can be told apart. -/
theorem named_ofText {path text : String} {p : Problem α} (read : ofText path text = .ok p) :
    Named p := by
  have surplus := surplus_ofLines read
  have columns := distinct_ofLines read
  unfold ofText ofLines at read
  split at read
  · cases read
  · rename_i r first
    obtain ⟨-, rfl⟩ := (Builder.build_eq_ok_iff _ _).1 read
    obtain ⟨_, _, inStep⟩ := Reader.exists_inStep first
    have rowNames : r.builder.toProblem.rows.map Row.name = r.rowNames :=
      (Builder.map_name_rows _).trans r.map_name_plan
    constructor
    case name => exact Reader.not_blank_readLines (fun c mem => absurd mem List.not_mem_nil) first
    case rows => exact rowNames ▸ inStep.names
    case columns => exact fun c mem => columns.word c.name (List.mem_map_of_mem mem)
    case written =>
      unfold writtenRows Problem.allRows
      rw [surplus]
      refine (congrArg _ (List.append_nil _)).trans (List.filter_eq_self.2 fun row mem => ?_)
      exact isWritten_of_mem mem
    case surplus => exact surplus

/-! ### The section of the rows -/

/-- Is the line the header of the rows? -/
def isRowsHeader (line : List Char) : Bool :=
  !line.head?.any isBlank && firstWord line == "ROWS"

/-- **The names in the section of the rows** of a text: the second words of the indented lines
behind its header. -/
def rowSection (text : String) : List String :=
  let behind := ((Text.linesOf text).dropWhile fun line => !isRowsHeader line).drop 1
  (behind.takeWhile fun line => line.head?.any isBlank).filterMap fun line => (wordsOf line)[1]?

/-! ### Lines behind the rows -/

/-- The sections that stand behind the rows. -/
def Section.isLater : Section → Bool
  | columns | rhs | ranges | bounds | ends => true
  | name | objSense | rows => false

/-- The lines behind the header of the columns: headers of other sections, and data. -/
inductive BodyLine : String → Prop where
  | header {s : Section} (later : s.isLater = true) (other : s ≠ .columns) : BodyLine s.word
  | data {l : String} {words : List String} (line : DataLine l words) : BodyLine l

/-- Nothing breaks a line of the body. -/
theorem BodyLine.unbroken {l : String} (h : BodyLine l) : Unbroken l := by
  cases h with
  | @header s _ _ => cases s <;> decide
  | data line => exact line.unbroken

/-- No line of the body is the header of the columns. -/
theorem BodyLine.ne_columns {l : String} (h : BodyLine l) : l ≠ "COLUMNS" := by
  cases h with
  | @header s _ other => cases s with
    | columns => exact absurd rfl other
    | name | objSense | rows | rhs | ranges | bounds | ends => decide
  | data line =>
    rintro rfl
    exact absurd line.indented (by decide)

/-- The reader is behind the rows of a written file, and it has read these names of rows. -/
structure Behind (names : List String) (r : Reader α) : Prop where
  later : r.place.isLater = true
  objective : r.objective = some objectiveName
  freeRows : r.freeRows = []
  rowNames : r.rowNames = names

namespace Behind

variable {names : List String} {r r' : Reader α}

omit [Scalar α] in
/-- Only the labels of the rows count. -/
theorem congr (h : Behind names r) (same : r'.rowLabels = r.rowLabels) : Behind names r' where
  later := (congrArg (fun l => l.place.isLater) same).trans h.later
  objective := (congrArg Labels.objective same).trans h.objective
  freeRows := (congrArg Labels.freeRows same).trans h.freeRows
  rowNames := (congrArg Labels.rows same).trans h.rowNames

/-- Data behind the section of the rows keeps its labels. -/
theorem readData (h : Behind names r) {words : List String} (read : r.readData words = .ok r') :
    Behind names r' := by
  refine h.congr ?_
  have later := h.later
  have labels {result : Except ParseFault (Reader α)} (keeps : Keeps Reader.labels result r)
      (read : result = .ok r') : r'.rowLabels = r.rowLabels :=
    keeps.of_labels (fun l => { l with columns := [] }) r' read
  unfold Reader.readData at read
  split at read
  · cases read
  · cases read
  · rename_i place
    rw [place] at later
    cases later
  · rename_i place
    rw [place] at later
    cases later
  · exact Reader.keeps_readColumn _ r r' read
  · exact labels (Reader.keeps_readPairs Reader.keeps_readRhs _ r) read
  · exact labels (Reader.keeps_readPairs Reader.keeps_readRange _ r) read
  · exact labels (Reader.keeps_readBound _ r) read

/-- **A line behind the rows** leaves the names of the rows and of the objective alone. -/
theorem readLine (h : Behind names r) {l : String} (line : BodyLine l)
    (read : r.readLine l.toList = .ok r') : Behind names r' := by
  cases line with
  | @header s later _ =>
    have name : s ≠ .name := by
      rintro rfl
      cases later
    have sense : s ≠ .objSense := by
      rintro rfl
      cases later
    rw [Reader.readLine_word, Reader.openSection_eq name sense] at read
    cases read
    exact ⟨later, h.objective, h.freeRows, h.rowNames⟩
  | data line =>
    rcases Reader.readLine_cases read with rfl | ⟨s, edge, -⟩ | read
    · exact h
    · rw [line.indented] at edge
      cases edge
    · exact h.readData read

omit [Scalar α] in
/-- A name of a row stands for the row of this name. -/
theorem rowIndex? (h : Behind names r) (nodup : names.Nodup) {i : Nat} {name : String}
    (place : names[i]? = some name) : r.rowIndex? name = some i := by
  obtain ⟨below, here⟩ := List.getElem?_eq_some_iff.1 place
  rw [Reader.rowIndex?_eq_findIdx?, h.rowNames, List.findIdx?_eq_some_iff_getElem]
  refine ⟨below, beq_iff_eq.2 here, fun j before same => ?_⟩
  have same : names[j] = names[i] := (beq_iff_eq.1 same).trans here.symm
  exact List.pairwise_iff_getElem.1 nodup j i _ below before same

omit [Scalar α] in
/-- Only the name of the objective stands for it. -/
theorem isObjective (h : Behind names r) (name : String) :
    r.isObjective name = decide (name = objectiveName) := by
  unfold Reader.isObjective
  rw [h.objective]
  exact decide_eq_decide.2 ⟨Eq.symm, Eq.symm⟩

omit [Scalar α] in
/-- The name of the objective stands for the objective, whether a row has it or not. -/
theorem target_objective (h : Behind names r) : r.target objectiveName = .objective := by
  unfold Reader.target
  rw [h.isObjective, decide_eq_true rfl]
  rfl

omit [Scalar α] in
/-- **A row's name stands for the row**, unless it is that of the objective. -/
theorem target_row (h : Behind names r) (nodup : names.Nodup) {i : Nat} {name : String}
    (place : names[i]? = some name) :
    r.target name = if name = objectiveName then .objective else .row i := by
  split
  · rename_i same
    rw [same]
    exact h.target_objective
  · rename_i other
    unfold Reader.target
    rw [h.isObjective, decide_eq_false other, h.rowIndex? nodup place]
    rfl

end Behind

/-! ### Written files -/

/-- The lines of a written file in front of the rows. -/
def frontLines (p : Problem α) : List String :=
  ["NAME " ++ p.name] ++ if p.sense = .maximize then ["OBJSENSE", "    MAX"] else []

/-- The lines of the rows, the first of which is the objective. -/
def rowLines (p : Problem α) : List String :=
  (" N  " ++ objectiveName) :: (writtenRows p).map fun r => " " ++ rowLetter r ++ "  " ++ r.name

/-- The lines of a written file behind the header of the columns. -/
def bodyLines (p : Problem α) : List String :=
  columnsFrom p 0 false 0 p.columns ++ ["RHS"] ++ rhsLines p ++ rangeLines p ++
    ["BOUNDS"] ++ p.columns.flatMap boundLines ++ ["ENDATA"]

/-- A written file is the lines in front, the rows and the body. -/
theorem linesOf_eq (p : Problem α) : linesOf p =
    frontLines p ++ "ROWS" :: rowLines p ++ "COLUMNS" :: bodyLines p := by
  unfold linesOf frontLines rowLines bodyLines
  simp only [List.append_assoc, List.cons_append, List.nil_append]

omit [Scalar α] in
/-- A row that is written with a coefficient is among the written rows. -/
theorem mem_writtenRows_of_columnRows {p : Problem α} (surplus : p.surplus = {}) {j : Nat}
    {e : Row α × α} (mem : e ∈ (p.columnRows j).filter fun e => isWritten e.1) :
    e.1 ∈ writtenRows p := by
  obtain ⟨mem, written⟩ := List.mem_filter.1 mem
  unfold Problem.columnRows at mem
  rw [surplus] at mem
  obtain ⟨r, row, some⟩ := List.mem_filterMap.1 mem
  obtain ⟨a, -, rfl⟩ := Option.map_eq_some_iff.1 some
  exact List.mem_filter.2 ⟨List.mem_append_left _ row, written⟩

namespace Named

variable [Scalar.Printed α] {p : Problem α} {l : String}

omit [Scalar α] [Scalar.Printed α] in
/-- The name of a written row is a word. -/
theorem rowWord (h : Named p) {r : Row α} (mem : r ∈ writtenRows p) : IsWord r.name :=
  h.rows.word r.name (List.mem_map_of_mem (h.written ▸ mem))

/-- The lines of a column are lines of a body. -/
theorem bodyLine_columnLines (h : Named p) {c : Column α} (word : IsWord c.name) {j : Nat}
    (mem : l ∈ columnLines p j c) : BodyLine l := by
  have objective : IsWord objectiveName := by decide
  rw [columnLines_eq] at mem
  split at mem
  · rw [List.mem_singleton.1 mem]
    exact .data (placeholderLine word)
  · unfold costLines entryLines at mem
    rcases List.mem_append.1 mem with mem | mem
    · split at mem
      · exact absurd mem List.not_mem_nil
      · rw [List.mem_singleton.1 mem]
        exact .data (entryLine word objective (Scalar.isWord_text c.cost))
    · obtain ⟨e, entry, rfl⟩ := List.mem_map.1 mem
      have row := h.rowWord (mem_writtenRows_of_columnRows h.surplus entry)
      exact .data (entryLine word row (Scalar.isWord_text e.2))

/-- The lines of all columns and the markers between them are lines of a body. -/
theorem bodyLine_columnsFrom (h : Named p) {cs : List (Column α)}
    (words : ∀ c ∈ cs, IsWord c.name) {j : Nat} {marker : Bool} {count : Nat}
    (mem : l ∈ columnsFrom p j marker count cs) : BodyLine l := by
  induction cs generalizing j marker count with
  | nil =>
    unfold columnsFrom at mem
    split at mem
    · rw [List.mem_singleton.1 mem]
      exact .data (markerLine_words count _ (by decide))
    · exact absurd mem List.not_mem_nil
  | cons c cs ih =>
    obtain ⟨word, words⟩ := List.forall_mem_cons.1 words
    unfold columnsFrom at mem
    dsimp only at mem
    rcases List.mem_append.1 mem with mem | mem
    · rcases List.mem_append.1 mem with mem | mem
      · split at mem
        · exact absurd mem List.not_mem_nil
        · rw [List.mem_singleton.1 mem]
          refine .data (markerLine_words count _ ?_)
          split <;> decide
      · exact h.bodyLine_columnLines word mem
    · exact ih words mem

/-- The lines of the right-hand sides are lines of a body. -/
theorem bodyLine_rhsLines (h : Named p) (mem : l ∈ rhsLines p) : BodyLine l := by
  have objective : IsWord objectiveName := by decide
  unfold rhsLines at mem
  dsimp only at mem
  rcases List.mem_append.1 mem with mem | mem
  · split at mem
    · exact absurd mem List.not_mem_nil
    · rw [List.mem_singleton.1 mem]
      exact .data (rhsLine objective (Scalar.isWord_text _))
  · obtain ⟨r, row, line⟩ := List.mem_filterMap.1 mem
    obtain ⟨-, same⟩ := Option.ite_none_left_eq_some.1 line
    rw [← Option.some.inj same]
    exact .data (rhsLine (h.rowWord row) (Scalar.isWord_text _))

/-- The lines of the ranges are lines of a body. -/
theorem bodyLine_rangeLines (h : Named p) (mem : l ∈ rangeLines p) : BodyLine l := by
  unfold rangeLines at mem
  dsimp only at mem
  split at mem
  · exact absurd mem List.not_mem_nil
  · rcases List.mem_cons.1 mem with rfl | mem
    · exact .header (s := .ranges) rfl (by decide)
    · obtain ⟨r, row, rfl⟩ := List.mem_map.1 mem
      have word := h.rows.word r.name (List.mem_map_of_mem (List.mem_filter.1 row).1)
      exact .data (rangeLine word (Scalar.isWord_text _))

/-- The lines of the bounds are lines of a body. -/
theorem bodyLine_boundLines {c : Column α} (word : IsWord c.name) (mem : l ∈ boundLines c) :
    BodyLine l := by
  have bare {start : String} (kind : String) (line : DataLine start [kind, "BND"])
      (blank : start.toList.getLast?.any isBlank = true) : BodyLine (start ++ c.name) :=
    .data (line.word blank word)
  have valued {start : String} (kind : String) (line : DataLine start [kind, "BND"])
      (blank : start.toList.getLast?.any isBlank = true) (a : α) :
      BodyLine (start ++ c.name ++ " " ++ Scalar.text a) :=
    .data ((line.word blank word).next (Scalar.isWord_text a))
  have lower {a : α} (mem : l ∈ boundLines.lowerLine c a) : BodyLine l := by
    unfold boundLines.lowerLine at mem
    split at mem
    · exact absurd mem List.not_mem_nil
    · rw [List.mem_singleton.1 mem]
      exact valued "LO" ⟨by decide, by decide, by decide⟩ (by decide) a
  have upper {a : α} (mem : l ∈ boundLines.upperLine c a) : BodyLine l := by
    rw [List.mem_singleton.1 mem]
    exact valued "UP" ⟨by decide, by decide, by decide⟩ (by decide) a
  unfold boundLines at mem
  split at mem
  · rw [List.mem_singleton.1 mem]
    exact bare "FR" ⟨by decide, by decide, by decide⟩ (by decide)
  · split at mem
    · rw [List.mem_singleton.1 mem]
      exact valued "FX" ⟨by decide, by decide, by decide⟩ (by decide) _
    · exact (List.mem_append.1 mem).elim lower upper
  · rcases List.mem_cons.1 mem with rfl | mem
    · exact bare "MI" ⟨by decide, by decide, by decide⟩ (by decide)
    · exact upper mem
  · exact lower mem

/-- **The lines behind the header of the columns** open other sections or begin with a blank. -/
theorem bodyLine_of_mem (h : Named p) (mem : l ∈ bodyLines p) : BodyLine l := by
  have header (s : Section) (later : s.isLater = true) (other : s ≠ .columns)
      (mem : l ∈ [s.word]) : BodyLine l := by
    rw [List.mem_singleton.1 mem]
    exact .header later other
  unfold bodyLines at mem
  simp only [List.mem_append, or_assoc] at mem
  rcases mem with mem | mem | mem | mem | mem | mem | mem
  · exact h.bodyLine_columnsFrom h.columns mem
  · exact header .rhs rfl (by decide) mem
  · exact h.bodyLine_rhsLines mem
  · exact h.bodyLine_rangeLines mem
  · exact header .bounds rfl (by decide) mem
  · obtain ⟨c, column, mem⟩ := List.mem_flatMap.1 mem
    exact bodyLine_boundLines (h.columns c column) mem
  · exact header .ends rfl (by decide) mem

omit [Scalar α] [Scalar.Printed α] in
/-- The lines in front of the rows hold no header of another section. -/
theorem mem_frontLines (mem : l ∈ frontLines p) :
    l ≠ "COLUMNS" ∧ isRowsHeader l.toList = false := by
  unfold frontLines at mem
  rcases List.mem_append.1 mem with mem | mem
  · obtain rfl := List.mem_singleton.1 mem
    have first : firstWord ("NAME " ++ p.name).toList = "NAME" := by
      unfold firstWord
      rw [wordsOf_append (by decide) p.name]
      rfl
    constructor
    · intro same
      rw [same] at first
      exact absurd first (by decide)
    · unfold isRowsHeader
      rw [first]
      exact Bool.and_false _
  · split at mem
    · have lines : ∀ l ∈ ["OBJSENSE", "    MAX"],
          l ≠ "COLUMNS" ∧ isRowsHeader l.toList = false := by
        decide
      exact lines l mem
    · exact absurd mem List.not_mem_nil

omit [Scalar α] [Scalar.Printed α] in
/-- The lines of the rows are indented. -/
theorem indented_of_mem_rowLines (h : Named p) (mem : l ∈ rowLines p) :
    l.toList.head?.any isBlank = true := by
  rcases List.mem_cons.1 mem with rfl | mem
  · decide
  · obtain ⟨r, row, rfl⟩ := List.mem_map.1 mem
    exact (rowLine (h.rowWord row)).indented

omit [Scalar α] [Scalar.Printed α] in
/-- The second words of the lines of the rows are their names. -/
theorem names_rowLines (h : Named p) :
    ((rowLines p).map String.toList).filterMap (fun line => (wordsOf line)[1]?) =
      objectiveName :: p.rows.map Row.name := by
  have objective : wordsOf (" N  " ++ objectiveName).toList = ["N", objectiveName] := by decide
  rw [rowLines, List.map_cons, List.filterMap_cons, objective, List.map_map, List.filterMap_map,
    ← h.written, ← List.filterMap_eq_map]
  refine congrArg (objectiveName :: ·) (List.filterMap_congr fun r mem => ?_)
  show (wordsOf (" " ++ rowLetter r ++ "  " ++ r.name).toList)[1]? = some r.name
  rw [(rowLine (h.rowWord mem)).words]
  rfl

omit [Scalar.Printed α] in
/-- The lines up to the header of the columns. -/
theorem reads_start (h : Named p) :
    Reads Reader.start (frontLines p ++ "ROWS" :: rowLines p ++ ["COLUMNS"])
      { opened p with place := .columns, rows := (writtenRows p).map rowHead } := by
  have nodup : ((writtenRows p).map Row.name).Nodup := h.written ▸ h.rows.nodup
  have opening := (reads_opening h.name).append (reads_rows nodup fun x => h.rowWord)
  have header := opening.append (Reads.header .columns (by decide) _)
  unfold frontLines rowLines
  simp only [List.append_assoc, List.cons_append, List.nil_append] at header ⊢
  exact header

/-- The text has the lines that were written. -/
theorem linesOf_toText (h : Named p) : Text.linesOf (toText p) =
    (frontLines p ++ "ROWS" :: rowLines p).map String.toList ++
      "COLUMNS".toList :: (bodyLines p).map String.toList := by
  have whole : ∀ l ∈ linesOf p, Unbroken l := by
    rw [linesOf_eq, List.append_cons]
    exact List.forall_mem_append.2
      ⟨h.reads_start.unbroken, fun l mem => (h.bodyLine_of_mem mem).unbroken⟩
  rw [toText, Text.linesOf_unlines whole, linesOf_eq, List.map_append, List.map_cons]

/-- The section of the rows names the objective and then the rows. -/
theorem rowSection_eq (h : Named p) :
    rowSection (toText p) = objectiveName :: p.rows.map Row.name := by
  have front : ∀ line ∈ (frontLines p).map String.toList, (!isRowsHeader line) = true :=
    List.forall_mem_map.2 fun l mem => by rw [(mem_frontLines mem).2]; rfl
  have rows : ∀ line ∈ (rowLines p).map String.toList, line.head?.any isBlank = true :=
    List.forall_mem_map.2 fun l => h.indented_of_mem_rowLines
  have header : (!isRowsHeader "ROWS".toList) = false := by decide
  have next : ("COLUMNS".toList).head?.any isBlank = false := by decide
  unfold rowSection
  dsimp only
  rw [h.linesOf_toText, List.map_append, List.map_cons, List.append_assoc, List.cons_append,
    List.dropWhile_append_of_pos front, List.dropWhile_cons, header]
  show List.filterMap _ (List.takeWhile _ ((rowLines p).map String.toList ++ _ :: _)) = _
  rw [List.takeWhile_append_of_pos rows, List.takeWhile_cons, next, if_neg Bool.false_ne_true,
    List.append_nil, h.names_rowLines]

/-- **Wherever the lines behind the header of the columns end**, the reader is behind the rows. -/
theorem behind (h : Named p) {path : String} {before part rest : List (List Char)} {r : Reader α}
    (lines : Text.linesOf (toText p) = before ++ "COLUMNS".toList :: (part ++ rest))
    (reads : Reader.readLines path 1 ((before ++ "COLUMNS".toList :: part).map .ok) Reader.start =
      .ok r) : Behind (p.rows.map Row.name) r := by
  have early : "COLUMNS".toList ∉ (frontLines p ++ "ROWS" :: rowLines p).map String.toList := by
    intro mem
    obtain ⟨l, mem, same⟩ := List.mem_map.1 mem
    obtain rfl := String.toList_inj.1 same
    rcases List.mem_append.1 mem with mem | mem
    · exact (mem_frontLines mem).1 rfl
    · rcases List.mem_cons.1 mem with same | mem
      · exact absurd same (by decide)
      · exact absurd (h.indented_of_mem_rowLines mem) (by decide)
  have late : "COLUMNS".toList ∉ (bodyLines p).map String.toList := by
    intro mem
    obtain ⟨l, mem, same⟩ := List.mem_map.1 mem
    exact (h.bodyLine_of_mem mem).ne_columns (String.toList_inj.1 same)
  -- The line `COLUMNS` stands in the text once, so the text is split where it was written.
  rw [h.linesOf_toText] at lines
  obtain ⟨rfl, -, body⟩ := (List.append_cons_inj_of_notMem early late).1 lines
  have start := Reads.readLines_of_foldlM path 1 h.reads_start.result
  have first :
      (frontLines p ++ "ROWS" :: rowLines p).map String.toList ++ "COLUMNS".toList :: part =
      (frontLines p ++ "ROWS" :: rowLines p ++ ["COLUMNS"]).map String.toList ++ part := by
    simp only [List.map_append, List.map_cons, List.map_nil, List.append_assoc, List.cons_append,
      List.nil_append]
  rw [first, List.map_append, Reader.readLines_append start] at reads
  refine Reader.readLines_preserves (P := Behind (p.rows.map Row.name))
    (fun line mem r r' behind read => ?_) ⟨rfl, rfl, rfl, ?_⟩ reads
  · obtain ⟨line, inside, same⟩ := List.mem_map.1 mem
    obtain rfl := Except.ok.inj same
    have among : line ∈ (bodyLines p).map String.toList := body ▸ List.mem_append_left rest inside
    obtain ⟨l, written, rfl⟩ := List.mem_map.1 among
    exact behind.readLine (h.bodyLine_of_mem written) read
  · show ((writtenRows p).map rowHead).map RowData.name = _
    rw [List.map_map, h.written]
    rfl

end Named

/-- **The rows of a written file are told apart by their names** unless one of them is called like
the objective. -/
theorem rowSection_toText [Scalar.Printed α] {path text : String} {p : Problem α}
    (read : ofText path text = .ok p) :
    rowSection (toText p) = objectiveName :: p.rows.map Row.name ∧
    ((rowSection (toText p)).Nodup ↔ ∀ x ∈ p.rows, x.name ≠ objectiveName) ∧
    ∀ (path' : String) (before part rest : List (List Char)) (r : Reader α),
      Text.linesOf (toText p) = before ++ "COLUMNS".toList :: (part ++ rest) →
      Reader.readLines path' 1 ((before ++ "COLUMNS".toList :: part).map .ok) Reader.start = .ok r →
      r.target objectiveName = .objective ∧
      ∀ i x, p.rows[i]? = some x →
        r.rowIndex? x.name = some i ∧
        (r.target x.name = if x.name = objectiveName then .objective else .row i) ∧
        ∀ (column : String) (a : α), r.readColumn [column, x.name, Scalar.text a] =
          if x.name = "'MARKER'" then .error .unknownMarker
          else (r.withColumn column).2.readEntry (r.withColumn column).1
            (x.name, Scalar.text a) := by
  have named := named_ofText read
  have names : rowSection (toText p) = objectiveName :: p.rows.map Row.name :=
    named.rowSection_eq
  refine ⟨names, ?_, ?_⟩
  · rw [names, List.nodup_cons, List.mem_map]
    constructor
    · exact fun different x mem same => different.1 ⟨x, mem, same⟩
    · rintro other
      exact ⟨fun ⟨x, mem, same⟩ => other x mem same, named.rows.nodup⟩
  · intro path' before part rest r lines reads
    have behind := named.behind lines reads
    refine ⟨behind.target_objective, fun i x place => ?_⟩
    have place : (p.rows.map Row.name)[i]? = some x.name := by
      rw [List.getElem?_map, place]
      rfl
    exact ⟨behind.rowIndex? named.rows.nodup place, behind.target_row named.rows.nodup place,
      fun column a => r.readColumn_text column x.name a⟩

/-- A file that calls its objective `cost`. -/
def costText (row : String) : String :=
  "NAME t\nROWS\n N cost\n L " ++ row ++ "\nCOLUMNS\n x cost 1 " ++ row ++ " 2\nRHS\n RHS " ++
    row ++ " 5\nENDATA\n"

/-- The program of such a file. -/
def costProblem (row : String) : Problem Rat where
  name := "t"
  sense := .minimize
  offset := 0
  columns := [{ (ColumnPlan.start "x").toColumn with cost := 1 }]
  rows := [{ name := row, coeffs := [(0, 2)], lhs := 0, rhs := 5, flags := { lhsInf := true } }]

/-- The two examples are read, whether the row is called `c` or `obj`. -/
theorem ofText_costText : ofText "t.mps" (costText "c") = .ok (costProblem "c") ∧
    ofText "t.mps" (costText "obj") = .ok (costProblem "obj") := by
  decide +kernel

/-- With the row called `c` the names in the section are different ones. -/
theorem rowSection_toText_cost : ofText "t.mps" (costText "c") = .ok (costProblem "c") ∧
    rowSection (toText (costProblem "c")) = ["obj", "c"] ∧
    (rowSection (toText (costProblem "c"))).Nodup := by
  have names := rowSection_toText ofText_costText.1
  exact ⟨ofText_costText.1, names.1, names.2.1.2 (by decide)⟩

/-- **A row that is called `obj`** has the name of the objective in the written file. -/
theorem not_nodup_rowSection : ¬∀ (text : String) (p : Problem Rat),
    ofText "t.mps" text = .ok p → (rowSection (toText p)).Nodup := by
  intro nodup
  exact absurd (nodup (costText "obj") (costProblem "obj") ofText_costText.2) (by decide +kernel)

/-- What was written for this row is read as a cost and as a constant. -/
example : (ofText "t.mps" (toText (costProblem "obj")) : Except Error (Problem Rat)) =
    .ok { costProblem "obj" with
      offset := -5
      columns := [{ (ColumnPlan.start "x").toColumn with cost := 2 }]
      rows :=
        [{ name := "obj", coeffs := [], lhs := 0, rhs := 0, flags := { lhsInf := true } }] } := by
  decide +kernel

end Mps
end MipShrink
