/-
# Reading line by line

`Mps.Reads` says that certain lines lead from one state of the reader to another.  Such facts are
put together along a file (`Reads.append`), and along a list when each element has its own lines
(`Reads.flatMap`).  When the lines lead from the beginning to a state, the text of these lines
describes what this state describes (`Reads.ofText`).

Below are the lines by themselves: headers of sections, coefficients, sides and bounds.  A line
finds its row or its column by the name, so the names before it have to be others
(`findIdx?_append_cons`).
-/

import MipShrink.Proofs.Reduction.Writes
import MipShrink.Proofs.Text.Words

namespace MipShrink
namespace Mps

/-- The word that opens a section. -/
def Section.word : Section → String
  | name => "NAME"
  | objSense => "OBJSENSE"
  | rows => "ROWS"
  | columns => "COLUMNS"
  | rhs => "RHS"
  | ranges => "RANGES"
  | bounds => "BOUNDS"
  | ends => "ENDATA"

/-- The first element with a property stands behind those without it. -/
theorem findIdx?_append_cons {β : Type} {f : β → Bool} {l rest : List β} {b : β}
    (before : ∀ a ∈ l, f a = false) (here : f b = true) :
    (l ++ b :: rest).findIdx? f = some l.length := by
  have absent : l.findIdx? f = none := List.findIdx?_eq_none_iff.2 before
  rw [List.findIdx?_append, absent, List.findIdx?_cons, here]
  exact congrArg some (Nat.zero_add _)

variable {α : Type} [Scalar α]

namespace Reader

variable {r : Reader α} {line : List Char}

/-- A line that is used is read by its words. -/
theorem readLine_eq (used : Text.wordsOf line ≠ []) (noComment : line.head? ≠ some '*') :
    r.readLine line = r.readWords (line.head?.any Text.isBlank) (Text.wordsOf line) := by
  have skip : ((Text.wordsOf line).isEmpty || line.head? == some '*') = false := by
    rw [Bool.or_eq_false_iff, List.isEmpty_eq_false_iff, beq_eq_false_iff_ne]
    exact ⟨used, noComment⟩
  unfold readLine
  dsimp only
  rw [skip]
  rfl

/-- The bare header of a section. -/
theorem readLine_word (s : Section) :
    r.readLine s.word.toList = r.openSection s [s.word] := by
  have words : Text.wordsOf s.word.toList = [s.word] := by cases s <;> decide
  have star : s.word.toList.head? ≠ some '*' := by cases s <;> decide
  have edge : s.word.toList.head?.any Text.isBlank = false := by cases s <;> decide
  have opens : Section.ofWord? s.word = some s := by cases s <;> rfl
  rw [readLine_eq (by rw [words]; exact List.cons_ne_nil _ _) star, words, edge, readWords,
    if_neg Bool.false_ne_true]
  dsimp only [List.headD_cons]
  rw [opens]

/-- The lines behind those that were read are read from there. -/
theorem readLines_append {path : String} {n : Nat} {ls ls' : List (Except AccessFault (List Char))}
    {r r' : Reader α} (first : readLines path n ls r = .ok r') :
    readLines path n (ls ++ ls') r = readLines path (n + ls.length) ls' r' := by
  induction ls generalizing n r with
  | nil =>
    cases first
    rfl
  | cons line ls ih =>
    cases line with
    | error fault => cases first
    | ok line =>
      rw [readLines] at first
      rw [List.cons_append, readLines]
      split at first
      · cases first
      · rw [ih first, List.length_cons, Nat.add_right_comm, Nat.add_assoc]

end Reader

/-- **Reading the lines leads from one state to another.**  None of the lines is broken. -/
structure Reads (r : Reader α) (ls : List String) (r' : Reader α) : Prop where
  unbroken : ∀ l ∈ ls, Text.Unbroken l
  result : ls.foldlM (fun r l => Reader.readLine l.toList r) r = .ok r'

namespace Reads

variable {r r' r'' : Reader α} {l : String} {ls ls' : List String}

/-- No lines read as nothing. -/
theorem nil (r : Reader α) : Reads r [] r :=
  ⟨fun _ none => absurd none List.not_mem_nil, rfl⟩

/-- A line in which nothing breaks it reads as its result. -/
theorem single (unbroken : Text.Unbroken l) (result : r.readLine l.toList = .ok r') :
    Reads r [l] r' where
  unbroken := List.forall_mem_singleton.2 unbroken
  result := by
    rw [List.foldlM_cons, result]
    rfl

/-- Lines read one after the other. -/
theorem append (h : Reads r ls r') (h' : Reads r' ls' r'') : Reads r (ls ++ ls') r'' where
  unbroken l mem := (List.mem_append.1 mem).elim (h.unbroken l) (h'.unbroken l)
  result := by
    rw [List.foldlM_append, h.result]
    exact h'.result

/-- Without lines nothing happens. -/
theorem eq_of_nil (h : Reads r [] r') : r = r' :=
  Except.ok.inj h.result

/-- **Elements with lines of their own.**  The state tells which elements have been read and which
are left. -/
theorem flatMap {β : Type} {lines : β → List String} (state : List β → List β → Reader α)
    {all : List β} (step : ∀ done b left, all = done ++ b :: left →
      Reads (state done (b :: left)) (lines b) (state (done ++ [b]) left)) :
    Reads (state [] all) (all.flatMap lines) (state all []) := by
  have rest (left done : List β) (split : all = done ++ left) :
      Reads (state done left) (left.flatMap lines) (state all []) := by
    induction left generalizing done with
    | nil =>
      rw [List.append_nil] at split
      subst split
      exact .nil _
    | cons b left ih =>
      rw [List.flatMap_cons]
      exact (step done b left split).append (ih (done ++ [b]) (split.trans (List.append_cons ..)))
  exact rest all [] rfl

/-- **Elements that are changed one after the other** in a list of the state. -/
theorem replace {β γ : Type} {lines : β → List String} {f g : β → γ} (put : List γ → Reader α)
    {all : List β} (step : ∀ done b left, all = done ++ b :: left →
      Reads (put (done.map g ++ f b :: left.map f)) (lines b)
        (put (done.map g ++ g b :: left.map f))) :
    Reads (put (all.map f)) (all.flatMap lines) (put (all.map g)) := by
  have last : all.map g = all.map g ++ [].map f := (List.append_nil _).symm
  rw [last]
  refine flatMap (fun done left => put (done.map g ++ left.map f)) fun done b left split => ?_
  rw [List.map_append, List.append_assoc]
  exact step done b left split

/-- A line of data is read in the section where it stands. -/
theorem readLine_of_data {ws : List String} (line : Text.DataLine l ws) (used : ws ≠ [])
    (r : Reader α) : r.readLine l.toList = r.readData ws := by
  obtain ⟨c, first, blank⟩ := (Option.any_eq_true _ _).1 line.indented
  have noComment : l.toList.head? ≠ some '*' := by
    intro star
    obtain rfl : c = '*' := Option.some.inj (first.symm.trans star)
    exact absurd blank (by decide)
  rw [Reader.readLine_eq (by rwa [line.words]) noComment, line.indented, line.words,
    Reader.readWords, if_pos rfl]

/-- A line of data reads as its words do in the section. -/
theorem data {ws : List String} (line : Text.DataLine l ws) (used : ws ≠ [])
    (result : r.readData ws = .ok r') : Reads r [l] r' :=
  .single line.unbroken ((readLine_of_data line used r).trans result)

/-- A line that opens a section, which is not the one of the name. -/
theorem header (s : Section) (other : s ≠ .name) (r : Reader α) :
    Reads r [s.word] { r with place := s } := by
  refine .single (by cases s <;> decide) ((Reader.readLine_word s).trans ?_)
  cases s with
  | name => exact absurd rfl other
  | objSense | rows | columns | rhs | ranges | bounds | ends => rfl

/-- Lines that are read from a text are read one after the other. -/
theorem readLines_of_foldlM (path : String) (n : Nat)
    (result : ls.foldlM (fun r l => Reader.readLine l.toList r) r = .ok r') :
    Reader.readLines path n ((ls.map String.toList).map .ok) r = .ok r' := by
  induction ls generalizing n r with
  | nil => exact congrArg Except.ok (Except.ok.inj result)
  | cons l ls ih =>
    rw [List.foldlM_cons] at result
    rw [List.map_cons, List.map_cons, Reader.readLines]
    cases first : Reader.readLine l.toList r with
    | error fault =>
      rw [first] at result
      cases result
    | ok r₁ =>
      rw [first] at result
      exact ih (n + 1) result

/-- **What a text describes** is what the last state describes. -/
theorem ofText (h : Reads Reader.start ls r) (path : String) :
    ofText path (Text.unlines ls) = r.builder.build := by
  unfold Mps.ofText ofLines
  rw [Text.linesOf_unlines h.unbroken, readLines_of_foldlM path 1 h.result]

end Reads
/-! ### Numbers and names -/

/-- The text of the number is read as this number. -/
def ReadsBack (a : α) : Prop :=
  Scalar.read (Scalar.text a).toList = some a

instance (a : Rat) : Decidable (ReadsBack a) :=
  inferInstanceAs (Decidable (Scalar.read (Scalar.text a).toList = some a))

/-- Zero reads back. -/
theorem readsBack_zero : ReadsBack (0 : Rat) := by decide +kernel

/-- A number that reads back is read where a number stands. -/
theorem number_text {a : α} (h : ReadsBack a) : number (Scalar.text a) = .ok a := by
  unfold number
  rw [show Scalar.read (Scalar.text a).toList = some a from h]

/-- A number that reads back is read as a bound, unless it is so large that it is infinite. -/
theorem boundValue_text {a : α} (h : ReadsBack a) (small : Scalar.isHuge a = false) :
    boundValue (Scalar.text a) = .ok (some a) := by
  unfold boundValue
  rw [number_text h]
  show Except.ok (if Scalar.isHuge a = true then none else some a) = _
  rw [small]
  rfl

/-! ### Bounds -/

/-- A column with its bound, from the kind and the text of the bound. -/
def boundedColumn (kind : String) (word : Option String) (c : ColumnPlan α) :
    Except ParseFault (ColumnPlan α) :=
  match Reader.applyBareBound? kind c with
  | some c => .ok c
  | none =>
    if !Reader.takesValue kind then .error (.unsupportedBound kind)
    else
      match word with
      | none => .error (.missingBound kind)
      | some word => boundValue word >>= fun x => Reader.applyBound kind x c

/-- A line with a bound looks for its column first. -/
theorem readBound_eq (words : List String) (r : Reader α) :
    r.readBound words = Reader.boundTarget (words.headD "") words >>= fun target =>
      match r.columnIndex? target.1 with
      | none => .error (.unknownColumn target.1)
      | some j =>
        match r.columns[j]? with
        | none => .ok r
        | some c =>
          (boundedColumn (words.headD "") target.2 c).map fun c => r.mapColumn j fun _ => c := by
  unfold Reader.readBound boundedColumn
  refine congrArg _ (funext fun target => ?_)
  dsimp only
  -- Both ask for the same in the same order, so one answer is looked at after the other.
  cases r.columnIndex? target.1 with
  | none => rfl
  | some j =>
    dsimp only
    cases r.columns[j]? with
    | none => rfl
    | some c =>
      dsimp only
      cases Reader.applyBareBound? (words.headD "") c with
      | some c => rfl
      | none =>
        dsimp only
        cases Reader.takesValue (words.headD "") with
        | false => rfl
        | true =>
          cases target.2 with
          | none => rfl
          | some word =>
            show (boundValue word >>= fun x => Reader.applyBound (words.headD "") x c >>= _) =
              (boundValue word >>= fun x => Reader.applyBound (words.headD "") x c).map _
            cases (boundValue word : Except ParseFault (Option α)) with
            | error fault => rfl
            | ok x =>
              show (Reader.applyBound (words.headD "") x c >>= _) =
                (Reader.applyBound (words.headD "") x c).map _
              cases Reader.applyBound (words.headD "") x c with
              | error fault => rfl
              | ok c => rfl

namespace Reader

variable {r : Reader α} {words : List String}

/-! ### Lines of a section -/

/-- In the section of the rows a line names a row. -/
theorem readData_rows (place : r.place = .rows) : r.readData words = r.readRow words := by
  unfold readData
  rw [place]

/-- In the section of the columns a line has coefficients of a column. -/
theorem readData_columns (place : r.place = .columns) :
    r.readData words = r.readColumn words := by
  unfold readData
  rw [place]

/-- In the section of the right-hand sides a line has sides. -/
theorem readData_rhs (place : r.place = .rhs) : r.readData words = r.readPairs readRhs words := by
  unfold readData
  rw [place]

/-- In the section of the ranges a line has ranges. -/
theorem readData_ranges (place : r.place = .ranges) :
    r.readData words = r.readPairs readRange words := by
  unfold readData
  rw [place]

/-- In the section of the bounds a line has a bound. -/
theorem readData_bounds (place : r.place = .bounds) : r.readData words = r.readBound words := by
  unfold readData
  rw [place]

/-! ### Rows -/

section Rows

variable {done left : List (RowData α)} {x : RowData α}

omit [Scalar α] in
/-- A row is found by its name. -/
theorem rowIndex?_eq (rows : r.rows = done ++ x :: left) (fresh : ∀ y ∈ done, y.name ≠ x.name) :
    r.rowIndex? x.name = some done.length := by
  unfold rowIndex?
  rw [rows]
  exact findIdx?_append_cons (fun y mem => beq_eq_false_iff_ne.2 (fresh y mem)) (beq_self_eq_true _)

omit [Scalar α] in
/-- A name that no row has yet is not found. -/
theorem rowIndex?_eq_none {name : String} (fresh : ∀ y ∈ r.rows, y.name ≠ name) :
    r.rowIndex? name = none :=
  List.findIdx?_eq_none_iff.2 fun y mem => beq_eq_false_iff_ne.2 (fresh y mem)

/-- A row of which nothing has been read. -/
theorem add_eq {kind : RowKind} {name : String} (fresh : ∀ y ∈ r.rows, y.name ≠ name) :
    readRow.add r kind name = .ok { r with rows := r.rows ++ [⟨name, kind, 0, none⟩] } := by
  unfold readRow.add
  rw [rowIndex?_eq_none fresh]

/-- A coefficient of a row. -/
theorem readEntry_row (rows : r.rows = done ++ x :: left) (fresh : ∀ y ∈ done, y.name ≠ x.name)
    (other : r.objective ≠ some x.name) {a : α} (back : ReadsBack a)
    (nonzero : Scalar.isZero a = false) (j : Nat) :
    r.readEntry j (x.name, Scalar.text a) =
      .ok { r with entries := ((done.length, j), a) :: r.entries } := by
  have objective : r.isObjective x.name = false := beq_eq_false_iff_ne.2 other
  unfold readEntry
  rw [number_text back]
  show (if r.isObjective x.name = true then _ else _) = _
  rw [objective, rowIndex?_eq rows fresh]
  show (if Scalar.isZero a = true then _ else _) = _
  rw [nonzero]
  rfl

/-- A right-hand side. -/
theorem readRhs_row (rows : r.rows = done ++ x :: left) (fresh : ∀ y ∈ done, y.name ≠ x.name)
    (other : r.objective ≠ some x.name) {a : α} (back : ReadsBack a) :
    r.readRhs (x.name, Scalar.text a) =
      .ok { r with rows := done ++ { x with rhs := a } :: left } := by
  have objective : r.isObjective x.name = false := beq_eq_false_iff_ne.2 other
  unfold readRhs
  rw [number_text back]
  show (if r.isObjective x.name = true then _ else _) = _
  rw [objective, rowIndex?_eq rows fresh]
  show Except.ok (r.mapRow done.length _) = _
  unfold mapRow
  rw [rows, modify_append_cons]

/-- A range. -/
theorem readRange_row (rows : r.rows = done ++ x :: left) (fresh : ∀ y ∈ done, y.name ≠ x.name)
    {a : α} (back : ReadsBack a) :
    r.readRange (x.name, Scalar.text a) =
      .ok { r with rows := done ++ { x with range := some a } :: left } := by
  unfold readRange
  rw [number_text back]
  dsimp only [bind, Except.bind]
  rw [rowIndex?_eq rows fresh]
  show Except.ok (r.mapRow done.length _) = _
  unfold mapRow
  rw [rows, modify_append_cons]

end Rows

/-- The negated constant of the objective. -/
theorem readRhs_objective {name : String} (objective : r.objective = some name) {a : α}
    (back : ReadsBack a) : r.readRhs (name, Scalar.text a) = .ok { r with offset := -a } := by
  have here : r.isObjective name = true := by
    unfold isObjective
    rw [objective, beq_self_eq_true]
  unfold readRhs
  rw [number_text back]
  show (if r.isObjective name = true then _ else _) = _
  rw [here]
  rfl

omit [Scalar α] in
/-- A line of three words holds one pair behind the name of a vector. -/
theorem readPairs_three (f : Reader α → String × String → Except ParseFault (Reader α))
    (vector name value : String) (r : Reader α) :
    readPairs f [vector, name, value] r = f r (name, value) := by
  have odd : [vector, name, value].length % 2 = 1 := by
    rw [List.length_cons, List.length_cons, List.length_singleton]
  unfold readPairs
  rw [if_pos odd]
  show (f r (name, value) >>= fun r => .ok r) = _
  cases f r (name, value) <;> rfl

/-! ### Columns -/

/-- A line of three words holds one entry of a column. -/
theorem readColumn_three {name row value : String} (noMarker : row ≠ "'MARKER'") :
    r.readColumn [name, row, value] =
      (r.withColumn name).2.readEntry (r.withColumn name).1 (row, value) := by
  have other : ¬[name, row, value][1]? = some "'MARKER'" := fun same =>
    noMarker (Option.some.inj same)
  unfold readColumn
  rw [if_neg other]
  show ((r.withColumn name).2.readEntry (r.withColumn name).1 (row, value) >>= fun r => .ok r) = _
  cases (r.withColumn name).2.readEntry (r.withColumn name).1 (row, value) <;> rfl

section Columns

variable {done left : List (ColumnPlan α)} {c : ColumnPlan α}

omit [Scalar α] in
/-- A column is found by its name. -/
theorem columnIndex?_eq (columns : r.columns = done ++ c :: left)
    (fresh : ∀ y ∈ done, y.name ≠ c.name) : r.columnIndex? c.name = some done.length := by
  unfold columnIndex?
  rw [columns]
  exact findIdx?_append_cons (fun y mem => beq_eq_false_iff_ne.2 (fresh y mem)) (beq_self_eq_true _)

/-- A column that is there is found, and nothing is added. -/
theorem withColumn_eq (columns : r.columns = done ++ c :: left)
    (fresh : ∀ y ∈ done, y.name ≠ c.name) : r.withColumn c.name = (done.length, r) := by
  unfold withColumn
  rw [columnIndex?_eq columns fresh]

/-- A column that is new is put behind the others. -/
theorem withColumn_new {name : String} (fresh : ∀ y ∈ r.columns, y.name ≠ name) :
    r.withColumn name = (r.columns.length,
      { r with columns := r.columns ++ [⟨name, 0, some 0, none, r.inMarker⟩] }) := by
  have absent : r.columnIndex? name = none :=
    List.findIdx?_eq_none_iff.2 fun y mem => beq_eq_false_iff_ne.2 (fresh y mem)
  unfold withColumn
  rw [absent]
  rfl

/-- The cost of a column. -/
theorem readEntry_cost (columns : r.columns = done ++ c :: left) {name : String}
    (objective : r.objective = some name) {value : String} {a : α} (read : number value = .ok a) :
    r.readEntry done.length (name, value) =
      .ok { r with columns := done ++ { c with cost := a } :: left } := by
  have here : r.isObjective name = true := by
    unfold isObjective
    rw [objective, beq_self_eq_true]
  unfold readEntry
  rw [read]
  show (if r.isObjective name = true then _ else _) = _
  rw [here]
  show Except.ok (r.mapColumn done.length _) = _
  unfold mapColumn
  rw [columns, modify_append_cons]

/-- A bound goes to the column of its name. -/
theorem readBound_of_bounded (columns : r.columns = done ++ c :: left)
    (fresh : ∀ y ∈ done, y.name ≠ c.name) {kind : String} {rest : List String}
    {word : Option String} (target : boundTarget kind (kind :: rest) = .ok (c.name, word))
    {c' : ColumnPlan α} (bounded : boundedColumn kind word c = .ok c') :
    r.readBound (kind :: rest) = .ok { r with columns := done ++ c' :: left } := by
  have place : r.columns[done.length]? = some c := by
    rw [columns, List.getElem?_append_right (Nat.le_refl _), Nat.sub_self]
    rfl
  rw [readBound_eq, List.headD_cons, target]
  dsimp only [bind, Except.bind]
  rw [columnIndex?_eq columns fresh]
  dsimp only
  rw [place]
  dsimp only
  rw [bounded]
  show Except.ok (r.mapColumn done.length _) = _
  unfold mapColumn
  rw [columns, modify_append_cons]

/-- A bound without value. -/
theorem readBound_bare (columns : r.columns = done ++ c :: left)
    (fresh : ∀ y ∈ done, y.name ≠ c.name) {kind vector : String}
    (target : boundTarget kind [kind, vector, c.name] = .ok (c.name, none)) {c' : ColumnPlan α}
    (effect : applyBareBound? kind c = some c') :
    r.readBound [kind, vector, c.name] = .ok { r with columns := done ++ c' :: left } := by
  refine readBound_of_bounded columns fresh target ?_
  unfold boundedColumn
  rw [effect]

/-- A bound with a value. -/
theorem readBound_value (columns : r.columns = done ++ c :: left)
    (fresh : ∀ y ∈ done, y.name ≠ c.name) {kind vector value : String}
    (target : boundTarget kind [kind, vector, c.name, value] = .ok (c.name, some value))
    (bare : applyBareBound? kind c = none) (takes : takesValue kind = true) {x : Option α}
    (read : boundValue value = .ok x) {c' : ColumnPlan α} (effect : applyBound kind x c = .ok c') :
    r.readBound [kind, vector, c.name, value] = .ok { r with columns := done ++ c' :: left } := by
  refine readBound_of_bounded columns fresh target ?_
  unfold boundedColumn
  rw [bare]
  dsimp only
  rw [takes, read]
  exact effect

end Columns
end Reader
end Mps
end MipShrink
