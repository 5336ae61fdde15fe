/-
# Sections that are written

What each section of a written file tells the reader.  A row is known in three steps and a column
in three others, each of which fills in one field or two:

| section | row | column |
| --- | --- | --- |
| `ROWS` | `rowHead`: name and kind | |
| `COLUMNS` | | `columnCosted`: name, cost and integrality |
| `RHS` | `rowSided`: the side | |
| `RANGES` | `rowRanged`: the range | |
| `BOUNDS` | | `columnBounded`: the bounds |

Only `COLUMNS` has lines between those of its elements, which switch between continuous and integral
columns.  Its coefficients are collected by `entriesBelow`, the latest one first.

What has to hold of a program is `Printable`.
-/

import MipShrink.Mps.Writer
import MipShrink.Proofs.Mps.Reading
import MipShrink.Proofs.Throughout.Consistency
import MipShrink.Proofs.Throughout.Representation

namespace MipShrink
namespace Mps

open Text

/-! ### Programs -/

/-- The kind of row that a row is written as. -/
def rowKind {α : Type} (r : Row α) : RowKind :=
  if r.flags.lhsInf then .less
  else if r.flags.rhsInf || !r.flags.equation then .greater
  else .equal

/-- The side of a row that is written. -/
def rowSide (r : Row Rat) : Rat :=
  if r.flags.lhsInf then r.rhs else r.lhs

/-- The numbers that are written for a row that is written. -/
def rowNumbers (r : Row Rat) : List Rat :=
  rowSide r :: (if isRanged r then [r.rhs - r.lhs] else []) ++ r.coeffs.map Prod.snd

/-- The numbers that are written for a column. -/
def columnNumbers (c : Column Rat) : List Rat :=
  c.cost :: (c.lower?.toList ++ c.upper?.toList)

/-- The numbers that are written.  Some of them are left out when they are zero, but zero is read
back anyway (`readsBack_zero`). -/
def numbers (p : Problem Rat) : List Rat :=
  -p.offset :: (p.columns.flatMap columnNumbers ++ (writtenRows p).flatMap rowNumbers)

/-- What a program needs in order to be read as it was written. -/
structure Printable (p : Problem Rat) : Prop where
  canonical : p.Canonical
  inside : ∀ r ∈ p.rows, ∀ e ∈ r.coeffs, e.1 < p.ncols
  rows : ∀ r ∈ p.rows, r.WellFormed
  lower : ∀ c ∈ p.columns, c.flags.lbInf = true → c.lower = 0
  upper : ∀ c ∈ p.columns, c.flags.ubInf = true → c.upper = 0
  consistent : p.Consistent
  /-- No finite bound is read as an infinite one. -/
  small : ∀ c ∈ p.columns, ∀ x ∈ c.lower?.toList ++ c.upper?.toList, Scalar.isHuge x = false
  name : ∀ c ∈ p.name.toList, isBlank c = false
  columnNames : (p.columns.map Column.name).Nodup
  rowNames : (p.rows.map Row.name).Nodup
  columnWords : ∀ c ∈ p.columns, IsWord c.name
  rowWords : ∀ r ∈ p.rows, IsWord r.name
  /-- No row is taken for the objective or for a marker. -/
  reserved : ∀ r ∈ writtenRows p, r.name ≠ objectiveName ∧ r.name ≠ "'MARKER'"
  numbers : ∀ x ∈ numbers p, ReadsBack x

/-- Of elements with different names those before one have other names. -/
theorem name_ne_of_nodup {β : Type} {name : β → String} {l done left : List β} {b : β}
    (nodup : (l.map name).Nodup) (split : l = done ++ b :: left) :
    ∀ a ∈ done, name a ≠ name b := by
  intro a mem
  rw [split, List.map_append, List.nodup_append] at nodup
  exact nodup.2.2 _ (List.mem_map_of_mem mem) _ (List.mem_map_of_mem List.mem_cons_self)

namespace Printable

variable {p : Problem Rat}

/-- The written rows are those that have to be. -/
theorem writtenRows_eq (h : Printable p) : writtenRows p = p.rows.filter isWritten := by
  unfold writtenRows Problem.allRows
  rw [h.canonical.surplus]
  exact congrArg _ (List.append_nil _)

/-- A written row is a row of the program. -/
theorem mem_rows (h : Printable p) {r : Row Rat} (mem : r ∈ writtenRows p) :
    r ∈ p.rows ∧ isWritten r = true := by
  rw [h.writtenRows_eq] at mem
  exact List.mem_filter.1 mem

/-- The written rows have different names. -/
theorem writtenNames (h : Printable p) : ((writtenRows p).map Row.name).Nodup := by
  rw [h.writtenRows_eq]
  exact h.rowNames.sublist (List.filter_sublist.map _)

/-- The constant of the objective reads back. -/
theorem readsBack_offset (h : Printable p) : ReadsBack (-p.offset) :=
  h.numbers _ List.mem_cons_self

/-- The numbers of a column read back. -/
theorem readsBack_column (h : Printable p) {c : Column Rat} (mem : c ∈ p.columns) :
    ∀ x ∈ columnNumbers c, ReadsBack x := fun x number =>
  h.numbers x (List.mem_cons_of_mem _
    (List.mem_append_left _ (List.mem_flatMap.2 ⟨c, mem, number⟩)))

/-- The numbers of a written row read back. -/
theorem readsBack_row (h : Printable p) {r : Row Rat} (mem : r ∈ writtenRows p) :
    ∀ x ∈ rowNumbers r, ReadsBack x := fun x number =>
  h.numbers x (List.mem_cons_of_mem _
    (List.mem_append_right _ (List.mem_flatMap.2 ⟨r, mem, number⟩)))

/-- The side of a written row reads back. -/
theorem readsBack_side (h : Printable p) {r : Row Rat} (mem : r ∈ writtenRows p) :
    ReadsBack (rowSide r) :=
  h.readsBack_row mem _ (List.mem_append_left _ List.mem_cons_self)

/-- The coefficients of a written row read back. -/
theorem readsBack_coeff (h : Printable p) {r : Row Rat} (mem : r ∈ writtenRows p) {e : Nat × Rat}
    (entry : e ∈ r.coeffs) : ReadsBack e.2 :=
  h.readsBack_row mem _ (List.mem_append_right _ (List.mem_map_of_mem entry))

/-- The range of a written row reads back. -/
theorem readsBack_range (h : Printable p) {r : Row Rat} (mem : r ∈ writtenRows p)
    (ranged : isRanged r = true) : ReadsBack (r.rhs - r.lhs) := by
  refine h.readsBack_row mem _ (List.mem_append_left _ (List.mem_cons_of_mem _ ?_))
  rw [if_pos ranged]
  exact List.mem_singleton_self _

end Printable

/-! ### The beginning and the rows -/

section Opening

variable {α : Type} [Scalar α]

/-- The first line gives the name, which may be empty. -/
theorem reads_name {name : String} (h : ∀ c ∈ name.toList, isBlank c = false) :
    Reads Reader.start ["NAME " ++ name] { (Reader.start : Reader α) with name := name } := by
  have begins : ("NAME " ++ name).toList = 'N' :: ("AME ".toList ++ name.toList) :=
    String.toList_append
  have words : wordsOf ("NAME " ++ name).toList = ["NAME"] ++ wordsOf name.toList :=
    wordsOf_append (by decide) name
  refine .single (Unbroken.append (by decide) (unbroken_of_not_blank h)) ?_
  unfold Reader.readLine Reader.readWords
  rw [words, begins]
  by_cases empty : name = ""
  · subst empty
    rfl
  · rw [wordsOf_word ⟨empty, h⟩]
    rfl

/-- The reader behind the line of the objective. -/
def opened (p : Problem α) : Reader α :=
  { place := .rows, inMarker := false, name := p.name, sense := p.sense, offset := 0
    objective := some objectiveName, freeRows := [], rows := [], columns := [], entries := [] }

/-- The first lines open the section of the rows. -/
theorem reads_opening {p : Problem α} (name : ∀ c ∈ p.name.toList, isBlank c = false) :
    Reads Reader.start (["NAME " ++ p.name] ++
      (if p.sense = .maximize then ["OBJSENSE", "    MAX"] else []) ++
      ["ROWS", " N  " ++ objectiveName]) (opened p) := by
  have header (r : Reader α) := Reads.header .rows (by decide) r
  have objective (r : Reader α) (place : r.place = .rows) (none : r.objective = none) :
      Reads r [" N  " ++ objectiveName] { r with objective := some objectiveName } := by
    have line : DataLine (" N  " ++ objectiveName) ["N", objectiveName] :=
      ⟨by decide, by decide, by decide⟩
    refine .data line (List.cons_ne_nil _ _) ?_
    refine (Reader.readData_rows place).trans ?_
    unfold Reader.readRow
    dsimp only
    rw [if_pos rfl, none]
  rw [List.append_assoc]
  refine (reads_name name).append ?_
  unfold opened
  cases p.sense with
  | minimize =>
    exact (header _).append (objective _ rfl rfl)
  | maximize =>
    have opens (r : Reader α) := Reads.header .objSense (by decide) r
    have sense (r : Reader α) (place : r.place = .objSense) :
        Reads r ["    MAX"] { r with sense := .maximize } := by
      have line : DataLine "    MAX" ["MAX"] := ⟨by decide, by decide, by decide⟩
      refine .data line (List.cons_ne_nil _ _) ?_
      unfold Reader.readData
      rw [place]
      rfl
    exact (opens _).append ((sense _ rfl).append ((header _).append (objective _ rfl rfl)))

/-- A row behind `ROWS`. -/
def rowHead (r : Row α) : RowData α :=
  ⟨r.name, rowKind r, 0, none⟩

omit [Scalar α] in
/-- The line that declares a row. -/
theorem rowLine {x : Row α} (word : IsWord x.name) :
    DataLine (" " ++ rowLetter x ++ "  " ++ x.name) [rowLetter x, x.name] := by
  have line {letter : String} (start : DataLine (" " ++ letter ++ "  ") [letter])
      (blank : (" " ++ letter ++ "  ").toList.getLast?.any isBlank = true) :
      DataLine (" " ++ letter ++ "  " ++ x.name) [letter, x.name] :=
    start.word blank word
  unfold rowLetter
  split
  · exact line ⟨by decide, by decide, by decide⟩ (by decide)
  · split
    · exact line ⟨by decide, by decide, by decide⟩ (by decide)
    · exact line ⟨by decide, by decide, by decide⟩ (by decide)

/-- A row is declared. -/
theorem reads_rowLine {r : Reader α} (place : r.place = .rows) {x : Row α} (word : IsWord x.name)
    (fresh : ∀ y ∈ r.rows, y.name ≠ x.name) :
    Reads r [" " ++ rowLetter x ++ "  " ++ x.name] { r with rows := r.rows ++ [rowHead x] } := by
  have add (kind : RowKind) : Reader.readRow.add r kind x.name =
      .ok { r with rows := r.rows ++ [⟨x.name, kind, 0, none⟩] } := Reader.add_eq fresh
  refine .data (rowLine word) (List.cons_ne_nil _ _) ((Reader.readData_rows place).trans ?_)
  unfold rowLetter rowHead rowKind
  split
  · exact add .less
  · split
    · exact add .greater
    · exact add .equal

/-- The lines of the rows add them in order. -/
theorem reads_rows {p : Problem α} (names : ((writtenRows p).map Row.name).Nodup)
    (words : ∀ x ∈ writtenRows p, IsWord x.name) :
    Reads (opened p) ((writtenRows p).map fun r => " " ++ rowLetter r ++ "  " ++ r.name)
      { opened p with rows := (writtenRows p).map rowHead } := by
  rw [List.map_eq_flatMap]
  refine Reads.flatMap (fun done _ => { opened p with rows := done.map rowHead })
    fun done x left split => ?_
  have mem : x ∈ writtenRows p := split ▸ List.mem_append_right _ List.mem_cons_self
  have fresh : ∀ y ∈ done.map rowHead, y.name ≠ x.name :=
    List.forall_mem_map.2 (name_ne_of_nodup names split)
  have line := reads_rowLine (r := { opened p with rows := done.map rowHead }) rfl
    (words x mem) fresh
  rw [List.map_append]
  exact line

end Opening

/-! ### Right-hand sides and ranges -/

/-- A row behind `RHS`. -/
def rowSided (r : Row Rat) : RowData Rat :=
  { rowHead r with rhs := rowSide r }

/-- A row behind `RANGES`. -/
def rowRanged (r : Row Rat) : RowData Rat :=
  { rowSided r with range := if isRanged r then some (r.rhs - r.lhs) else none }

/-- A line of the right-hand sides. -/
theorem rhsLine {name value : String} (word : IsWord name) (value' : IsWord value) :
    DataLine ("    RHS " ++ name ++ " " ++ value) ["RHS", name, value] :=
  have start : DataLine "    RHS " ["RHS"] := ⟨by decide, by decide, by decide⟩
  (start.word (by decide) word).next value'

/-- A line of the ranges. -/
theorem rangeLine {name value : String} (word : IsWord name) (value' : IsWord value) :
    DataLine ("    RNG " ++ name ++ " " ++ value) ["RNG", name, value] :=
  have start : DataLine "    RNG " ["RNG"] := ⟨by decide, by decide, by decide⟩
  (start.word (by decide) word).next value'

/-- The line of the constant of the objective, which is left out when the constant is zero. -/
theorem reads_offset {p : Problem Rat} (h : Printable p) {r : Reader Rat} (place : r.place = .rhs)
    (objective : r.objective = some objectiveName) (offset : r.offset = 0) :
    Reads r (if Scalar.isZero p.offset then []
      else ["    RHS " ++ objectiveName ++ " " ++ Scalar.text (-p.offset)])
      { r with offset := p.offset } := by
  split
  · rename_i zero
    have same : p.offset = 0 := eq_of_beq zero
    rw [same, ← offset]
    exact .nil r
  · have name : IsWord objectiveName := by decide
    refine .data (rhsLine name (isWord_text (-p.offset))) (List.cons_ne_nil _ _) ?_
    refine (Reader.readData_rhs place).trans ((Reader.readPairs_three ..).trans ?_)
    rw [Reader.readRhs_objective objective h.readsBack_offset, Rat.neg_neg]

section RowLines

variable {r : Reader Rat} {done left : List (RowData Rat)} {x : Row Rat}

/-- The line of a side, which is left out when the side is zero. -/
theorem reads_side (place : r.place = .rhs) (objective : r.objective = some objectiveName)
    (rows : r.rows = done ++ rowHead x :: left) (fresh : ∀ y ∈ done, y.name ≠ x.name)
    (word : IsWord x.name) (other : x.name ≠ objectiveName) (back : ReadsBack (rowSide x)) :
    Reads r (if Scalar.isZero (rowSide x) then none
      else some ("    RHS " ++ x.name ++ " " ++ Scalar.text (rowSide x))).toList
      { r with rows := done ++ rowSided x :: left } := by
  split
  · rename_i zero
    have same : rowSided x = rowHead x := by
      unfold rowSided
      rw [eq_of_beq zero]
      rfl
    rw [same, ← rows]
    exact .nil r
  · have notObjective : r.objective ≠ some x.name := by
      rw [objective]
      exact fun same => other (Option.some.inj same).symm
    refine .data (rhsLine word (isWord_text (rowSide x))) (List.cons_ne_nil _ _) ?_
    refine (Reader.readData_rhs place).trans ((Reader.readPairs_three ..).trans ?_)
    exact Reader.readRhs_row rows fresh notObjective back

/-- The line of a range. -/
theorem reads_range (place : r.place = .ranges) (rows : r.rows = done ++ rowSided x :: left)
    (fresh : ∀ y ∈ done, y.name ≠ x.name) (word : IsWord x.name)
    (back : isRanged x = true → ReadsBack (x.rhs - x.lhs)) :
    Reads r
      (if isRanged x then ["    RNG " ++ x.name ++ " " ++ Scalar.text (x.rhs - x.lhs)] else [])
      { r with rows := done ++ rowRanged x :: left } := by
  unfold rowRanged
  split
  · rename_i ranged
    refine .data (rangeLine word (isWord_text (x.rhs - x.lhs))) (List.cons_ne_nil _ _) ?_
    refine (Reader.readData_ranges place).trans ((Reader.readPairs_three ..).trans ?_)
    exact Reader.readRange_row rows fresh (back ranged)
  · have same : { rowSided x with range := none } = rowSided x := rfl
    rw [same, ← rows]
    exact .nil r

end RowLines

/-- The lines of the right-hand sides fill in the constant of the objective and the sides. -/
theorem reads_rhs {p : Problem Rat} (h : Printable p) (columns : List (ColumnPlan Rat))
    (entries : List ((Nat × Nat) × Rat)) :
    let r : Reader Rat := { opened p with place := .rhs, columns := columns, entries := entries }
    Reads { r with rows := (writtenRows p).map rowHead } (rhsLines p)
      { r with offset := p.offset, rows := (writtenRows p).map rowSided } := by
  intro r
  unfold rhsLines
  refine (reads_offset (r := { r with rows := (writtenRows p).map rowHead })
    h rfl rfl rfl).append ?_
  rw [List.filterMap_eq_flatMap_toList]
  refine Reads.replace (fun rows => { r with offset := p.offset, rows := rows })
    fun done x left split => ?_
  have mem : x ∈ writtenRows p := split ▸ List.mem_append_right _ List.mem_cons_self
  have fresh : ∀ y ∈ done.map rowSided, y.name ≠ x.name :=
    List.forall_mem_map.2 (name_ne_of_nodup h.writtenNames split)
  exact reads_side rfl rfl rfl fresh (h.rowWords x (h.mem_rows mem).1) (h.reserved x mem).1
    (h.readsBack_side mem)

/-- Picking elements and changing them is one walk over the list. -/
theorem filter_map_eq_flatMap {β γ : Type} (f : β → Bool) (g : β → γ) (l : List β) :
    (l.filter f).map g = l.flatMap fun b => if f b then [g b] else [] := by
  induction l with
  | nil => rfl
  | cons b l ih =>
    rw [List.filter_cons, List.flatMap_cons, ← ih]
    cases f b <;> rfl

/-- Only rows that are written have ranges. -/
theorem Printable.filter_isRanged {p : Problem Rat} (h : Printable p) :
    p.rows.filter isRanged = (writtenRows p).filter isRanged := by
  rw [h.writtenRows_eq, List.filter_filter]
  refine List.filter_congr fun x _ => ?_
  unfold isRanged
  cases isWritten x with
  | true => exact (Bool.and_true _).symm
  | false => rfl

/-- The lines of the ranges, if there are any, fill in the ranges. -/
theorem reads_ranges {p : Problem Rat} (h : Printable p) (r : Reader Rat) :
    Reads { r with place := .rhs, rows := (writtenRows p).map rowSided }
      (rangeLines p ++ ["BOUNDS"])
      { r with place := .bounds, rows := (writtenRows p).map rowRanged } := by
  have header (r : Reader Rat) := Reads.header .bounds (by decide) r
  unfold rangeLines
  rw [h.filter_isRanged]
  dsimp only
  split
  · rename_i none
    rw [List.isEmpty_iff, List.filter_eq_nil_iff] at none
    have same : (writtenRows p).map rowRanged = (writtenRows p).map rowSided := by
      refine List.map_congr_left fun x mem => ?_
      unfold rowRanged
      rw [if_neg (none x mem)]
      rfl
    rw [same]
    exact header _
  · have opens (r : Reader Rat) := Reads.header .ranges (by decide) r
    refine ((opens _).append (?_ : Reads _ _ { r with
      place := .ranges, rows := (writtenRows p).map rowRanged })).append (header _)
    rw [filter_map_eq_flatMap]
    refine Reads.replace (fun rows => { r with place := .ranges, rows := rows })
      fun done x left split => ?_
    have mem : x ∈ writtenRows p := split ▸ List.mem_append_right _ List.mem_cons_self
    have fresh : ∀ y ∈ done.map rowRanged, y.name ≠ x.name :=
      List.forall_mem_map.2 (name_ne_of_nodup h.writtenNames split)
    exact reads_range rfl rfl fresh (h.rowWords x (h.mem_rows mem).1) (h.readsBack_range mem)

/-! ### Bounds -/

/-- A column behind `COLUMNS`. -/
def columnCosted (c : Column Rat) : ColumnPlan Rat :=
  ⟨c.name, c.cost, some 0, none, c.isIntegral⟩

/-- A column behind `BOUNDS`. -/
def columnBounded (c : Column Rat) : ColumnPlan Rat :=
  { columnCosted c with lower := c.lower?, upper := c.upper? }

section BoundLines

variable {r : Reader Rat} {done left : List (ColumnPlan Rat)} {c : ColumnPlan Rat}

/-- A bound without value. -/
theorem reads_bareBound (place : r.place = .bounds) (columns : r.columns = done ++ c :: left)
    (fresh : ∀ y ∈ done, y.name ≠ c.name) (word : IsWord c.name) (kind : String)
    (start : DataLine (" " ++ kind ++ " BND ") [kind, "BND"])
    (blank : (" " ++ kind ++ " BND ").toList.getLast?.any isBlank = true)
    (target : Reader.boundTarget kind [kind, "BND", c.name] = .ok (c.name, none))
    {c' : ColumnPlan Rat} (effect : Reader.applyBareBound? kind c = some c') :
    Reads r [" " ++ kind ++ " BND " ++ c.name] { r with columns := done ++ c' :: left } := by
  refine .data (start.word blank word) (List.cons_ne_nil _ _) ?_
  exact (Reader.readData_bounds place).trans (Reader.readBound_bare columns fresh target effect)

/-- A bound with a value. -/
theorem reads_bound (place : r.place = .bounds) (columns : r.columns = done ++ c :: left)
    (fresh : ∀ y ∈ done, y.name ≠ c.name) (word : IsWord c.name) (kind : String)
    (start : DataLine (" " ++ kind ++ " BND ") [kind, "BND"])
    (blank : (" " ++ kind ++ " BND ").toList.getLast?.any isBlank = true) {a : Rat}
    (target : Reader.boundTarget kind [kind, "BND", c.name, Scalar.text a] =
      .ok (c.name, some (Scalar.text a)))
    (bare : Reader.applyBareBound? kind c = none) (takes : Reader.takesValue kind = true)
    (back : ReadsBack a) (small : Scalar.isHuge a = false) {c' : ColumnPlan Rat}
    (effect : Reader.applyBound kind (some a) c = .ok c') :
    Reads r [" " ++ kind ++ " BND " ++ c.name ++ " " ++ Scalar.text a]
      { r with columns := done ++ c' :: left } := by
  refine .data ((start.word blank word).next (isWord_text a)) (List.cons_ne_nil _ _) ?_
  refine (Reader.readData_bounds place).trans ?_
  exact Reader.readBound_value columns fresh target bare takes (boundValue_text back small) effect

end BoundLines

section BoundLines

variable {c : Column Rat} {left : List (ColumnPlan Rat)} {done : List (ColumnPlan Rat)}

/-- The line of an upper bound, unless it takes the lower bound away. -/
theorem reads_upperLine {r : Reader Rat} (lower : Option Rat) (place : r.place = .bounds)
    (columns : r.columns = done ++ { columnCosted c with lower := lower } :: left)
    (fresh : ∀ y ∈ done, y.name ≠ c.name) (word : IsWord c.name) {u : Rat} (back : ReadsBack u)
    (small : Scalar.isHuge u = false)
    (kept : (Scalar.isNegative u && lower.any Scalar.isZero) = false) :
    Reads r (boundLines.upperLine c u) { r with
      columns := done ++ { columnCosted c with lower := lower, upper := some u } :: left } := by
  refine reads_bound place columns fresh word "UP" ⟨by decide, by decide, by decide⟩ (by decide) rfl
    rfl rfl back small ?_
  unfold Reader.applyBound
  dsimp only [Option.any_some]
  rw [if_pos rfl, kept]
  rfl

/-- The line of a lower bound, which is left out when the bound is zero. -/
theorem reads_lowerLine {r : Reader Rat} (place : r.place = .bounds)
    (columns : r.columns = done ++ columnCosted c :: left)
    (fresh : ∀ y ∈ done, y.name ≠ c.name) (word : IsWord c.name) {l : Rat} (back : ReadsBack l)
    (small : Scalar.isHuge l = false) :
    Reads r (boundLines.lowerLine c l)
      { r with columns := done ++ { columnCosted c with lower := some l } :: left } := by
  unfold boundLines.lowerLine
  split
  · rename_i zero
    obtain rfl : l = 0 := eq_of_beq zero
    have same : { columnCosted c with lower := some 0 } = columnCosted c := rfl
    rw [same, ← columns]
    exact .nil r
  · exact reads_bound place columns fresh word "LO" ⟨by decide, by decide, by decide⟩ (by decide)
      rfl rfl rfl back small rfl

/-- An upper bound that is not below the lower bound does not take it away. -/
theorem not_loose_of_le {l u : Rat} (le : l ≤ u) :
    (Scalar.isNegative u && (some l).any Scalar.isZero) = false := by
  rw [Bool.and_eq_false_iff]
  refine or_iff_not_imp_right.2 fun notZero => ?_
  obtain rfl : l = 0 := eq_of_beq (Bool.of_not_eq_false notZero)
  exact decide_eq_false (Rat.not_lt.2 le)

/-- **The lines of a column give it its bounds.**  The reader lets a column begin at zero, so this
bound need not be written; and it takes this bound away at a negative upper bound, which cannot be
as the bounds are in order. -/
theorem reads_boundLines {r : Reader Rat} (place : r.place = .bounds)
    (columns : r.columns = done ++ columnCosted c :: left)
    (fresh : ∀ y ∈ done, y.name ≠ c.name) (word : IsWord c.name) (consistent : c.Consistent)
    (back : ∀ x ∈ c.lower?.toList ++ c.upper?.toList, ReadsBack x)
    (small : ∀ x ∈ c.lower?.toList ++ c.upper?.toList, Scalar.isHuge x = false) :
    Reads r (boundLines c) { r with columns := done ++ columnBounded c :: left } := by
  unfold Column.Consistent at consistent
  unfold boundLines columnBounded
  -- Which lines there are depends on which bounds are finite, and on whether both are equal.
  cases lower : c.lower? with
  | none =>
    cases upper : c.upper? with
    | none =>
      exact reads_bareBound place columns fresh word "FR" ⟨by decide, by decide, by decide⟩
        (by decide) rfl rfl
    | some u =>
      rw [lower, upper] at back small
      have mem : u ∈ (none : Option Rat).toList ++ (some u).toList := List.mem_singleton_self u
      have minus := reads_bareBound place columns fresh word "MI"
        ⟨by decide, by decide, by decide⟩ (by decide) rfl rfl
      refine minus.append (reads_upperLine none ?_ ?_ fresh word (back u mem) (small u mem)
        (Bool.and_false _))
      · exact place
      · rfl
  | some l =>
    cases upper : c.upper? with
    | none =>
      rw [lower, upper] at back small
      have mem : l ∈ (some l).toList ++ (none : Option Rat).toList := List.mem_singleton_self l
      exact reads_lowerLine place columns fresh word (back l mem) (small l mem)
    | some u =>
      rw [lower, upper] at back small consistent
      have first : l ∈ (some l).toList ++ (some u).toList := List.mem_cons_self
      have second : u ∈ (some l).toList ++ (some u).toList :=
        List.mem_cons_of_mem _ (List.mem_singleton_self u)
      have le : l ≤ u := consistent l rfl u rfl
      dsimp only
      split
      · rename_i same
        obtain rfl : l = u := eq_of_beq same
        exact reads_bound place columns fresh word "FX" ⟨by decide, by decide, by decide⟩
          (by decide) rfl rfl rfl (back l first) (small l first) rfl
      · have below := reads_lowerLine place columns fresh word (back l first) (small l first)
        refine below.append (reads_upperLine (some l) ?_ ?_ fresh word (back u second)
          (small u second) (not_loose_of_le le))
        · exact place
        · rfl

end BoundLines

/-- The lines of the bounds give all columns their bounds. -/
theorem reads_bounds {p : Problem Rat} (h : Printable p) {r : Reader Rat}
    (place : r.place = .bounds) :
    Reads { r with columns := p.columns.map columnCosted } (p.columns.flatMap boundLines)
      { r with columns := p.columns.map columnBounded } := by
  refine Reads.replace (fun columns => { r with columns := columns }) fun done c left split => ?_
  have mem : c ∈ p.columns := split ▸ List.mem_append_right _ List.mem_cons_self
  have fresh : ∀ y ∈ done.map columnBounded, y.name ≠ c.name :=
    List.forall_mem_map.2 (name_ne_of_nodup h.columnNames split)
  exact reads_boundLines place rfl fresh (h.columnWords c mem) (h.consistent.columns c mem)
    (fun x number => h.readsBack_column mem x (List.mem_cons_of_mem _ number)) (h.small c mem)

end Mps
end MipShrink
