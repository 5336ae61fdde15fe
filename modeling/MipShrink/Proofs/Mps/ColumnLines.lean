/-
# The columns of a written file

Each column has at least one line, so that the reader meets the columns in their order.  The first
of its lines adds the column, continuous or integral as it has been announced; by then it does not
matter which of the lines this is (`Reads.of_withColumn`).  Afterwards each line fills in the cost
or adds a coefficient (`reads_entries`).

What has been read is the list `entriesBelow`, the latest coefficient first: those of the last
column from the last row up, and so on back to the first column.
-/

import MipShrink.Proofs.Mps.Sections

namespace MipShrink
namespace Mps

open Text

/-- The coefficients of a column, from the first row down. -/
def entriesAt (j : Nat) (rows : List (Row Rat)) : List ((Nat × Nat) × Rat) :=
  rows.zipIdx.filterMap fun e => (e.1.coeff? j).map fun a => ((e.2, j), a)

/-- The coefficients of the columns below a place, the latest one first. -/
def entriesBelow (rows : List (Row Rat)) : Nat → List ((Nat × Nat) × Rat)
  | 0 => []
  | j + 1 => (entriesAt j rows).reverse ++ entriesBelow rows j

/-- A row that is added has its entries behind those of the others. -/
theorem entriesAt_concat (j : Nat) (rows : List (Row Rat)) (r : Row Rat) :
    entriesAt j (rows ++ [r]) =
      entriesAt j rows ++ ((r.coeff? j).map fun a => ((rows.length, j), a)).toList := by
  unfold entriesAt
  rw [List.zipIdx_append, List.filterMap_append, Nat.zero_add]
  refine congrArg _ ?_
  show List.filterMap _ [(r, rows.length)] = _
  rw [List.filterMap_cons]
  cases r.coeff? j <;> rfl

/-- The coefficients of a column that are written, row by row. -/
theorem map_columnRows {p : Problem Rat} (h : Printable p) (j : Nat) (f : Row Rat × Rat → String) :
    ((p.columnRows j).filter fun e => isWritten e.1).map f =
      (writtenRows p).flatMap fun r => ((r.coeff? j).map fun a => f (r, a)).toList := by
  have rows : p.columnRows j = p.rows.filterMap fun r => (r.coeff? j).map fun a => (r, a) := by
    unfold Problem.columnRows
    rw [h.canonical.surplus]
  rw [rows, h.writtenRows_eq, ← List.filterMap_eq_flatMap_toList, List.filter_filterMap,
    List.map_filterMap, List.filterMap_filter]
  refine List.filterMap_congr fun r _ => ?_
  cases r.coeff? j with
  | none => cases isWritten r <;> rfl
  | some a =>
    rw [Option.map_some, Option.filter_some]
    cases isWritten r <;> rfl

/-! ### One column -/

/-- The line of the cost of a column, which is left out when the cost is zero. -/
def costLines {α : Type} [Scalar α] (c : Column α) : List String :=
  if Scalar.isZero c.cost then []
  else ["    " ++ c.name ++ " " ++ objectiveName ++ " " ++ Scalar.text c.cost]

/-- The lines of the coefficients of a column. -/
def entryLines {α : Type} [Scalar α] (p : Problem α) (j : Nat) (c : Column α) : List String :=
  ((p.columnRows j).filter fun e => isWritten e.1).map fun e =>
    "    " ++ c.name ++ " " ++ e.1.name ++ " " ++ Scalar.text e.2

/-- A column of which nothing is to be told has one line all the same. -/
theorem columnLines_eq {α : Type} [Scalar α] (p : Problem α) (j : Nat) (c : Column α) :
    columnLines p j c =
      if (costLines c ++ entryLines p j c).isEmpty then
        ["    " ++ c.name ++ " " ++ objectiveName ++ " 0"]
      else costLines c ++ entryLines p j c := rfl

/-- A line of a column that is not a marker. -/
def IsEntryLine (name l : String) : Prop :=
  ∃ row value, DataLine l [name, row, value] ∧ row ≠ "'MARKER'"

/-- **Adding a column in advance makes no difference** to the lines of this column. -/
theorem Reads.of_withColumn {r r₁ r' : Reader Rat} {ls : List String} {name : String}
    (h : Reads r₁ ls r') (place : r.place = .columns) (place₁ : r₁.place = .columns)
    (same : r₁.withColumn name = r.withColumn name) (some : ls ≠ [])
    (lines : ∀ l ∈ ls, IsEntryLine name l) : Reads r ls r' := by
  cases ls with
  | nil => exact absurd rfl some
  | cons l ls =>
    refine ⟨h.unbroken, ?_⟩
    obtain ⟨row, value, line, noMarker⟩ := lines l List.mem_cons_self
    have words : [name, row, value] ≠ [] := List.cons_ne_nil _ _
    have first : r.readLine l.toList = r₁.readLine l.toList := by
      rw [Reads.readLine_of_data line words, Reads.readLine_of_data line words,
        Reader.readData_columns place, Reader.readData_columns place₁,
        Reader.readColumn_three noMarker, Reader.readColumn_three noMarker, same]
    have result := h.result
    rw [List.foldlM_cons, ← first] at result
    rw [List.foldlM_cons]
    exact result

/-- A column that has been added and of which nothing has been read. -/
def columnNew (c : Column Rat) : ColumnPlan Rat :=
  { columnCosted c with cost := 0 }

section OneColumn

variable {p : Problem Rat} {r : Reader Rat} {done : List (ColumnPlan Rat)} {c : Column Rat}

/-- The line of a coefficient or a cost. -/
theorem entryLine {name row value : String} (word : IsWord name) (row' : IsWord row)
    (value' : IsWord value) :
    DataLine ("    " ++ name ++ " " ++ row ++ " " ++ value) [name, row, value] :=
  have start : DataLine "    " [] := ⟨by decide, by decide, by decide⟩
  ((start.word (by decide) word).next row').next value'

/-- The line of a coefficient of a column, which is the last one so far. -/
theorem reads_entry {before left : List (RowData Rat)} {x : Row Rat} {last : ColumnPlan Rat}
    (place : r.place = .columns) (objective : r.objective = some objectiveName)
    (rows : r.rows = before ++ rowHead x :: left) (freshRow : ∀ y ∈ before, y.name ≠ x.name)
    (columns : r.columns = done ++ [last]) (fresh : ∀ y ∈ done, y.name ≠ last.name)
    (word : IsWord last.name) (wordRow : IsWord x.name)
    (reserved : x.name ≠ objectiveName ∧ x.name ≠ "'MARKER'") {a : Rat} (back : ReadsBack a)
    (nonzero : Scalar.isZero a = false) :
    Reads r ["    " ++ last.name ++ " " ++ x.name ++ " " ++ Scalar.text a]
      { r with entries := ((before.length, done.length), a) :: r.entries } := by
  have other : r.objective ≠ some x.name := by
    rw [objective]
    exact fun same => reserved.1 (Option.some.inj same).symm
  refine .data (entryLine word wordRow (isWord_text a)) (List.cons_ne_nil _ _) ?_
  refine (Reader.readData_columns place).trans ((Reader.readColumn_three reserved.2).trans ?_)
  rw [Reader.withColumn_eq columns fresh]
  exact Reader.readEntry_row rows freshRow other back nonzero done.length

/-- The lines of the coefficients of a column, which is the last one so far. -/
theorem reads_entries (h : Printable p) (mem : c ∈ p.columns) {cost : Rat}
    (place : r.place = .columns) (objective : r.objective = some objectiveName)
    (rows : r.rows = (writtenRows p).map rowHead)
    (columns : r.columns = done ++ [{ columnNew c with cost := cost }])
    (fresh : ∀ y ∈ done, y.name ≠ c.name) :
    Reads r (entryLines p done.length c)
      { r with entries := (entriesAt done.length (writtenRows p)).reverse ++ r.entries } := by
  unfold entryLines
  rw [map_columnRows h]
  refine Reads.flatMap (fun rows _ => { r with
    entries := (entriesAt done.length rows).reverse ++ r.entries }) fun before x left split => ?_
  rw [entriesAt_concat]
  cases entry : x.coeff? done.length with
  | none =>
    show Reads _ [] { r with entries := (entriesAt done.length before ++ []).reverse ++ r.entries }
    rw [List.append_nil]
    exact .nil _
  | some a =>
    have mem' : x ∈ writtenRows p := split ▸ List.mem_append_right _ List.mem_cons_self
    have row := (h.mem_rows mem').1
    have canonical := h.canonical.rows x row
    have stored := canonical.coeff?_eq_some_iff.1 entry
    have rows' : r.rows = before.map rowHead ++ rowHead x :: left.map rowHead := by
      rw [rows, split, List.map_append]
      rfl
    have freshRow : ∀ y ∈ before.map rowHead, y.name ≠ x.name :=
      List.forall_mem_map.2 (name_ne_of_nodup h.writtenNames split)
    have line := reads_entry (r := { r with
        entries := (entriesAt done.length before).reverse ++ r.entries }) place objective rows'
      freshRow columns fresh (h.columnWords c mem) (h.rowWords x row) (h.reserved x mem')
      (h.readsBack_coeff mem' stored) (canonical.nonzero _ stored)
    rw [List.length_map] at line
    rw [List.reverse_append]
    exact line

/-- A column that is the last one so far is found. -/
theorem withColumn_last (columns : r.columns = done ++ [columnNew c])
    (fresh : ∀ y ∈ done, y.name ≠ c.name) : r.withColumn c.name = (done.length, r) :=
  Reader.withColumn_eq columns fresh

/-- The line of a cost fills it in. -/
theorem reads_cost (h : Printable p) (mem : c ∈ p.columns) (place : r.place = .columns)
    (objective : r.objective = some objectiveName)
    (columns : r.columns = done ++ [columnNew c]) (fresh : ∀ y ∈ done, y.name ≠ c.name) :
    Reads r (costLines c) { r with columns := done ++ [columnCosted c] } := by
  unfold costLines
  split
  · rename_i zero
    have same : columnCosted c = columnNew c := by
      unfold columnNew columnCosted
      rw [eq_of_beq zero]
    rw [same, ← columns]
    exact .nil r
  · have name : IsWord objectiveName := by decide
    have line := entryLine (h.columnWords c mem) name (isWord_text c.cost)
    refine .data line (List.cons_ne_nil _ _) ?_
    refine (Reader.readData_columns place).trans ((Reader.readColumn_three (by decide)).trans ?_)
    rw [withColumn_last columns fresh]
    have back := h.readsBack_column mem c.cost List.mem_cons_self
    exact Reader.readEntry_cost columns objective (number_text back)

/-- The line of a column of which there is nothing else to tell. -/
theorem placeholderLine {name : String} (word : IsWord name) :
    DataLine ("    " ++ name ++ " " ++ objectiveName ++ " 0") [name, objectiveName, "0"] := by
  have zero : " 0" = " " ++ "0" := by decide
  rw [zero, ← String.append_assoc]
  exact entryLine word (by decide) (by decide)

/-- The line that only names a column changes nothing once the column is there. -/
theorem reads_placeholder (word : IsWord c.name) (place : r.place = .columns)
    (objective : r.objective = some objectiveName)
    (columns : r.columns = done ++ [columnNew c]) (fresh : ∀ y ∈ done, y.name ≠ c.name) :
    Reads r ["    " ++ c.name ++ " " ++ objectiveName ++ " 0"] r := by
  have text : Scalar.text (0 : Rat) = "0" := by decide +kernel
  have zero : number "0" = .ok (0 : Rat) := text ▸ number_text readsBack_zero
  refine .data (placeholderLine word) (List.cons_ne_nil _ _) ?_
  refine (Reader.readData_columns place).trans ((Reader.readColumn_three (by decide)).trans ?_)
  rw [withColumn_last columns fresh]
  refine (Reader.readEntry_cost columns objective zero).trans ?_
  show Except.ok { r with columns := done ++ [columnNew c] } = _
  rw [← columns]

/-- The lines of a column that has been added in advance. -/
theorem reads_columnLines_added (h : Printable p) (mem : c ∈ p.columns) (place : r.place = .columns)
    (objective : r.objective = some objectiveName)
    (rows : r.rows = (writtenRows p).map rowHead)
    (columns : r.columns = done ++ [columnNew c]) (fresh : ∀ y ∈ done, y.name ≠ c.name) :
    Reads r (columnLines p done.length c)
      { r with
        columns := done ++ [columnCosted c]
        entries := (entriesAt done.length (writtenRows p)).reverse ++ r.entries } := by
  have first := reads_cost h mem place objective columns fresh
  have rest := reads_entries (r := { r with columns := done ++ [columnCosted c] }) h mem
    place objective rows rfl fresh
  have both := first.append rest
  rw [columnLines_eq]
  split
  · rename_i none
    rw [List.isEmpty_iff.1 none] at both
    rw [← both.eq_of_nil]
    exact reads_placeholder (h.columnWords c mem) place objective columns fresh
  · exact both

/-- Every column has a line. -/
theorem columnLines_ne_nil (p : Problem Rat) (j : Nat) (c : Column Rat) :
    columnLines p j c ≠ [] := by
  rw [columnLines_eq]
  split
  · exact List.cons_ne_nil _ _
  · rename_i some
    exact fun none => some (List.isEmpty_iff.2 none)

/-- Every line of a column begins with its name. -/
theorem isEntryLine_of_mem_columnLines (h : Printable p) (mem : c ∈ p.columns) (j : Nat) :
    ∀ l ∈ columnLines p j c, IsEntryLine c.name l := by
  have word := h.columnWords c mem
  rw [columnLines_eq]
  split
  · exact List.forall_mem_singleton.2 ⟨_, _, placeholderLine word, by decide⟩
  · unfold costLines entryLines
    rw [map_columnRows h]
    intro l found
    rcases List.mem_append.1 found with found | found
    · split at found
      · exact absurd found List.not_mem_nil
      · rw [List.mem_singleton.1 found]
        exact ⟨_, _, entryLine word (by decide) (isWord_text c.cost), by decide⟩
    · obtain ⟨x, written, found⟩ := List.mem_flatMap.1 found
      rw [Option.mem_toList, Option.map_eq_some_iff] at found
      obtain ⟨a, -, rfl⟩ := found
      exact ⟨_, _, entryLine word (h.rowWords x (h.mem_rows written).1) (isWord_text a),
        (h.reserved x written).2⟩

/-- **The lines of a column** add the column and its coefficients. -/
theorem reads_columnLines (h : Printable p) (mem : c ∈ p.columns) (place : r.place = .columns)
    (marker : r.inMarker = c.isIntegral) (objective : r.objective = some objectiveName)
    (rows : r.rows = (writtenRows p).map rowHead)
    (fresh : ∀ y ∈ r.columns, y.name ≠ c.name) :
    Reads r (columnLines p r.columns.length c)
      { r with
        columns := r.columns ++ [columnCosted c]
        entries := (entriesAt r.columns.length (writtenRows p)).reverse ++ r.entries } := by
  have added : r.withColumn c.name =
      (r.columns.length, { r with columns := r.columns ++ [columnNew c] }) := by
    rw [Reader.withColumn_new fresh, marker]
    rfl
  have last := withColumn_last (r := { r with columns := r.columns ++ [columnNew c] }) rfl fresh
  have lines := reads_columnLines_added (r := { r with columns := r.columns ++ [columnNew c] })
    h mem place objective rows rfl fresh
  exact lines.of_withColumn place place (last.trans added.symm) (columnLines_ne_nil p _ c)
    (isEntryLine_of_mem_columnLines h mem _)

end OneColumn

/-! ### All columns -/

/-- The line that opens or closes a part of integral columns. -/
theorem markerLine_words (count : Nat) (word : String) (quoted : IsWord ("'" ++ word ++ "'")) :
    DataLine (markerLine count word)
      ["MARKER" ++ toString count, "'MARKER'", "'" ++ word ++ "'"] := by
  have apart : markerLine count word =
      "    " ++ ("MARKER" ++ toString count) ++ " " ++ "'MARKER'" ++ " " ++
        ("'" ++ word ++ "'") := by
    unfold markerLine
    rw [show "    MARKER" = "    " ++ "MARKER" from rfl,
      show " 'MARKER' '" = " " ++ "'MARKER'" ++ " " ++ "'" from rfl]
    simp only [String.append_assoc]
  have number : IsWord ("MARKER" ++ toString count) :=
    IsWord.append (by decide) (isWord_digitsOf count)
  rw [apart]
  exact entryLine number (by decide) quoted

/-- A marker turns the announcement of integral columns on or off. -/
theorem reads_markerLine {r : Reader Rat} (place : r.place = .columns) (count : Nat)
    (integral : Bool) :
    Reads r [markerLine count (if integral then "INTORG" else "INTEND")]
      { r with inMarker := integral } := by
  have line := markerLine_words count (if integral then "INTORG" else "INTEND")
    (by cases integral <;> decide)
  refine .data line (List.cons_ne_nil _ _) ((Reader.readData_columns place).trans ?_)
  cases integral <;> rfl

/-- The marker in front of a column, if it is needed. -/
theorem reads_switch {r : Reader Rat} (place : r.place = .columns) (count : Nat) (integral : Bool) :
    Reads r (if integral == r.inMarker then []
      else [markerLine count (if integral then "INTORG" else "INTEND")])
      { r with inMarker := integral } := by
  split
  · rename_i same
    rw [eq_of_beq same]
    exact .nil r
  · exact reads_markerLine place count integral

/-- **The lines of the columns** that are left, when some columns have been read and the last of
them was integral or not. -/
theorem reads_columnsFrom {p : Problem Rat} (h : Printable p) {r : Reader Rat}
    (place : r.place = .columns) (objective : r.objective = some objectiveName)
    (rows : r.rows = (writtenRows p).map rowHead) (left : List (Column Rat)) :
    ∀ (done : List (Column Rat)) (marker : Bool) (count : Nat), p.columns = done ++ left →
      Reads { r with
          inMarker := marker
          columns := done.map columnCosted
          entries := entriesBelow (writtenRows p) done.length }
        (columnsFrom p done.length marker count left)
        { r with
          inMarker := false
          columns := p.columns.map columnCosted
          entries := entriesBelow (writtenRows p) p.ncols } := by
  induction left with
  | nil =>
    intro done marker count split
    rw [List.append_nil] at split
    subst split
    unfold columnsFrom
    cases marker with
    | false => exact .nil _
    | true => exact reads_markerLine (by exact place) count false
  | cons c left ih =>
    intro done marker count split
    have mem : c ∈ p.columns := split ▸ List.mem_append_right _ List.mem_cons_self
    have fresh : ∀ y ∈ done.map columnCosted, y.name ≠ c.name :=
      List.forall_mem_map.2 (name_ne_of_nodup h.columnNames split)
    have switch := reads_switch (r := { r with
      inMarker := marker
      columns := done.map columnCosted
      entries := entriesBelow (writtenRows p) done.length }) place count c.isIntegral
    have lines := reads_columnLines (r := { r with
      inMarker := c.isIntegral
      columns := done.map columnCosted
      entries := entriesBelow (writtenRows p) done.length }) h mem place rfl objective rows fresh
    have rest := ih (done ++ [c]) c.isIntegral
      (if marker && !c.isIntegral then count + 1 else count)
      (split.trans (List.append_cons ..))
    rw [List.length_append, List.length_singleton, List.map_append] at rest
    rw [List.length_map] at lines
    exact (switch.append lines).append rest

end Mps
end MipShrink
