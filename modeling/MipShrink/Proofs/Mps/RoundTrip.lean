/-
# Written programs are read again

The text of a program is read as the same program, up to what a file cannot hold
(`Mps.ofText_toText`): redundant rows and rows without sides are gone, and of the attributes of a
column there are the infinite bounds and whether it is integral.

The file is followed section by section (`Mps.reads_linesOf`).  What has been read then is a
builder, and it describes the columns by their finite bounds, the rows by their finite sides
(`plan_rowRanged`), and each coefficient of a written row by one entry (`lookup_entriesBelow`).
-/

import Mathlib.Data.List.Induction
import MipShrink.Proofs.Mps.ColumnLines

namespace MipShrink

/-- The column with those of its attributes that a file can hold. -/
def Column.declared (c : Column Rat) : Column Rat :=
  { c with flags :=
      { lbInf := c.flags.lbInf, ubInf := c.flags.ubInf, integral := c.isIntegral } }

namespace Mps

variable {p : Problem Rat}

/-! ### The whole file -/

/-- The reader behind the last line. -/
def closed (p : Problem Rat) : Reader Rat :=
  { opened p with
    place := .ends
    offset := p.offset
    rows := (writtenRows p).map rowRanged
    columns := p.columns.map columnBounded
    entries := entriesBelow (writtenRows p) p.ncols }

/-- **The lines of a file**, section by section. -/
theorem reads_linesOf (h : Printable p) : Reads Reader.start (linesOf p) (closed p) := by
  have columns (r : Reader Rat) := Reads.header .columns (by decide) r
  have rhs (r : Reader Rat) := Reads.header .rhs (by decide) r
  have ends (r : Reader Rat) := Reads.header .ends (by decide) r
  have toColumns := ((reads_opening h.name).append (reads_rows h.writtenNames fun x mem =>
    h.rowWords x (h.mem_rows mem).1)).append (columns _)
  have allColumns := reads_columnsFrom (r := { opened p with
    place := .columns, rows := (writtenRows p).map rowHead }) h rfl rfl rfl p.columns [] false 0 rfl
  have toRhs := (toColumns.append allColumns).append (rhs _)
  have sides := reads_rhs h (p.columns.map columnCosted) (entriesBelow (writtenRows p) p.ncols)
  have toBounds := (toRhs.append sides).append (reads_ranges h { opened p with
    offset := p.offset
    columns := p.columns.map columnCosted
    entries := entriesBelow (writtenRows p) p.ncols })
  have bounds := reads_bounds (r := { closed p with place := .bounds }) h rfl
  have toEnd := (toBounds.append bounds).append (ends _)
  unfold linesOf
  rw [List.append_assoc (_ ++ rhsLines p)]
  exact toEnd

/-! ### Columns and rows -/

/-- A column that was declared with the bounds of a written one is as a file can tell it. -/
theorem toColumn_columnBounded {c : Column Rat} (lower : c.flags.lbInf = true → c.lower = 0)
    (upper : c.flags.ubInf = true → c.upper = 0) : (columnBounded c).toColumn = c.declared := by
  obtain ⟨name, cost, l, u, ⟨lbInf, ubInf, integral, implInt, fixed, inactive⟩⟩ := c
  cases lbInf with
  | false => cases ubInf with
    | false => rfl
    | true =>
      obtain rfl : u = 0 := upper rfl
      rfl
  | true =>
    obtain rfl : l = 0 := lower rfl
    cases ubInf with
    | false => rfl
    | true =>
      obtain rfl : u = 0 := upper rfl
      rfl

/-- Bounds that are in order can be built. -/
theorem fault?_columnBounded {c : Column Rat} (consistent : c.Consistent) :
    (columnBounded c).fault? = none := by
  unfold ColumnPlan.fault? columnBounded
  dsimp only
  split
  · rename_i l u lower upper
    exact if_neg (Rat.not_lt.2 (consistent l lower u upper))
  · rfl

/-- **The sides of a row** come back from its kind, its side and its range. -/
theorem plan_rowRanged {r : Row Rat} (wellFormed : r.WellFormed) (written : isWritten r = true)
    (consistent : r.Consistent) : (rowRanged r).plan = ⟨r.name, r.lhs?, r.rhs?⟩ := by
  have equation := wellFormed.equation
  have ordered : Ordered r.lhs? r.rhs? := consistent
  obtain ⟨name, coeffs, lhs, rhs, ⟨lhsInf, rhsInf, isEquation, redundant⟩⟩ := r
  cases redundant with
  | true => cases written
  | false =>
  cases lhsInf with
  | true => cases rhsInf with
    | true => cases written
    | false => rfl
  | false => cases rhsInf with
    | true => rfl
    | false => cases isEquation with
      | true =>
        obtain ⟨x, left, right⟩ := equation.1 rfl
        obtain rfl : lhs = x := Option.some.inj left
        obtain rfl : rhs = lhs := Option.some.inj right
        rfl
      | false =>
        have le : lhs ≤ rhs := ordered lhs rfl rhs rfl
        have width : Scalar.abs (rhs - lhs) = rhs - lhs := if_neg (by grind)
        show RowPlan.mk name (some lhs) (some (lhs + Scalar.abs (rhs - lhs))) = _
        rw [width]
        have back : lhs + (rhs - lhs) = rhs := by grind
        rw [back]
        rfl

/-- A row that is written comes back without its coefficients. -/
theorem toRow_rowRanged {r : Row Rat} (wellFormed : r.WellFormed) (written : isWritten r = true)
    (consistent : r.Consistent) : (rowRanged r).plan.toRow = { r with coeffs := [] } := by
  obtain ⟨equation, lhs0, rhs0⟩ := r.wellFormed_iff.1 wellFormed
  rw [plan_rowRanged wellFormed written consistent]
  obtain ⟨name, coeffs, lhs, rhs, ⟨lhsInf, rhsInf, isEquation, redundant⟩⟩ := r
  cases redundant with
  | true => cases written
  | false =>
  cases lhsInf with
  | true =>
    obtain rfl : lhs = 0 := lhs0 rfl
    obtain rfl : isEquation = false := equation
    cases rhsInf with
    | true => cases written
    | false => rfl
  | false => cases rhsInf with
    | true =>
      obtain rfl : rhs = 0 := rhs0 rfl
      obtain rfl : isEquation = false := equation
      rfl
    | false =>
      obtain rfl : isEquation = (lhs == rhs) := equation
      rfl

/-! ### Coefficients -/

/-- What is looked up is the latest entry of a position. -/
theorem lookup_foldr_add (es : List ((Nat × Nat) × Rat)) (position : Nat × Nat) :
    (es.foldr (fun e c => Changes.add e.1.1 e.1.2 e.2 c) []).lookup position =
      es.lookup position := by
  induction es with
  | nil => rfl
  | cons e es ih =>
    rw [List.foldr_cons, Changes.lookup_add, ih, List.lookup_cons]
    cases position == e.1 <;> rfl

/-- Entries that are added one after the other are in the order of their positions. -/
theorem sorted_foldr_add (es : List ((Nat × Nat) × Rat)) :
    Keyed.Sorted Keyed.positionBefore
      (es.foldr (fun e c => Changes.add e.1.1 e.1.2 e.2 c) []) := by
  induction es with
  | nil => exact Keyed.sorted_nil
  | cons e es ih => exact Changes.sorted_add ih _ _ _

/-- The entry of a row, if it has one. -/
theorem lookup_entry (n i j k : Nat) (r : Row Rat) :
    (((r.coeff? j).map fun a => ((n, j), a)).toList.reverse).lookup (i, k) =
      if i = n ∧ k = j then r.coeff? j else none := by
  cases r.coeff? j with
  | none => exact (ite_self none).symm
  | some a =>
    show List.lookup (i, k) [((n, j), a)] = _
    rw [List.lookup_cons]
    by_cases here : i = n ∧ k = j
    · rw [here.1, here.2, beq_self_eq_true, if_pos ⟨rfl, rfl⟩]
    · have other : ((i, k) == (n, j)) = false :=
        beq_eq_false_iff_ne.2 fun same => here (Prod.mk.injEq .. ▸ same)
      rw [other, if_neg here]
      rfl

/-- Of the entries of a column each row has its coefficient. -/
theorem lookup_entriesAt (j : Nat) (rows : List (Row Rat)) (i k : Nat) :
    (entriesAt j rows).reverse.lookup (i, k) =
      if k = j then (rows[i]?).bind (Row.coeff? j) else none := by
  induction rows using List.reverseRecOn with
  | nil => exact (ite_self none).symm
  | append_singleton rows r ih =>
    rw [entriesAt_concat, List.reverse_append, List.lookup_append, ih, lookup_entry]
    by_cases column : k = j
    · rw [if_pos column, if_pos column]
      rcases Nat.lt_trichotomy i rows.length with below | rfl | above
      · rw [if_neg fun here => Nat.ne_of_lt below here.1, List.getElem?_append_left below]
        rfl
      · rw [if_pos ⟨rfl, column⟩, List.getElem?_concat_length,
          List.getElem?_eq_none (Nat.le_refl _)]
        exact Option.or_none
      · rw [if_neg fun here => Nat.ne_of_gt above here.1,
          List.getElem?_eq_none (Nat.le_of_lt above),
          List.getElem?_eq_none (by rw [List.length_append]; exact above)]
        rfl
    · rw [if_neg column, if_neg column, if_neg fun here => column here.2]
      rfl

/-- **Each coefficient of a written row is read once**, if it belongs to a column. -/
theorem lookup_entriesBelow (rows : List (Row Rat)) (n i k : Nat) :
    (entriesBelow rows n).lookup (i, k) =
      if k < n then (rows[i]?).bind (Row.coeff? k) else none := by
  induction n with
  | zero => rfl
  | succ n ih =>
    rw [entriesBelow, List.lookup_append, lookup_entriesAt, ih]
    rcases Nat.lt_trichotomy k n with below | rfl | above
    · rw [if_neg (Nat.ne_of_lt below), if_pos below, if_pos (Nat.lt_succ_of_lt below)]
      rfl
    · rw [if_pos rfl, if_neg (Nat.lt_irrefl k), if_pos (Nat.lt_succ_self k), Option.or_none]
    · rw [if_neg (Nat.ne_of_gt above), if_neg (Nat.lt_asymm above), if_neg (by omega)]
      rfl

/-- The changes of coefficients that a written file describes. -/
theorem lookup_entries (p : Problem Rat) (i k : Nat) :
    (closed p).builder.entries.lookup (i, k) =
      if k < p.ncols then ((writtenRows p)[i]?).bind (Row.coeff? k) else none :=
  (lookup_foldr_add ..).trans (lookup_entriesBelow ..)

/-- The entries that are read are in the order of their positions. -/
theorem sorted_entries (p : Problem Rat) :
    Keyed.Sorted Keyed.positionBefore (closed p).builder.entries :=
  sorted_foldr_add _

/-- Bounds and coefficients are such that they can be built. -/
theorem fault?_closed (h : Printable p) : (closed p).builder.fault? = none := by
  have inside : ((closed p).builder.entries.find? fun e => (closed p).builder.isOutside e.1) =
      none := by
    refine List.find?_eq_none.2 fun e mem => ?_
    have found : (closed p).builder.entries.lookup e.1 = some e.2 :=
      ((sorted_entries p).lookup_eq_some_iff Keyed.isOrder_positionBefore).2 mem
    rw [lookup_entries] at found
    split at found
    · rename_i column
      obtain ⟨r, place, -⟩ := Option.bind_eq_some_iff.1 found
      have row : e.1.1 < (writtenRows p).length := (List.getElem?_eq_some_iff.1 place).1
      have nrows : (closed p).builder.rows.length = (writtenRows p).length := by
        show (((writtenRows p).map rowRanged).map RowData.plan).length = _
        rw [List.length_map, List.length_map]
      have ncols : (closed p).builder.columns.length = p.ncols := List.length_map ..
      unfold Builder.isOutside
      rw [nrows, ncols, decide_eq_false (Nat.not_le.2 row), decide_eq_false (Nat.not_le.2 column)]
      decide
    · cases found
  unfold Builder.fault?
  rw [inside]
  refine List.findSome?_eq_none_iff.2 fun c mem => ?_
  obtain ⟨b, column, rfl⟩ := List.mem_map.1 mem
  exact fault?_columnBounded (h.consistent.columns b column)

/-- The coefficients of a row are those that the file describes for its place. -/
theorem coeff?_overlay_entries (h : Printable p) {i : Nat} {r blank : Row Rat}
    (place : (writtenRows p)[i]? = some r) (empty : blank.coeffs = []) (k : Nat) :
    (Row.overlay (closed p).builder.entries i blank).coeff? k = r.coeff? k := by
  have row := (h.mem_rows (List.mem_of_getElem? place)).1
  have canonical := h.canonical.rows r row
  have absent : blank.coeff? k = none := by
    unfold Row.coeff?
    rw [empty]
    rfl
  rw [Row.coeff?_overlay (sorted_entries p), lookup_entries, place, absent, Option.bind_some]
  cases entry : r.coeff? k with
  | none =>
    rw [ite_self]
    rfl
  | some a =>
    have stored := canonical.coeff?_eq_some_iff.1 entry
    rw [if_pos (h.inside r row _ stored)]
    exact if_neg (by rw [canonical.nonzero _ stored]; decide)

/-- The rows that are described are those that were written. -/
theorem rows_closed (h : Printable p) :
    (closed p).builder.entries.writeTo ((closed p).builder.rows.map RowPlan.toRow) =
      writtenRows p := by
  refine List.ext_getElem? fun i => ?_
  have rows : (closed p).builder.rows = ((writtenRows p).map rowRanged).map RowData.plan := rfl
  rw [Changes.getElem?_writeTo, rows, List.getElem?_map, List.getElem?_map, List.getElem?_map]
  cases place : (writtenRows p)[i]? with
  | none => rfl
  | some r =>
    obtain ⟨row, written⟩ := h.mem_rows (List.mem_of_getElem? place)
    have back := toRow_rowRanged (h.rows r row) written (h.consistent.rows r row)
    have empty : ({ r with coeffs := [] } : Row Rat).Canonical :=
      ⟨Keyed.sorted_nil, fun e mem => absurd mem List.not_mem_nil⟩
    show some (Row.overlay _ i (rowRanged r).plan.toRow) = some r
    rw [back]
    refine congrArg some ((empty.overlay _ i).ext (h.canonical.rows r row) ?_ ?_ ?_ ?_
      (coeff?_overlay_entries h place rfl))
    · exact Row.name_overlay ..
    · exact Row.lhs_overlay ..
    · exact Row.rhs_overlay ..
    · exact Row.flags_overlay ..

/-- **What is written is read again.** -/
theorem ofText_toText (h : Printable p) (path : String) :
    ofText path (toText p) = .ok { p with
      columns := p.columns.map Column.declared
      rows := p.rows.filter isWritten } := by
  have columns : (p.columns.map columnBounded).map ColumnPlan.toColumn =
      p.columns.map Column.declared := by
    rw [List.map_map]
    exact List.map_congr_left fun c mem => toColumn_columnBounded (h.lower c mem) (h.upper c mem)
  have read := (reads_linesOf h).ofText path
  refine read.trans ((Builder.build_eq_ok_iff _ _).2 ⟨fault?_closed h, ?_⟩)
  unfold Builder.toProblem
  rw [rows_closed h, ← h.writtenRows_eq, ← columns, h.canonical.surplus]
  rfl

/-- Columns with all kinds of domains and rows with all kinds of sides. -/
def motley : Problem Rat :=
  { name := "motley", sense := .maximize, offset := 5 / 2
    columns :=
      [{ name := "x", cost := 1, lower := 0, upper := 0
         flags := { lbInf := true, ubInf := true } },
        { name := "y", cost := 0, lower := -3, upper := 4, flags := { integral := true } },
        { name := "z", cost := -2, lower := 0, upper := -1,
          flags := { lbInf := true, implInt := true } },
        { name := "w", cost := 0, lower := 2, upper := 2, flags := { fixed := true } },
        { name := "v", cost := 0, lower := 0, upper := 0, flags := { ubInf := true } }]
    rows :=
      [{ name := "e", coeffs := [(0, 1), (1, -2)], lhs := 3, rhs := 3,
          flags := { equation := true } },
        { name := "r", coeffs := [(1, 1 / 3)], lhs := 1, rhs := 4, flags := {} },
        { name := "skipped", coeffs := [(0, 1)], lhs := 0, rhs := 1,
          flags := { redundant := true } },
        { name := "g", coeffs := [(0, 2), (2, 1)], lhs := -1, rhs := 0
          flags := { rhsInf := true } },
        { name := "l", coeffs := [(2, 7)], lhs := 0, rhs := 0, flags := { lhsInf := true } },
        { name := "idle", coeffs := [(1, 1)], lhs := 0, rhs := 0,
          flags := { lhsInf := true, rhsInf := true } }] }

/-- The example can be printed. -/
theorem printable_motley : Printable motley where
  canonical := by decide +kernel
  inside := by decide +kernel
  rows := by decide +kernel
  lower := by decide +kernel
  upper := by decide +kernel
  consistent := by decide +kernel
  small := by decide +kernel
  name := (by decide : Text.IsWord "motley").2
  columnNames := by decide +kernel
  rowNames := by decide +kernel
  columnWords := by decide +kernel
  rowWords := by decide +kernel
  reserved := by decide +kernel
  numbers := by decide +kernel

/-- The example is read again as it was, with its columns as a file can tell them. -/
theorem ofText_toText_motley : Printable motley ∧
    ofText "motley.mps" (toText motley) = .ok { motley with
      columns := motley.columns.map Column.declared
      rows := motley.rows.filter isWritten } :=
  ⟨printable_motley, ofText_toText printable_motley "motley.mps"⟩

/-- Redundant rows and rows without sides are left out, zero sides and the usual bounds as well. -/
example : linesOf motley =
    ["NAME motley", "OBJSENSE", "    MAX", "ROWS", " N  obj", " E  e", " G  r", " G  g", " L  l",
      "COLUMNS", "    x obj 1", "    x e 1", "    x g 2", "    MARKER0 'MARKER' 'INTORG'",
      "    y e -2", "    y r 1/3", "    z obj -2", "    z g 1", "    z l 7",
      "    MARKER0 'MARKER' 'INTEND'", "    w obj 0", "    v obj 0", "RHS", "    RHS obj -5/2",
      "    RHS e 3", "    RHS r 1", "    RHS g -1", "RANGES", "    RNG r 3", "BOUNDS", " FR BND x",
      " LO BND y -3", " UP BND y 4", " MI BND z", " UP BND z -1", " FX BND w 2", "ENDATA"] := by
  decide +kernel

end Mps
end MipShrink
