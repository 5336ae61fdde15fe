/-
# What is read is well-formed

Reading a text has one of three answers (`Mps.Answer`): a line of it is refused, or a column has a
lower bound above its upper one, or a program is read in which all is right (`Problem.WellRead`).
No text is refused for the place of a coefficient, since what is read stays in step
(`Mps.Reader.fault?_builder`).

The sides of a row are right by the way in which its kind and its range make them: a range widens
the side that the right-hand side gives, whatever its sign is (`Mps.RowData.ordered_plan`).
-/

import Mathlib.Tactic.Linarith
import MipShrink.Proofs.Mps.StrictReading
import MipShrink.Proofs.Throughout.Representation

namespace MipShrink

namespace Problem

/-- What holds of every program that was read. -/
structure WellRead (p : Problem Rat) : Prop where
  rowNames : (p.rows.map Row.name).Nodup
  rowNamed : ∀ r ∈ p.rows, r.name ≠ ""
  columnNames : (p.columns.map Column.name).Nodup
  columnNamed : ∀ c ∈ p.columns, c.name ≠ ""
  nonzero : ∀ r ∈ p.rows, ∀ e ∈ r.coeffs, e.2 ≠ 0
  inside : ∀ r ∈ p.rows, ∀ e ∈ r.coeffs, e.1 < p.ncols
  bounds : ∀ c ∈ p.columns, ∀ l ∈ c.lower?, ∀ u ∈ c.upper?, l ≤ u
  sides : ∀ r ∈ p.rows, ∀ l ∈ r.lhs?, ∀ u ∈ r.rhs?, l ≤ u
  /-- At least one side is finite. -/
  sided : ∀ r ∈ p.rows, r.lhs?.isSome ∨ r.rhs?.isSome
  /-- The equations are the rows with equal finite sides. -/
  equation : ∀ r ∈ p.rows, r.flags.equation = true ↔ ∃ x, r.lhs? = some x ∧ r.rhs? = some x

end Problem

/-! ### The parts of a built program -/

namespace ColumnPlan

variable {α : Type} [Scalar α]

/-- A column has the lower bound that was described. -/
theorem lower?_toColumn (c : ColumnPlan α) : c.toColumn.lower? = c.lower := by
  unfold Column.lower? toColumn
  cases c.lower <;> rfl

/-- A column has the upper bound that was described. -/
theorem upper?_toColumn (c : ColumnPlan α) : c.toColumn.upper? = c.upper := by
  unfold Column.upper? toColumn
  cases c.upper <;> rfl

/-- Only bounds that cross keep a column from being built. -/
theorem fault?_eq_some {c : ColumnPlan Rat} {fault : BuildFault} (h : c.fault? = some fault) :
    ∃ l u, c.lower = some l ∧ c.upper = some u ∧ u < l ∧
      fault = .crossedBounds c.name (Scalar.text l) (Scalar.text u) := by
  unfold fault? at h
  split at h
  · rename_i l u lower upper
    split at h
    · rename_i crossed
      exact ⟨l, u, lower, upper, crossed, (Option.some.inj h).symm⟩
    · cases h
  · cases h

/-- Without a fault no lower bound is above the upper one. -/
theorem le_of_fault?_eq_none {c : ColumnPlan Rat} (h : c.fault? = none) :
    ∀ l ∈ c.lower, ∀ u ∈ c.upper, l ≤ u := by
  intro l lower u upper
  unfold fault? at h
  rw [lower, upper] at h
  dsimp only at h
  split at h
  · cases h
  · rename_i ordered
    exact Rat.not_lt.1 ordered

end ColumnPlan

namespace RowPlan

variable {α : Type} [Scalar α]

/-- A row has the left-hand side that was described. -/
theorem lhs?_toRow (r : RowPlan α) : r.toRow.lhs? = r.lhs := by
  unfold Row.lhs? toRow
  cases r.lhs <;> rfl

/-- A row has the right-hand side that was described. -/
theorem rhs?_toRow (r : RowPlan α) : r.toRow.rhs? = r.rhs := by
  unfold Row.rhs? toRow
  cases r.rhs <;> rfl

end RowPlan

namespace Builder

variable {α : Type} [Scalar α] {b : Builder α}

/-- A row of the program is the row that was described, with coefficients. -/
theorem getElem?_rows_toProblem (b : Builder α) (i : Nat) :
    b.toProblem.rows[i]? = (b.rows[i]?).map fun r => Row.overlay b.entries i r.toRow := by
  show (Changes.writeTo b.entries (b.rows.map RowPlan.toRow))[i]? = _
  rw [Changes.getElem?_writeTo, List.getElem?_map, Option.map_map]
  rfl

/-- The rows have the names that were described. -/
theorem map_name_rows (b : Builder α) :
    b.toProblem.rows.map Row.name = b.rows.map RowPlan.name := by
  refine List.ext_getElem? fun i => ?_
  rw [List.getElem?_map, List.getElem?_map, getElem?_rows_toProblem, Option.map_map]
  refine congrArg (Option.map · b.rows[i]?) (funext fun r => ?_)
  exact Row.name_overlay b.entries i r.toRow

/-- The sides of a row are those that were described. -/
theorem exists_plan {r : Row α} (mem : r ∈ b.toProblem.rows) :
    ∃ plan ∈ b.rows, r.lhs? = plan.lhs ∧ r.rhs? = plan.rhs := by
  obtain ⟨i, place⟩ := List.mem_iff_getElem?.1 mem
  rw [getElem?_rows_toProblem] at place
  obtain ⟨plan, described, rfl⟩ := Option.map_eq_some_iff.1 place
  refine ⟨plan, List.mem_of_getElem? described, ?_, ?_⟩
  · rw [← plan.lhs?_toRow, Row.lhs?, Row.lhs?, Row.flags_overlay, Row.lhs_overlay]
  · rw [← plan.rhs?_toRow, Row.rhs?, Row.rhs?, Row.flags_overlay, Row.rhs_overlay]

/-- If no coefficient lies outside, the columns alone keep a program from being built. -/
theorem fault?_of_inside
    (inside : ∀ e ∈ b.entries, e.1.1 < b.rows.length ∧ e.1.2 < b.columns.length) :
    b.fault? = b.columns.findSome? ColumnPlan.fault? := by
  have none : b.entries.find? (fun e => b.isOutside e.1) = none := by
    refine List.find?_eq_none.2 fun e mem => ?_
    obtain ⟨row, column⟩ := inside e mem
    unfold isOutside
    rw [decide_eq_false (Nat.not_le.2 row), decide_eq_false (Nat.not_le.2 column)]
    decide
  unfold fault?
  rw [none]

end Builder

/-! ### What has been read -/

namespace Mps

namespace RowData

/-- A row has a finite side. -/
theorem sided_plan {α : Type} [Scalar α] (r : RowData α) :
    r.plan.lhs.isSome ∨ r.plan.rhs.isSome := by
  unfold plan
  split
  · exact .inl rfl
  · split
    · exact .inl rfl
    · exact .inl rfl
  · exact .inr rfl
  · exact .inl rfl
  · exact .inl rfl
  · exact .inl rfl

/-- **The sides of a row are in order**, whatever the sign of its range is. -/
theorem ordered_plan (r : RowData Rat) : ∀ l ∈ r.plan.lhs, ∀ u ∈ r.plan.rhs, l ≤ u := by
  have magnitude (x : Rat) : 0 ≤ Scalar.abs x := by
    rw [Rational.abs_eq]
    split <;> linarith
  obtain ⟨name, kind, rhs, range⟩ := r
  intro l lower u upper
  cases kind with
  | equal =>
    cases range with
    | none =>
      cases lower
      cases upper
      exact le_refl rhs
    | some x =>
      unfold plan at lower upper
      dsimp only at lower upper
      -- The sign of the range tells on which side of its right-hand side an equation opens.
      split at lower
      · rename_i negative
        have below : x < 0 := of_decide_eq_true negative
        rw [if_pos negative] at upper
        cases lower
        cases upper
        show rhs + x ≤ rhs
        linarith
      · rename_i other
        have above : 0 ≤ x := Rat.not_lt.1 fun below => other (decide_eq_true below)
        rw [if_neg other] at upper
        cases lower
        cases upper
        show rhs ≤ rhs + x
        linarith
  | less =>
    cases range with
    | none => cases lower
    | some x =>
      cases lower
      cases upper
      have wide := magnitude x
      show rhs - Scalar.abs x ≤ rhs
      linarith
  | greater =>
    cases range with
    | none => cases upper
    | some x =>
      cases lower
      cases upper
      have wide := magnitude x
      show rhs ≤ rhs + Scalar.abs x
      linarith

end RowData

namespace Reader

variable {α : Type} [Scalar α]

/-- The coefficients of the program stand at places that were noted. -/
theorem mem_entries_builder {r : Reader α} {e : (Nat × Nat) × α} (mem : e ∈ r.builder.entries) :
    e ∈ r.entries := by
  have noted : ∀ l : List ((Nat × Nat) × α),
      e ∈ l.foldr (fun e c => Changes.add e.1.1 e.1.2 e.2 c) [] → e ∈ l := by
    intro l mem
    induction l with
    | nil => exact mem
    | cons first l ih =>
      rcases Keyed.mem_put mem with rfl | later
      · exact List.mem_cons_self
      · exact List.mem_cons_of_mem first (ih later)
  exact noted r.entries mem

/-- The rows that are built have the names that were read. -/
theorem map_name_plan (r : Reader α) : r.builder.rows.map RowPlan.name = r.rowNames := by
  show (r.rows.map RowData.plan).map RowPlan.name = r.rows.map RowData.name
  rw [List.map_map]
  refine List.map_congr_left fun row _ => ?_
  show row.plan.name = row.name
  unfold RowData.plan
  split
  · rfl
  · split <;> rfl
  · rfl
  · rfl
  · rfl
  · rfl

/-- **What has been read is in step**: the places of the coefficients lie inside, and the rows have
different words for names. -/
theorem exists_inStep {path : String} {lines : List (List Char)} {r : Reader α}
    (read : readLines path 1 (lines.map .ok) start = .ok r) :
    ∃ rows columns, r.InStep rows columns := by
  obtain ⟨t, -, rows, columns, -, inStep⟩ :=
    (Tables.agrees_readLines path 1 lines Tables.shows_start).exists_of_ok read
  exact ⟨rows, columns, inStep⟩

/-- **What is refused is the first line that cannot be read**, and it is told by its number. -/
theorem exists_refused {path : String} {n : Nat} {lines : List (List Char)} {r : Reader α}
    {e : Error} (h : readLines path n (lines.map .ok) r = .error e) :
    ∃ before line after r' fault, lines = before ++ line :: after ∧
      readLines path n (before.map .ok) r = .ok r' ∧ r'.readLine line = .error fault ∧
        e = .parse path (n + before.length) fault := by
  induction lines generalizing n r with
  | nil => cases h
  | cons line lines ih =>
    rw [List.map_cons, readLines] at h
    split at h
    · rename_i fault refused
      cases h
      exact ⟨[], line, lines, r, fault, rfl, rfl, refused, rfl⟩
    · rename_i r₁ read
      obtain ⟨before, other, after, r', fault, rfl, reads, refused, rfl⟩ := ih h
      refine ⟨line :: before, other, after, r', fault, rfl, ?_, refused, ?_⟩
      · rw [List.map_cons, readLines, read]
        exact reads
      · rw [List.length_cons, Nat.add_right_comm, Nat.add_assoc]

/-- **Only bounds that cross keep a program that was read from being built.** -/
theorem fault?_builder {path : String} {lines : List (List Char)} {r : Reader α}
    (read : readLines path 1 (lines.map .ok) start = .ok r) :
    r.builder.fault? = r.columns.findSome? ColumnPlan.fault? := by
  obtain ⟨rows, columns, inStep⟩ := exists_inStep read
  refine Builder.fault?_of_inside fun e mem => ?_
  obtain ⟨row, column⟩ := inStep.inside e (mem_entries_builder mem)
  refine ⟨row.trans_eq ?_, column.trans_eq r.length_columnNames⟩
  rw [r.length_rowNames]
  exact (List.length_map ..).symm

/-- **What is built of a text that was read is well-formed.** -/
theorem wellRead_toProblem {path : String} {lines : List (List Char)} {r : Reader Rat}
    (read : readLines path 1 (lines.map .ok) start = .ok r) (right : r.builder.fault? = none) :
    r.builder.toProblem.WellRead := by
  obtain ⟨rows, columns, inStep⟩ := exists_inStep read
  have built : r.builder.build = .ok r.builder.toProblem :=
    (Builder.build_eq_ok_iff ..).2 ⟨right, rfl⟩
  have rowNames : r.builder.toProblem.rows.map Row.name = r.rowNames :=
    (Builder.map_name_rows _).trans r.map_name_plan
  have columnNames : r.builder.toProblem.columns.map Column.name = r.columnNames := by
    show (r.columns.map ColumnPlan.toColumn).map Column.name = r.columnNames
    rw [List.map_map]
    rfl
  have begun : Distinct (start : Reader Rat).columnNames :=
    ⟨List.nodup_nil, fun _ mem => absurd mem List.not_mem_nil⟩
  have distinct : Distinct r.columnNames := distinct_readLines begun read
  -- The sides of a row are those of one plan, and each plan is made of one line of data.
  have described {row : Row Rat} (mem : row ∈ r.builder.toProblem.rows) :
      ∃ data : RowData Rat, row.lhs? = data.plan.lhs ∧ row.rhs? = data.plan.rhs := by
    obtain ⟨plan, among, lhs, rhs⟩ := Builder.exists_plan mem
    obtain ⟨data, -, rfl⟩ := List.mem_map.1 among
    exact ⟨data, lhs, rhs⟩
  constructor
  case rowNames => exact rowNames ▸ inStep.names.nodup
  case rowNamed =>
    intro row mem
    exact (inStep.names.word row.name (rowNames ▸ List.mem_map_of_mem mem)).1
  case columnNames => exact columnNames ▸ distinct.nodup
  case columnNamed =>
    intro c mem
    exact (distinct.word c.name (columnNames ▸ List.mem_map_of_mem mem)).1
  case nonzero =>
    intro row mem e entry
    have solid := ((Builder.canonical_build built).rows row mem).nonzero e entry
    exact ne_of_beq_false solid
  case inside =>
    intro row mem e entry
    obtain ⟨c, place, -⟩ := (Builder.wellFormed_build built).live row mem e entry
    exact (List.getElem?_eq_some_iff.1 place).1
  case bounds =>
    intro c mem
    obtain ⟨plan, among, rfl⟩ := List.mem_map.1 mem
    rw [plan.lower?_toColumn, plan.upper?_toColumn]
    rw [fault?_builder read] at right
    exact plan.le_of_fault?_eq_none (List.findSome?_eq_none_iff.1 right plan among)
  case sides =>
    intro row mem
    obtain ⟨data, lhs, rhs⟩ := described mem
    rw [lhs, rhs]
    exact data.ordered_plan
  case sided =>
    intro row mem
    obtain ⟨data, lhs, rhs⟩ := described mem
    rw [lhs, rhs]
    exact data.sided_plan
  case equation => exact fun row mem => ((Builder.wellFormed_build built).rows row mem).equation

end Reader

/-- **The answers to a text.** -/
inductive Answer (path text : String) : Except Error (Problem Rat) → Prop where
  /-- A line is refused, and all lines before it are read. -/
  | refused {before after : List (List Char)} {line : List Char} {r : Reader Rat}
      {fault : ParseFault} (lines : Text.linesOf text = before ++ line :: after)
      (read : Reader.readLines path 1 (before.map .ok) Reader.start = .ok r)
      (refused : r.readLine line = .error fault) :
      Answer path text (.error (.parse path (1 + before.length) fault))
  /-- All lines are read, and a column has a lower bound above its upper one. -/
  | crossed {r : Reader Rat} {c : ColumnPlan Rat} {l u : Rat}
      (read : Reader.readLines path 1 ((Text.linesOf text).map .ok) Reader.start = .ok r)
      (column : c ∈ r.columns) (lower : c.lower = some l) (upper : c.upper = some u)
      (crossed : u < l) :
      Answer path text (.error (.build (.crossedBounds c.name (Scalar.text l) (Scalar.text u))))
  /-- All lines are read, and what they describe is right. -/
  | program {r : Reader Rat}
      (read : Reader.readLines path 1 ((Text.linesOf text).map .ok) Reader.start = .ok r)
      (wellRead : r.builder.toProblem.WellRead) :
      Answer path text (.ok r.builder.toProblem)

/-- **Reading a text yields a well-formed program**, or tells what is wrong with a line, or with the
bounds of a column; and it does so without fault. -/
theorem ofText_answers (path text : String) :
    ofTextStrict path text = (ofText path text : Except Error (Problem Rat)).mapError .refused ∧
      Answer path text (ofText path text) := by
  refine ⟨ofTextStrict_eq path text, ?_⟩
  unfold ofText ofLines
  cases read : Reader.readLines path 1 ((Text.linesOf text).map .ok)
      (Reader.start : Reader Rat) with
  | error e =>
    obtain ⟨before, line, after, r, fault, lines, reads, refused, rfl⟩ :=
      Reader.exists_refused read
    exact .refused lines reads refused
  | ok r =>
    dsimp only
    unfold Builder.build
    cases wrong : r.builder.fault? with
    | none => exact .program read (Reader.wellRead_toProblem read wrong)
    | some fault =>
      rw [Reader.fault?_builder read] at wrong
      obtain ⟨c, column, faulty⟩ := List.exists_of_findSome?_eq_some wrong
      obtain ⟨l, u, lower, upper, crossed, rfl⟩ := c.fault?_eq_some faulty
      exact .crossed read column lower upper crossed

/-- Sections in any order, and a bound that is negative although the lower one is zero at first. -/
example :
    (ofTextStrict "p.mps"
        ("ROWS\n N obj\n E r\nBOUNDS\nCOLUMNS\n x r 1 obj 2\nRANGES\n r -1\n" ++
          "BOUNDS\n UP b x -1\n LO b x 1/2\n") : Except (Stop Error) (Problem Rat)) =
      .error (.refused (.build (.crossedBounds "x" "1/2" "-1"))) := by
  decide +kernel

end Mps
end MipShrink
