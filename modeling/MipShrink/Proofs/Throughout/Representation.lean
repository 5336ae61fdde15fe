/-
# How programs are stored

A program keeps the same facts in several places: a row tells by an attribute and by its sides
whether it is an equation, an infinite bound still has a number stored for it, the coefficients can
be seen by rows, by columns and by positions, and a column that is marked fixed has to be gone
from everywhere else.  `Problem.Represented` says that all of this agrees.

What has to be kept is `Problem.WellFormed`: the rows and the columns are stored well, each for
itself, and every coefficient belongs to a *live* column, one that is there and not fixed.  The
views agree as long as the program is canonical besides (`Problem.WellFormed.represented`).

| change | why it is well-formed again |
| --- | --- |
| of the sides of a row | the attribute `equation` is made right after each of them (`refresh`) |
| of coefficients of a row | no column comes in that was not there |
| of a domain | the column is not fixed, or gets a single value |
| fixing a column | its coefficients go from all rows at once, redundant ones included |
-/

import MipShrink.Proofs.Reduction.Weight
import MipShrink.Proofs.Throughout.Invariance

namespace MipShrink

/-! ### Rows -/

namespace Row

variable {r : Row Rat}

/-- How a row is stored. -/
structure WellFormed (r : Row Rat) : Prop where
  /-- It is marked as an equation exactly if both sides are finite and equal. -/
  equation : r.flags.equation = true ↔ ∃ x, r.lhs? = some x ∧ r.rhs? = some x
  lhs : r.flags.lhsInf = true → r.lhs = 0
  rhs : r.flags.rhsInf = true → r.rhs = 0

/-- The sides agree if both are finite and the same. -/
theorem sidesAgree_iff (r : Row Rat) :
    r.sidesAgree = true ↔ ∃ x, r.lhs? = some x ∧ r.rhs? = some x := by
  unfold sidesAgree lhs? rhs?
  cases r.flags.lhsInf with
  | true => simp
  | false =>
    cases r.flags.rhsInf with
    | true => simp
    | false =>
      show (r.lhs == r.rhs) = true ↔ ∃ x, some r.lhs = some x ∧ some r.rhs = some x
      rw [beq_iff_eq]
      constructor
      · exact fun same => ⟨r.rhs, congrArg some same, rfl⟩
      · rintro ⟨x, lhs, rhs⟩
        exact Option.some.inj (lhs.trans rhs.symm)

/-- The parts of being well-formed, side by side. -/
theorem wellFormed_iff (r : Row Rat) : r.WellFormed ↔
    r.flags.equation = r.sidesAgree ∧ (r.flags.lhsInf = true → r.lhs = 0) ∧
      (r.flags.rhsInf = true → r.rhs = 0) := by
  rw [Bool.eq_iff_iff, r.sidesAgree_iff]
  exact ⟨fun h => ⟨h.equation, h.lhs, h.rhs⟩, fun h => ⟨h.1, h.2.1, h.2.2⟩⟩

instance (r : Row Rat) : Decidable r.WellFormed :=
  decidable_of_iff' _ r.wellFormed_iff

/-- Whatever the attribute was, it is right afterwards. -/
theorem wellFormed_refresh (lhs : r.flags.lhsInf = true → r.lhs = 0)
    (rhs : r.flags.rhsInf = true → r.rhs = 0) : r.refresh.WellFormed :=
  ⟨r.sidesAgree_iff, lhs, rhs⟩

namespace WellFormed

/-- Setting the left-hand side keeps a row well-formed. -/
theorem setLhs (h : r.WellFormed) (x : Rat) : (r.setLhs x).WellFormed :=
  wellFormed_refresh (fun infinite => absurd infinite Bool.false_ne_true) h.rhs

/-- Setting the right-hand side keeps a row well-formed. -/
theorem setRhs (h : r.WellFormed) (x : Rat) : (r.setRhs x).WellFormed :=
  wellFormed_refresh h.lhs fun infinite => absurd infinite Bool.false_ne_true

/-- Marking a row as redundant keeps it well-formed. -/
theorem markRedundant (h : r.WellFormed) : (r.assignFlag .redundant true).WellFormed :=
  ⟨h.equation, h.lhs, h.rhs⟩

/-- Setting a coefficient keeps a row well-formed. -/
theorem setCoeff (h : r.WellFormed) (j : Nat) (x : Rat) : (r.setCoeff j x).WellFormed :=
  ⟨h.equation, h.lhs, h.rhs⟩

/-- Rounding the coefficients keeps a row well-formed. -/
theorem roundEntries (h : r.WellFormed) : r.roundEntries.WellFormed :=
  ⟨h.equation, h.lhs, h.rhs⟩

/-- Shifting keeps a row well-formed. -/
theorem shift (h : r.WellFormed) (delta : Rat) : (r.shift delta).WellFormed := by
  unfold Row.shift
  dsimp only
  have left : (if r.flags.lhsInf then r else r.setLhs (r.lhs - delta)).WellFormed := by
    split
    · exact h
    · exact h.setLhs _
  split
  · exact left
  · exact left.setRhs _

/-- Rounding the sides keeps a row well-formed. -/
theorem roundSides (h : r.WellFormed) (tol : Rat) (activity : Option Rat) :
    (Reduction.roundSides tol activity r).WellFormed := by
  unfold Reduction.roundSides
  dsimp only
  have left : (if r.flags.lhsInf then r
      else r.setLhs (Reduction.outwardLhs tol activity r.lhs)).WellFormed := by
    split
    · exact h
    · exact h.setLhs _
  generalize (if r.flags.lhsInf then r else _) = r' at left ⊢
  split
  · exact left
  · exact left.setRhs _

/-- Putting a value in keeps a row well-formed. -/
theorem putIn (h : r.WellFormed) (j : Nat) (x : Rat) : (r.putIn j x).WellFormed := by
  unfold Row.putIn
  split
  · exact (h.shift _).setCoeff j 0
  · exact h

/-- Writing changes keeps a row well-formed. -/
theorem overlay (h : r.WellFormed) (c : Changes Rat) (i : Nat) :
    (Row.overlay c i r).WellFormed := by
  refine List.foldlRecOn c _ h fun r' h' e _ => ?_
  split
  · exact h'.setCoeff _ _
  · exact h'

end WellFormed

/-- Setting a coefficient adds no other one. -/
theorem mem_setCoeff {j : Nat} {x : Rat} {e : Nat × Rat} (mem : e ∈ (r.setCoeff j x).coeffs) :
    e ∈ r.coeffs ∨ e = (j, x) := by
  unfold setCoeff at mem
  split at mem
  · exact .inl (List.mem_filter.1 mem).1
  · exact (Keyed.mem_put mem).symm

/-- Writing changes brings in the columns that they mention, and no others. -/
theorem mem_overlay {c : Changes Rat} {i : Nat} {e : Nat × Rat}
    (mem : e ∈ (overlay c i r).coeffs) : e ∈ r.coeffs ∨ ((i, e.1), e.2) ∈ c := by
  induction c generalizing r with
  | nil => exact .inl mem
  | cons change c ih =>
    rw [overlay_cons] at mem
    rcases ih mem with early | later
    · split at early
      · rename_i place
        rcases mem_setCoeff early with before | rfl
        · exact .inl before
        · exact .inr (place ▸ List.mem_cons_self)
      · exact .inl early
    · exact .inr (List.mem_cons_of_mem _ later)

/-- A value that is put in for a column leaves the other columns. -/
theorem mem_putIn {j : Nat} {x : Rat} {e : Nat × Rat} (mem : e ∈ (r.putIn j x).coeffs) :
    e ∈ r.coeffs ∧ e.1 ≠ j := by
  unfold putIn at mem
  split at mem
  · have kept : e ∈ Keyed.drop j (r.shift _).coeffs := mem
    rw [coeffs_shift] at kept
    obtain ⟨before, other⟩ := List.mem_filter.1 kept
    exact ⟨before, by simpa using other⟩
  · rename_i absent
    refine ⟨mem, fun same => ?_⟩
    have other := List.lookup_eq_none_iff.1 absent e mem
    rw [same, bne_self_eq_false] at other
    exact Bool.false_ne_true other

end Row

/-! ### Columns -/

namespace Column

variable {c : Column Rat}

/-- How a column is stored. -/
structure WellFormed (c : Column Rat) : Prop where
  lower : c.flags.lbInf = true → c.lower = 0
  upper : c.flags.ubInf = true → c.upper = 0
  /-- It is marked as fixed only if it has a single value and no cost. -/
  fixed : c.flags.fixed = true → (∃ x, c.lower? = some x ∧ c.upper? = some x) ∧ c.cost = 0

namespace WellFormed

/-- A column that is not fixed only has to store its infinite bounds well. -/
theorem of_not_fixed (notFixed : c.flags.fixed = false) (lower : c.flags.lbInf = true → c.lower = 0)
    (upper : c.flags.ubInf = true → c.upper = 0) : c.WellFormed :=
  ⟨lower, upper, fun fixed => by rw [notFixed] at fixed; exact absurd fixed Bool.false_ne_true⟩

/-- Collapsing keeps a column well-formed. -/
theorem collapse (h : c.WellFormed) (x : Rat) : (c.collapse x).WellFormed where
  lower infinite := absurd infinite Bool.false_ne_true
  upper infinite := absurd infinite Bool.false_ne_true
  fixed fixed := ⟨⟨x, rfl, rfl⟩, (h.fixed fixed).2⟩

/-- Clearing the cost keeps a column well-formed. -/
theorem setCost_zero (h : c.WellFormed) : (c.setCost 0).WellFormed :=
  ⟨h.lower, h.upper, fun fixed => ⟨(h.fixed fixed).1, rfl⟩⟩

/-- A column that becomes fixed has a single value and no cost. -/
theorem fixColumn (x : Rat) (c : Column Rat) : (Reduction.fixColumn x c).WellFormed where
  lower infinite := absurd infinite Bool.false_ne_true
  upper infinite := absurd infinite Bool.false_ne_true
  fixed _ := ⟨⟨x, rfl, rfl⟩, rfl⟩

/-- Rounding the bounds keeps a column well-formed that is not fixed. -/
theorem roundBounds (h : c.WellFormed) (notFixed : c.flags.fixed = false) (tol : Rat) :
    (Reduction.roundBounds tol c).WellFormed := by
  refine of_not_fixed ((fixed_roundBounds tol c).trans notFixed) ?_ ?_
  · unfold Reduction.roundBounds
    dsimp only
    split
    · split
      · exact h.lower
      · exact h.lower
    · split <;> exact fun infinite => absurd infinite Bool.false_ne_true
  · unfold Reduction.roundBounds
    dsimp only
    split
    · split
      · exact h.upper
      · exact fun infinite => absurd infinite Bool.false_ne_true
    · split
      · exact h.upper
      · exact fun infinite => absurd infinite Bool.false_ne_true

/-- Making a column integral keeps it well-formed if it is not fixed. -/
theorem roundColumn (h : c.WellFormed) (notFixed : c.flags.fixed = false) (t : Tolerance Rat) :
    (Reduction.roundColumn t c).WellFormed := by
  have rounded : (c.setCost (Scalar.round c.cost)).WellFormed :=
    of_not_fixed notFixed h.lower h.upper
  unfold Reduction.roundColumn
  dsimp only
  split
  · exact rounded
  · exact rounded.roundBounds notFixed t.feasibility

end WellFormed

/-- Making a column integral leaves its mark alone. -/
theorem fixed_roundColumn (t : Tolerance Rat) (c : Column Rat) :
    (Reduction.roundColumn t c).flags.fixed = c.flags.fixed := by
  unfold Reduction.roundColumn
  dsimp only
  split
  · rfl
  · exact fixed_roundBounds ..

end Column

/-! ### Programs -/

namespace Problem

/-- The column is there and not fixed. -/
def IsLive (j : Nat) (p : Problem Rat) : Prop :=
  ∃ c, p.columns[j]? = some c ∧ c.flags.fixed = false

/-- A change of a column that does not fix it leaves all columns live. -/
theorem IsLive.mapColumn {p : Problem Rat} {j k : Nat} (live : p.IsLive k)
    {f : Column Rat → Column Rat} (fixed : k = j → ∀ c, (f c).flags.fixed = c.flags.fixed) :
    (p.mapColumn j f).IsLive k := by
  obtain ⟨c, place, notFixed⟩ := live
  refine ⟨if j = k then f c else c, ?_, ?_⟩
  · unfold Problem.mapColumn
    rw [List.getElem?_modify, place]
    rfl
  · split
    · rename_i here
      exact (fixed here.symm c).trans notFixed
    · exact notFixed

/-- What every change of an element keeps. -/
structure WellFormed (p : Problem Rat) : Prop where
  rows : ∀ r ∈ p.rows, r.WellFormed
  columns : ∀ c ∈ p.columns, c.WellFormed
  live : ∀ r ∈ p.rows, ∀ e ∈ r.coeffs, p.IsLive e.1

/-- The views of the coefficients agree: rows and columns list the same numbers as are found by
positions, each of them once and in order, and none of them is zero or outside of the program. -/
structure ViewsAgree (p : Problem Rat) : Prop where
  nonzero : ∀ i j a, p.matrix.coeff? i j = some a → a ≠ 0
  inside : ∀ i j a, p.matrix.coeff? i j = some a → p.matrix.covers (i, j) = true
  row : ∀ i r, p.rows[i]? = some r → ∀ j a, (j, a) ∈ r.coeffs ↔ p.matrix.coeff? i j = some a
  column : ∀ j i a, (i, a) ∈ p.column j ↔ p.matrix.coeff? i j = some a
  rowSorted : ∀ r ∈ p.rows, Keyed.Sorted Keyed.natBefore r.coeffs
  columnSorted : ∀ j, Keyed.Sorted Keyed.natBefore (p.column j)

/-- Everything that is stored agrees. -/
structure Represented (p : Problem Rat) : Prop where
  rows : ∀ r ∈ p.rows, r.WellFormed
  columns : ∀ c ∈ p.columns, c.WellFormed
  views : p.ViewsAgree
  /-- A fixed column has no coefficient in any row. -/
  erased : ∀ j c, p.columns[j]? = some c → c.flags.fixed = true →
    p.column j = [] ∧ ∀ r ∈ p.rows, r.coeff? j = none

variable {p : Problem Rat}

namespace WellFormed

/-- A column of a program that is well-formed is well-formed. -/
theorem column (h : p.WellFormed) {j : Nat} {c : Column Rat} (place : p.columns[j]? = some c) :
    c.WellFormed :=
  h.columns c (List.mem_of_getElem? place)

/-- A column that is not live has no coefficient in any row. -/
theorem coeff?_eq_none (h : p.WellFormed) {j : Nat} (notLive : ¬p.IsLive j) :
    ∀ r ∈ p.rows, r.coeff? j = none := by
  intro r mem
  refine List.lookup_eq_none_iff.2 fun e entry => ?_
  rw [bne_iff_ne]
  rintro rfl
  exact notLive (h.live r mem e entry)

/-- In a program that is well-formed and canonical the views agree. -/
theorem viewsAgree (h : p.WellFormed) (canonical : p.Canonical) : p.ViewsAgree := by
  have found {i j : Nat} {a : Rat} (stored : p.matrix.coeff? i j = some a) :
      ∃ r, p.rows[i]? = some r ∧ (j, a) ∈ r.coeffs := by
    obtain ⟨r, row, entry⟩ := Option.bind_eq_some_iff.1 stored
    exact ⟨r, row, (canonical.row row).coeff?_eq_some_iff.1 entry⟩
  constructor
  case nonzero =>
    intro i j a stored
    obtain ⟨r, row, entry⟩ := found stored
    have nonzero : Scalar.isZero a = false := (canonical.row row).nonzero _ entry
    rintro rfl
    exact absurd nonzero (by decide)
  case inside =>
    intro i j a stored
    obtain ⟨r, row, entry⟩ := found stored
    obtain ⟨c, column, -⟩ := h.live r (List.mem_of_getElem? row) _ entry
    obtain ⟨below, -⟩ := List.getElem?_eq_some_iff.1 row
    obtain ⟨below', -⟩ := List.getElem?_eq_some_iff.1 column
    exact Bool.and_eq_true_iff.2 ⟨decide_eq_true below, decide_eq_true below'⟩
  case row =>
    intro i r row j a
    unfold Matrix.coeff?
    rw [show p.matrix.rows[i]? = some r from row, Option.bind_some,
      (canonical.row row).coeff?_eq_some_iff]
  case column =>
    intro j i a
    rw [mem_column_iff canonical.surplus]
    exact Option.bind_eq_some_iff.symm
  case rowSorted => exact fun r mem => (canonical.rows r mem).sorted
  case columnSorted => exact sorted_column canonical.surplus

/-- **A well-formed program that is canonical is stored well.** -/
theorem represented (h : p.WellFormed) (canonical : p.Canonical) : p.Represented where
  rows := h.rows
  columns := h.columns
  views := h.viewsAgree canonical
  erased j c column fixed := by
    have notLive : ¬p.IsLive j := by
      rintro ⟨c', column', notFixed⟩
      obtain rfl := Option.some.inj (column.symm.trans column')
      rw [fixed] at notFixed
      exact Bool.false_ne_true notFixed.symm
    have erased := h.coeff?_eq_none notLive
    refine ⟨List.eq_nil_iff_forall_not_mem.2 fun e mem => ?_, erased⟩
    obtain ⟨r, row, entry⟩ := (mem_column_iff canonical.surplus).1 mem
    rw [erased r (List.mem_of_getElem? row)] at entry
    cases entry

/-- A change of a row that stores it well and brings in no column. -/
theorem mapRow (h : p.WellFormed) (i : Nat) {f : Row Rat → Row Rat}
    (row : ∀ r, r.WellFormed → (f r).WellFormed)
    (columns : ∀ r, ∀ e ∈ (f r).coeffs, ∃ e' ∈ r.coeffs, e'.1 = e.1) :
    (p.mapRow i f).WellFormed where
  rows := forall_mem_modify h.rows fun r place => row r (h.rows r (List.mem_of_getElem? place))
  columns := h.columns
  live := forall_mem_modify h.live fun r place e mem => by
    obtain ⟨e', mem', same⟩ := columns r e mem
    exact same ▸ h.live r (List.mem_of_getElem? place) e' mem'

/-- A change of the sides and attributes of a row that stores it well. -/
theorem mapRow_of_coeffs_eq (h : p.WellFormed) (i : Nat) {f : Row Rat → Row Rat}
    (row : ∀ r, r.WellFormed → (f r).WellFormed) (coeffs : ∀ r, (f r).coeffs = r.coeffs) :
    (p.mapRow i f).WellFormed :=
  h.mapRow i row fun r e mem => ⟨e, coeffs r ▸ mem, rfl⟩

/-- A change of a column that stores it well and does not fix it. -/
theorem mapColumn (h : p.WellFormed) {j : Nat} {f : Column Rat → Column Rat}
    (column : ∀ c, p.columns[j]? = some c → (f c).WellFormed)
    (fixed : ∀ c, (f c).flags.fixed = c.flags.fixed) : (p.mapColumn j f).WellFormed where
  rows := h.rows
  columns := forall_mem_modify h.columns column
  live r mem e entry := (h.live r mem e entry).mapColumn fun _ => fixed

/-- Taking a column out of all rows and fixing it. -/
theorem eliminate (h : p.WellFormed) (j : Nat) : (p.eliminate j).WellFormed := by
  unfold Problem.eliminate
  split
  · exact h
  · rename_i c place
    dsimp only
    constructor
    case rows =>
      intro r' mem
      obtain ⟨r, before, rfl⟩ := List.mem_map.1 mem
      exact (h.rows r before).putIn j _
    case columns =>
      exact forall_mem_modify h.columns fun c _ => .fixColumn _ c
    case live =>
      intro r' mem e entry
      obtain ⟨r, before, rfl⟩ := List.mem_map.1 mem
      obtain ⟨entry', other⟩ := Row.mem_putIn entry
      exact (h.live r before e entry').mapColumn fun here => absurd here other

end WellFormed
end Problem

/-! ### Modules -/

namespace ModuleKind

variable {target : Option Settings} {s : Scope Rat} {start : Problem Rat} {x y : Instance Rat}

/-- **Every change of an element leaves a well-formed program well-formed.** -/
theorem wellFormed_of_step (k : ModuleKind) (h : x.problem.WellFormed)
    (step : (k.direct target s).Step start x y) : y.problem.WellFormed := by
  cases k with
  | constraint =>
    obtain ⟨i, -, rfl⟩ := step
    exact h.mapRow_of_coeffs_eq i (fun _ => .markRedundant) fun _ => rfl
  | collapse =>
    obtain ⟨j, -, rfl⟩ := step
    exact h.mapColumn (fun c place => (h.column place).collapse _) fun _ => rfl
  | objective =>
    obtain ⟨j, -, rfl⟩ := step
    exact h.mapColumn (fun c place => (h.column place).setCost_zero) fun _ => rfl
  | side =>
    obtain ⟨i, -, rfl⟩ := step
    exact h.mapRow_of_coeffs_eq i (fun r hr => (hr.setLhs _).setRhs _) fun _ => rfl
  | fixing =>
    obtain ⟨j, -, rfl⟩ := step
    exact h.eliminate j
  | coefficient =>
    obtain ⟨e, -, rfl⟩ := step
    exact h.mapRow e.1 (fun r hr => hr.putIn e.2 _) fun r e' mem => ⟨e', (Row.mem_putIn mem).1, rfl⟩
  | varround =>
    -- a column that is fixed may not be rounded: it would keep its mark, but not its single value
    obtain ⟨j, admissible, rfl⟩ := step
    obtain ⟨c, place, rounds⟩ := (Option.any_eq_true _ _).1 admissible
    obtain ⟨used, -⟩ := Bool.and_eq_true_iff.1 rounds
    rw [Bool.not_eq_true'] at used
    obtain ⟨notFixed, -⟩ := Bool.or_eq_false_iff.1 used
    refine h.mapColumn (fun c' place' => ?_) (Column.fixed_roundColumn _)
    obtain rfl := Option.some.inj (place.symm.trans place')
    exact (h.column place).roundColumn notFixed _
  | consround =>
    obtain ⟨i, -, rfl⟩ := step
    exact h.mapRow i (fun r hr => hr.roundEntries.roundSides _ _) fun r e mem =>
      Row.exists_mem_of_mem_makeIntegral mem
  | setting =>
    obtain ⟨e, -, rfl⟩ := step
    cases target <;> exact h

end ModuleKind

/-! ### Building -/

/-- A column that is built is well-formed. -/
theorem ColumnPlan.wellFormed_toColumn (c : ColumnPlan Rat) : c.toColumn.WellFormed := by
  refine .of_not_fixed rfl (fun infinite => ?_) fun infinite => ?_
  · have none : c.lower = none := Option.isNone_iff_eq_none.1 infinite
    exact congrArg (Option.getD · 0) none
  · have none : c.upper = none := Option.isNone_iff_eq_none.1 infinite
    exact congrArg (Option.getD · 0) none

/-- A row that is built is well-formed. -/
theorem RowPlan.wellFormed_toRow (r : RowPlan Rat) : r.toRow.WellFormed := by
  refine Row.wellFormed_refresh (fun infinite => ?_) fun infinite => ?_
  · have none : r.lhs = none := Option.isNone_iff_eq_none.1 infinite
    exact congrArg (Option.getD · 0) none
  · have none : r.rhs = none := Option.isNone_iff_eq_none.1 infinite
    exact congrArg (Option.getD · 0) none

namespace Builder

/-- When nothing is wrong, every entry belongs to a column. -/
theorem inside_of_fault?_eq_none {b : Builder Rat} (sound : b.fault? = none)
    {e : (Nat × Nat) × Rat} (mem : e ∈ b.entries) : e.1.2 < b.columns.length := by
  unfold fault? at sound
  cases outside : b.entries.find? fun e => b.isOutside e.1 with
  | some e' =>
    rw [outside] at sound
    cases sound
  | none =>
    have inside := List.find?_eq_none.1 outside e mem
    unfold isOutside at inside
    rw [Bool.or_eq_true, not_or, decide_eq_true_iff, decide_eq_true_iff] at inside
    exact Nat.lt_of_not_le inside.2

/-- **Whatever is built is well-formed.** -/
theorem wellFormed_build {b : Builder Rat} {p : Problem Rat} (built : b.build = .ok p) :
    p.WellFormed := by
  obtain ⟨sound, rfl⟩ := (build_eq_ok_iff b p).1 built
  have written {r : Row Rat} (mem : r ∈ b.toProblem.rows) :
      ∃ i plan, r = Row.overlay b.entries i (RowPlan.toRow plan) := by
    obtain ⟨i, row⟩ := List.mem_iff_getElem?.1 mem
    have row : (b.entries.writeTo (b.rows.map RowPlan.toRow))[i]? = some r := row
    rw [Changes.getElem?_writeTo, List.getElem?_map] at row
    obtain ⟨blank, planned, rfl⟩ := Option.map_eq_some_iff.1 row
    obtain ⟨plan, -, rfl⟩ := Option.map_eq_some_iff.1 planned
    exact ⟨i, plan, rfl⟩
  constructor
  case rows =>
    intro r mem
    obtain ⟨i, plan, rfl⟩ := written mem
    exact plan.wellFormed_toRow.overlay _ _
  case columns =>
    intro c mem
    obtain ⟨plan, -, rfl⟩ := List.mem_map.1 mem
    exact plan.wellFormed_toColumn
  case live =>
    intro r mem e entry
    obtain ⟨i, plan, rfl⟩ := written mem
    rcases Row.mem_overlay entry with none | noted
    · exact absurd none List.not_mem_nil
    · have inside := inside_of_fault?_eq_none sound noted
      refine ⟨b.columns[e.1].toColumn, ?_, rfl⟩
      show (b.columns.map ColumnPlan.toColumn)[e.1]? = _
      rw [List.getElem?_map, List.getElem?_eq_getElem inside]
      rfl

/-- A column with a single value and a free integral one, in an equation and another row. -/
def pinned : Builder Rat :=
  { name := "pinned", sense := .minimize, offset := 0
    columns := [⟨"x", 2, some (3 / 2), some (3 / 2), false⟩, ⟨"y", 0, none, none, true⟩]
    rows := [⟨"r", none, some 5⟩, ⟨"s", some 1, some 1⟩]
    entries := [((0, 0), 1), ((0, 1), 1 / 2), ((1, 0), 4)] }

end Builder

/-! ### Runs -/

/-- No change of an element makes a program ill-formed. -/
theorem Scope.keeps_wellFormed (s : Scope Rat) (target : Option Settings) :
    s.Keeps target fun x => x.problem.WellFormed :=
  fun k _ _ _ _ h step => k.wellFormed_of_step h step

namespace Run

/-- **What is stored agrees throughout a run.**  It does in every instance that the oracle is asked
about and after every call, if the run begins with a program that was built. -/
theorem represented_throughout {ω : Type} {b : Builder Rat} {p : Problem Rat}
    (built : b.build = .ok p) (settings : Settings) (solution : Solution Rat)
    (o : Oracle Rat ω) (params : Parameters) (target : Option Settings) (s : RunState)
    (session : Session Rat ω) : Throughout (fun x => x.problem.Represented) o params target s
      { settings := settings, problem := p, solution := solution } session := by
  have upheld := holds_throughout o s session
    (i := { settings := settings, problem := p, solution := solution })
    (Builder.canonical_build built) (Scope.keeps_wellFormed (Scope.ofRun params _) target)
    (Builder.wellFormed_build built)
  exact upheld.imp fun x upholds => upholds.holds.represented upholds.canonical

/-- An oracle that always sees the defect lets everything go, and the columns are fixed in the end,
which takes them out of rows that are redundant by then. -/
theorem represented_throughout_pinned :
    let i : Instance Rat :=
      { settings := {}, problem := Builder.pinned.toProblem, solution := .unknown }
    let o : Oracle Rat Unit := .ofFunction fun _ => ⟨⟨1⟩, .unknown, 1⟩
    let final := (reduce o .standard none (.start .standard) i (.start () .empty)).2.inst.problem
    Builder.pinned.build = .ok i.problem ∧
      (final.columns.map fun c => c.flags.fixed) = [true, true] ∧
      final.rows.map Row.isRedundant = [true, true] ∧
      Throughout (fun x => x.problem.Represented) o .standard none (.start .standard) i
        (.start () .empty) := by
  have built : Builder.pinned.build = .ok Builder.pinned.toProblem :=
    (Builder.build_eq_ok_iff ..).2 ⟨by decide +kernel, rfl⟩
  exact ⟨built, by decide +kernel, by decide +kernel,
    represented_throughout built {} .unknown _ .standard none (.start .standard) (.start () .empty)⟩

end Run
end MipShrink
