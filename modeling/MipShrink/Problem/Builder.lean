/-
# Putting a program together

A builder holds the data of a program in any state.  A new column has the domain `[0, ∞)` and no
cost, a new row has two infinite sides.  Infinite bounds and sides are `none`.  `build` checks that
every coefficient belongs to the matrix and that no lower bound lies above its upper bound; the
first coefficient by position is blamed, then the first column.
-/

import MipShrink.Error
import MipShrink.Problem.Basic

namespace MipShrink

/-- A column that is being described. -/
structure ColumnPlan (α : Type) where
  name : String
  cost : α
  lower : Option α
  upper : Option α
  integral : Bool

/-- A row that is being described. -/
structure RowPlan (α : Type) where
  name : String
  lhs : Option α
  rhs : Option α

/-- A program that is being described. -/
structure Builder (α : Type) where
  name : String
  sense : Sense
  offset : α
  columns : List (ColumnPlan α)
  rows : List (RowPlan α)
  entries : Changes α

variable {α : Type} [Scalar α]

namespace ColumnPlan

/-- A new column. -/
def start (name : String) : ColumnPlan α :=
  { name := name, cost := 0, lower := some 0, upper := none, integral := false }

/-- Why the column cannot be built, if it cannot. -/
def fault? (c : ColumnPlan α) : Option BuildFault :=
  match c.lower, c.upper with
  | some l, some u =>
    if u < l then some (.crossedBounds c.name (Scalar.text l) (Scalar.text u)) else none
  | _, _ => none

/-- The column that is described. -/
def toColumn (c : ColumnPlan α) : Column α :=
  { name := c.name
    cost := c.cost
    lower := c.lower.getD 0
    upper := c.upper.getD 0
    flags := { lbInf := c.lower.isNone, ubInf := c.upper.isNone, integral := c.integral } }

end ColumnPlan

namespace RowPlan

/-- A new row. -/
def start (name : String) : RowPlan α :=
  { name := name, lhs := none, rhs := none }

/-- The row without coefficients. -/
def toRow (r : RowPlan α) : Row α :=
  let flags : RowFlags := { lhsInf := r.lhs.isNone, rhsInf := r.rhs.isNone }
  Row.refresh
    { name := r.name, coeffs := [], lhs := r.lhs.getD 0, rhs := r.rhs.getD 0, flags := flags }

end RowPlan

namespace Builder

/-- A program with so many new rows `c0`, `c1`, … and columns `x0`, `x1`, …. -/
def start (name : String) (nrows ncols : Nat) : Builder α :=
  { name := name
    sense := .minimize
    offset := 0
    columns := (List.range ncols).map fun j => ColumnPlan.start ("x" ++ toString j)
    rows := (List.range nrows).map fun i => RowPlan.start ("c" ++ toString i)
    entries := [] }

/-- The builder with a coefficient, which replaces an earlier one at its position. -/
def addEntry (i j : Nat) (x : α) (b : Builder α) : Builder α :=
  { b with entries := b.entries.add i j x }

/-- Describe one more column. -/
def addColumn (c : ColumnPlan α) (b : Builder α) : Builder α :=
  { b with columns := b.columns ++ [c] }

/-- Describe one more row. -/
def addRow (r : RowPlan α) (b : Builder α) : Builder α :=
  { b with rows := b.rows ++ [r] }

/-- The builder with one column changed. -/
def mapColumn (j : Nat) (f : ColumnPlan α → ColumnPlan α) (b : Builder α) : Builder α :=
  { b with columns := b.columns.modify j f }

/-- The builder with one row changed. -/
def mapRow (i : Nat) (f : RowPlan α → RowPlan α) (b : Builder α) : Builder α :=
  { b with rows := b.rows.modify i f }

/-- Does the position lie outside of the matrix? -/
def isOutside (b : Builder α) (position : Nat × Nat) : Bool :=
  decide (b.rows.length ≤ position.1) || decide (b.columns.length ≤ position.2)

/-- The first thing that keeps the data from being a program. -/
def fault? (b : Builder α) : Option BuildFault :=
  match b.entries.find? fun e => b.isOutside e.1 with
  | some e => some (.entryOutside e.1.1 e.1.2 b.rows.length b.columns.length)
  | none => b.columns.findSome? ColumnPlan.fault?

/-- The program that the data describe. -/
def toProblem (b : Builder α) : Problem α :=
  { name := b.name
    sense := b.sense
    offset := b.offset
    columns := b.columns.map ColumnPlan.toColumn
    rows := Changes.writeTo b.entries (b.rows.map RowPlan.toRow) }

/-- The program that the data describe, or what is wrong with them. -/
def build (b : Builder α) : Except Error (Problem α) :=
  match b.fault? with
  | some fault => .error (.build fault)
  | none => .ok b.toProblem

/-- A program is built exactly if no fault is found, and it is the one that was described. -/
theorem build_eq_ok_iff (b : Builder α) (p : Problem α) :
    b.build = .ok p ↔ b.fault? = none ∧ p = b.toProblem := by
  unfold build
  cases b.fault? with
  | none => simp [eq_comm]
  | some f => simp

end Builder
end MipShrink
