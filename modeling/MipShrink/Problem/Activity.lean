/-
# What a row can be

The *activity* of a row is its value at a point of the domains.  `RowActivity` bounds it from both
sides: the finite contributions are summed and the infinite ones counted.  A side that holds for
every value in these bounds is implied by the domains.  A row *locks* a column in a direction when
moving the column that way can violate it.
-/

import MipShrink.Problem.Basic

namespace MipShrink

/-- The range of values of a row: sums of the finite contributions and counts of the infinite. -/
structure RowActivity (α : Type) where
  min : α
  max : α
  infMin : Nat
  infMax : Nat
deriving Repr

/-- The number of rows that keep a column from moving in each direction. -/
structure Locks where
  up : Nat
  down : Nat
deriving DecidableEq, Repr

variable {α : Type} [Scalar α]

namespace RowActivity

/-- The range of a row without coefficients. -/
def zero : RowActivity α := { min := 0, max := 0, infMin := 0, infMax := 0 }

/-- The range after a contribution of the coefficient `a` over a domain. -/
def add (a : α) (lower upper : Option α) (r : RowActivity α) : RowActivity α :=
  let ends := if Scalar.isPositive a then (lower, upper) else (upper, lower)
  let r :=
    match ends.1 with
    | some x => { r with min := r.min + a * x }
    | none => { r with infMin := r.infMin + 1 }
  match ends.2 with
  | some x => { r with max := r.max + a * x }
  | none => { r with infMax := r.infMax + 1 }

/-- Every value in the range satisfies both sides of the row, up to the tolerance. -/
def impliesSides (tol : α) (row : Row α) (r : RowActivity α) : Bool :=
  (row.flags.lhsInf || (r.infMin == 0 && Within.atLeast tol r.min row.lhs)) &&
    (row.flags.rhsInf || (r.infMax == 0 && Within.atMost tol r.max row.rhs))

end RowActivity

namespace Problem

/-- The range of a row over the domains of the columns. -/
def rowRange (row : Row α) (p : Problem α) : RowActivity α :=
  row.coeffs.foldl
    (fun r e =>
      match p.columns[e.1]? with
      | some c => r.add e.2 c.lower? c.upper?
      | none => r)
    RowActivity.zero

/-- The ranges of all rows. -/
def activities (p : Problem α) : List (RowActivity α) :=
  p.rows.map fun row => p.rowRange row

/-- The domains imply both sides of the row with this position. -/
def impliesRow (feasibility : α) (i : Nat) (p : Problem α) : Bool :=
  p.rowHas i fun row => (p.rowRange row).impliesSides feasibility row

/-- Moving the column of the coefficient up can violate the row. -/
def locksUp (row : Row α) (a : α) : Bool :=
  if Scalar.isPositive a then !row.flags.rhsInf else !row.flags.lhsInf

/-- Moving the column of the coefficient down can violate the row. -/
def locksDown (row : Row α) (a : α) : Bool :=
  if Scalar.isPositive a then !row.flags.lhsInf else !row.flags.rhsInf

/-- The locks of a column, from the rows that are not redundant. -/
def columnLocks (j : Nat) (p : Problem α) : Locks :=
  let count := fun locks : Row α → α → Bool =>
    (p.columnRows j).countP fun e => !e.1.isRedundant && locks e.1 e.2
  { up := count locksUp, down := count locksDown }

/-- The locks of all columns. -/
def locks (p : Problem α) : List Locks :=
  (List.range p.ncols).map fun j => p.columnLocks j

end Problem
end MipShrink
