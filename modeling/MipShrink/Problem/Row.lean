/-
# Rows

A row is a linear constraint: its name, its coefficients in the order of their columns, its two
sides and its attributes.  As with columns, an infinite side is told by the attributes, and the
number stored for it has no meaning.  No coefficient is zero: `setCoeff` with zero removes the
entry.

The operations on the sides keep the attribute `equation` right: it holds exactly when both sides
are finite and equal.
-/

import MipShrink.Keyed
import MipShrink.Problem.Column

namespace MipShrink

/-- A linear constraint. -/
structure Row (α : Type) where
  name : String
  coeffs : List (Nat × α)
  lhs : α
  rhs : α
  flags : RowFlags
deriving DecidableEq, Repr

namespace Row

variable {α : Type}

/-- The left-hand side, if it is finite. -/
def lhs? (r : Row α) : Option α :=
  if r.flags.lhsInf then none else some r.lhs

/-- The right-hand side, if it is finite. -/
def rhs? (r : Row α) : Option α :=
  if r.flags.rhsInf then none else some r.rhs

/-- Has the row been marked as redundant? -/
def isRedundant (r : Row α) : Bool := r.flags.redundant

/-- The coefficient of a column, if it is stored. -/
def coeff? (j : Nat) (r : Row α) : Option α :=
  r.coeffs.lookup j

/-- The row with the attribute `f` holding exactly if `b` does. -/
def assignFlag (f : RowFlag) (b : Bool) (r : Row α) : Row α :=
  { r with flags := r.flags.assign f b }

variable [Scalar α]

/-- The row with a new coefficient of column `j`; zero removes it. -/
def setCoeff (j : Nat) (x : α) (r : Row α) : Row α :=
  { r with coeffs :=
      if Scalar.isZero x then Keyed.drop j r.coeffs else Keyed.put Keyed.natBefore j x r.coeffs }

/-- The row without stored zeros. -/
def dropZeros (r : Row α) : Row α :=
  { r with coeffs := r.coeffs.filter fun e => !Scalar.isZero e.2 }

/-- Both sides are finite and equal. -/
def sidesAgree (r : Row α) : Bool :=
  !r.flags.lhsInf && !r.flags.rhsInf && r.lhs == r.rhs

/-- The row with its attribute `equation` made right. -/
def refresh (r : Row α) : Row α :=
  r.assignFlag .equation r.sidesAgree

/-- The row with a finite left-hand side. -/
def setLhs (x : α) (r : Row α) : Row α :=
  refresh { r with lhs := x, flags := r.flags.unset .lhsInf }

/-- The row with a finite right-hand side. -/
def setRhs (x : α) (r : Row α) : Row α :=
  refresh { r with rhs := x, flags := r.flags.unset .rhsInf }

/-- The row without left-hand side. -/
def freeLhs (r : Row α) : Row α :=
  refresh { r with lhs := 0, flags := r.flags.set .lhsInf }

/-- The row without right-hand side. -/
def freeRhs (r : Row α) : Row α :=
  refresh { r with rhs := 0, flags := r.flags.set .rhsInf }

/-- The row with `delta` subtracted from its finite sides. -/
def shift (delta : α) (r : Row α) : Row α :=
  let lhsInf := r.flags.lhsInf
  let rhsInf := r.flags.rhsInf
  let r := if lhsInf then r else r.setLhs (r.lhs - delta)
  if rhsInf then r else r.setRhs (r.rhs - delta)

/-- The value of the row at a point; a column without value counts as zero. -/
def activity (x : List α) (r : Row α) : α :=
  r.coeffs.foldl (fun sum e => sum + e.2 * x.getD e.1 0) 0

/-- The value of the row at a point that has a value for each of its columns. -/
def activity? (x : List α) (r : Row α) : Option α :=
  if r.coeffs.all fun e => decide (e.1 < x.length) then some (r.activity x) else none

/-- The side closest to zero when the interval of the sides lies on one side of it, else zero. -/
def smallestSide (r : Row α) : α :=
  if !r.flags.lhsInf && Scalar.isPositive r.lhs then r.lhs
  else if !r.flags.rhsInf && Scalar.isNegative r.rhs then r.rhs
  else 0

/-- The attribute of an equation tells whether the sides agree once it is refreshed. -/
@[simp] theorem equation_refresh (r : Row α) : r.refresh.flags.equation = r.sidesAgree := rfl

@[simp] theorem lhs?_setLhs (x : α) (r : Row α) : (r.setLhs x).lhs? = some x := rfl

@[simp] theorem rhs?_setRhs (x : α) (r : Row α) : (r.setRhs x).rhs? = some x := rfl

@[simp] theorem lhs?_freeLhs (r : Row α) : (r.freeLhs).lhs? = none := rfl

@[simp] theorem rhs?_freeRhs (r : Row α) : (r.freeRhs).rhs? = none := rfl

end Row
end MipShrink
