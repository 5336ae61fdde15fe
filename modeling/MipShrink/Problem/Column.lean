/-
# Columns

A column is a variable of the program: its name, its objective coefficient, its bounds and its
attributes.  Whether a bound is finite is told by the attributes alone; the number stored for an
infinite bound is zero and has no meaning (`lower?` and `upper?` give the finite bounds).
-/

import MipShrink.Flags
import MipShrink.Tolerance

namespace MipShrink

/-- A variable of a program. -/
structure Column (α : Type) where
  name : String
  cost : α
  lower : α
  upper : α
  flags : ColFlags
deriving DecidableEq, Repr

namespace Column

variable {α : Type}

/-- The lower bound, if it is finite. -/
def lower? (c : Column α) : Option α :=
  if c.flags.lbInf then none else some c.lower

/-- The upper bound, if it is finite. -/
def upper? (c : Column α) : Option α :=
  if c.flags.ubInf then none else some c.upper

/-- Integral by declaration or by implication. -/
def isIntegral (c : Column α) : Bool :=
  c.flags.integral || c.flags.implInt

/-- Fixed and inactive columns take no part in the reductions. -/
def isRemoved (c : Column α) : Bool :=
  c.flags.fixed || c.flags.inactive

/-- The column with a finite lower bound. -/
def setLower (x : α) (c : Column α) : Column α :=
  { c with lower := x, flags := c.flags.unset .lbInf }

/-- The column with a finite upper bound. -/
def setUpper (x : α) (c : Column α) : Column α :=
  { c with upper := x, flags := c.flags.unset .ubInf }

/-- The column with a single value. -/
def collapse (x : α) (c : Column α) : Column α :=
  (c.setLower x).setUpper x

/-- The column with another objective coefficient. -/
def setCost (x : α) (c : Column α) : Column α :=
  { c with cost := x }

/-- The column with the attribute `f` holding exactly if `b` does. -/
def assignFlag (f : ColFlag) (b : Bool) (c : Column α) : Column α :=
  { c with flags := c.flags.assign f b }

@[simp] theorem lower?_setLower (x : α) (c : Column α) : (c.setLower x).lower? = some x := rfl

@[simp] theorem upper?_setUpper (x : α) (c : Column α) : (c.setUpper x).upper? = some x := rfl

@[simp] theorem lower?_collapse (x : α) (c : Column α) : (c.collapse x).lower? = some x := rfl

@[simp] theorem upper?_collapse (x : α) (c : Column α) : (c.collapse x).upper? = some x := rfl

variable [Scalar α]

/-- The finite bound closest to zero when the domain lies on one side of it, else zero. -/
def smallestBound (c : Column α) : α :=
  if !c.flags.lbInf && Scalar.isPositive c.lower then c.lower
  else if !c.flags.ubInf && Scalar.isNegative c.upper then c.upper
  else 0

/-- Both bounds are finite and agree within the tolerance. -/
def isCollapsed (tol : α) (c : Column α) : Bool :=
  !c.flags.lbInf && !c.flags.ubInf && Within.same tol c.lower c.upper

/-- The column has room to move: it is not removed, and its domain is neither a single value nor
contradictory. -/
def isOpen (tol : α) (c : Column α) : Bool :=
  !c.isRemoved && (c.flags.lbInf || c.flags.ubInf || Within.below tol c.lower c.upper)

end Column
end MipShrink
