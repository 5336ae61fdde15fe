/-
# Reductions of columns

* `collapse` collapses a domain to one value, that of the reference point or the bound closest to
  zero.
* `objective` removes objective terms.
* `fixing` takes a column with a single value out: the value moves into the sides of its rows and
  into the constant of the objective, and the column is marked fixed.
* `varround` makes the cost and the bounds integral.  Bounds are rounded outward, so that the
  domain only grows; a domain of a single value is left alone.
-/

import MipShrink.Reduction.Basic

namespace MipShrink
namespace Reduction

variable {α : Type} [Scalar α]

/-- Collapse domains. -/
def collapse (s : Scope α) : Reduction α Nat :=
  { candidates := fun p _ => Scope.downFrom p.ncols
    admissible := fun _ d j => d.problem.columnHas j (Column.isOpen s.tolerance.admissibility)
    apply := fun j d =>
      d.mapProblem fun p => p.mapColumn j (Column.collapse (s.valueOf j p)) }

/-- Remove objective terms. -/
def objective (s : Scope α) : Reduction α Nat :=
  { candidates := fun p _ => Scope.downFrom p.ncols
    admissible := fun _ d j =>
      d.problem.columnHas j fun c =>
        !c.isRemoved && !Within.vanishes s.tolerance.admissibility c.cost
    apply := fun j d => d.mapProblem fun p => p.mapColumn j (Column.setCost 0) }

/-- The single value of a column: its lower bound, rounded if the column is integral. -/
def singleValue (c : Column α) : α :=
  if c.isIntegral then Scalar.round c.lower else c.lower

/-- The column without cost, fixed at a value. -/
def fixColumn (x : α) (c : Column α) : Column α :=
  ((c.collapse x).assignFlag .fixed true).setCost 0

/-- The program with the value of column `j` moved out of the sides and the objective, its
coefficients still in place. -/
def moveOut (j : Nat) (c : Column α) (x : α) (p : Problem α) : Problem α :=
  let p := p.mapColumnRows j fun a => Row.shift (a * x)
  { p with
    offset := p.offset + c.cost * x
    columns := p.columns.modify j (fixColumn x) }

/-- Note that all coefficients of column `j` disappear. -/
def noteErased (j : Nat) (d : Draft α) : Draft α :=
  (d.problem.column j).foldl (fun d e => d.change e.1 j 0) d

/-- Take out columns with a single value. -/
def fixing (s : Scope α) : Reduction α Nat :=
  { candidates := fun p _ => Scope.downFrom p.ncols
    admissible := fun _ d j =>
      d.problem.columnHas j fun c =>
        !c.isRemoved && c.isCollapsed s.tolerance.admissibility
    apply := fun j d =>
      match d.problem.columns[j]? with
      | none => d
      | some c => (noteErased j d).mapProblem (moveOut j c (singleValue c)) }

/-- Some bound of a domain with more than one value is not integral. -/
def hasFractionalBound (tol : α) (c : Column α) : Bool :=
  !c.isCollapsed tol &&
    ((!c.flags.lbInf && !Within.integral tol c.lower) ||
      (!c.flags.ubInf && !Within.integral tol c.upper))

/-- The column with its finite bounds rounded outward. -/
def roundBounds (tol : α) (c : Column α) : Column α :=
  let c := if c.flags.lbInf then c else c.setLower (Within.floor tol c.lower)
  if c.flags.ubInf then c else c.setUpper (Within.ceil tol c.upper)

/-- The column made integral. -/
def roundColumn (t : Tolerance α) (c : Column α) : Column α :=
  let c := c.setCost (Scalar.round c.cost)
  if c.isCollapsed t.admissibility then c else roundBounds t.feasibility c

/-- Make columns integral. -/
def varround (s : Scope α) : Reduction α Nat :=
  { candidates := fun p _ => List.range p.ncols
    admissible := fun _ d j =>
      d.problem.columnHas j fun c =>
        !c.isRemoved &&
          (!Within.integral s.tolerance.admissibility c.cost ||
            hasFractionalBound s.tolerance.admissibility c)
    apply := fun j d => d.mapProblem fun p => p.mapColumn j (roundColumn s.tolerance) }

end Reduction
end MipShrink
