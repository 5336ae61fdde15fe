/-
# Reductions of rows

* `constraint` drops rows.  Under safe emphasis with an infeasible reference only rows that the
  domains imply may go, because any other row could be the reason of the infeasibility.
* `side` turns a row with some room between its sides into an equation: at the value of the
  reference point, rounded if the row is integral, or at the side closest to zero.
* `consround` makes coefficients and sides integral.  Sides are rounded outward, and with a
  reference point further so that the point stays within them under the new coefficients.
-/

import MipShrink.Problem.Activity
import MipShrink.Reduction.Basic

namespace MipShrink
namespace Reduction

variable {α : Type} [Scalar α]

/-- Only implied rows may be dropped. -/
def keepsReasons (s : Scope α) : Bool :=
  s.emphasis == .safe && s.solution.status == .infeasible

/-- Drop rows. -/
def constraint (s : Scope α) : Reduction α Nat :=
  { candidates := fun p _ => Scope.downFrom p.nrows
    admissible := fun start d i =>
      d.problem.rowHas i (fun r => !r.isRedundant) &&
        (!keepsReasons s || start.impliesRow s.tolerance.feasibility i)
    apply := fun i d => d.mapProblem (Problem.markRedundant i) }

/-- A row has an infinite side or sides that differ by more than the tolerance. -/
def hasFreeSide (tol : α) (r : Row α) : Bool :=
  r.flags.lhsInf || r.flags.rhsInf || !Within.same tol r.lhs r.rhs

/-- Some column of the row has room to move. -/
def hasOpenColumn (tol : α) (p : Problem α) (r : Row α) : Bool :=
  r.coeffs.any fun e => p.columnHas e.1 (Column.isOpen tol)

/-- The value at which a row becomes an equation. -/
def sideValue (s : Scope α) (p : Problem α) (r : Row α) : α :=
  match s.solution.point? p.ncols with
  | some x =>
    let v := r.activity x
    if p.isRowIntegral s.tolerance.epsilon r then Scalar.round v else v
  | none => r.smallestSide

/-- The row as an equation. -/
def equate (s : Scope α) (p : Problem α) (r : Row α) : Row α :=
  let v := sideValue s p r
  (r.setLhs v).setRhs v

/-- Turn rows into equations. -/
def side (s : Scope α) : Reduction α Nat :=
  { candidates := fun p _ => Scope.downFrom p.nrows
    admissible := fun _ d i =>
      d.problem.rowHas i fun r =>
        !r.isRedundant && hasFreeSide s.tolerance.admissibility r &&
          hasOpenColumn s.tolerance.admissibility d.problem r
    apply := fun i d => d.mapProblem fun p => p.mapRow i (equate s p) }

/-- Some side or coefficient of the row is not integral. -/
def isFractionalRow (tol : α) (r : Row α) : Bool :=
  (!r.flags.lhsInf && !Within.integral tol r.lhs) ||
    (!r.flags.rhsInf && !Within.integral tol r.rhs) ||
    r.coeffs.any fun e => !Within.integral tol e.2

/-- The row with its coefficients rounded. -/
def roundCoeffs (r : Row α) : Row α :=
  { r with coeffs := r.coeffs.map fun e => (e.1, Scalar.round e.2) }

/-- A left-hand side rounded down, and further down to leave the activity room. -/
def outwardLhs (tol : α) (activity : Option α) (x : α) : α :=
  match activity with
  | some a => Scalar.least (Within.floor tol x) (Within.floor tol a)
  | none => Within.floor tol x

/-- A right-hand side rounded up, and further up to leave the activity room. -/
def outwardRhs (tol : α) (activity : Option α) (x : α) : α :=
  match activity with
  | some a => Scalar.greatest (Within.ceil tol x) (Within.ceil tol a)
  | none => Within.ceil tol x

/-- The row with its finite sides rounded outward. -/
def roundSides (tol : α) (activity : Option α) (r : Row α) : Row α :=
  let r := if r.flags.lhsInf then r else r.setLhs (outwardLhs tol activity r.lhs)
  if r.flags.rhsInf then r else r.setRhs (outwardRhs tol activity r.rhs)

/-- Note the rounded coefficients of row `i` that differ from the old ones. -/
def noteRounded (i : Nat) (r : Row α) (d : Draft α) : Draft α :=
  r.coeffs.foldl
    (fun d e =>
      let x := Scalar.round e.2
      if x == e.2 then d else d.change i e.1 x) d

/-- Make rows integral. -/
def consround (s : Scope α) : Reduction α Nat :=
  { candidates := fun p _ => List.range p.nrows
    admissible := fun _ d i =>
      d.problem.rowHas i fun r =>
        !r.isRedundant && isFractionalRow s.tolerance.admissibility r
    apply := fun i d =>
      match d.problem.rows[i]? with
      | none => d
      | some r =>
        let activity := (s.solution.point? d.problem.ncols).map fun x =>
          (roundCoeffs r).activity x
        (noteRounded i r d).mapProblem fun p =>
          p.mapRow i (roundSides s.tolerance.feasibility activity) }

end Reduction
end MipShrink
