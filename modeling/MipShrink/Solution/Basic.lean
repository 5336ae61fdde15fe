/-
# Reference solutions

A reference tells what is known of a program: a feasible point, a point and a ray of an unbounded
program, infeasibility, or nothing.  A feasible reference with one value for each column is a
*point*, and guides the reductions.
-/

import MipShrink.Problem.Compress
import MipShrink.Text.Lines

namespace MipShrink

/-- What a reference solution is. -/
inductive SolutionStatus where
  | feasible
  | infeasible
  | unbounded
  | unknown
deriving DecidableEq, Repr

namespace SolutionStatus

/-- The name of a status. -/
def name : SolutionStatus → String
  | feasible => "Feasible"
  | infeasible => "Infeasible"
  | unbounded => "Unbounded"
  | unknown => "Unknown"

/-- The word of a status. -/
def text : SolutionStatus → String
  | feasible => "feasible"
  | infeasible => "infeasible"
  | unbounded => "unbounded"
  | unknown => "unknown"

/-- The status with the given word, in any case of its ASCII letters. -/
def ofWord? (word : String) : Option SolutionStatus :=
  let low := String.ofList (Text.lowerAscii word.toList)
  if low = "feasible" then some feasible
  else if low = "infeasible" then some infeasible
  else if low = "unbounded" then some unbounded
  else if low = "unknown" then some unknown
  else none

end SolutionStatus

/-- What is known of a program. -/
structure Solution (α : Type) where
  status : SolutionStatus
  primal : List α
  ray : List α
deriving BEq, DecidableEq, Repr

namespace Solution

variable {α : Type}

/-- A status without vectors. -/
def ofStatus (status : SolutionStatus) : Solution α :=
  { status := status, primal := [], ray := [] }

/-- Nothing is known. -/
def unknown : Solution α := ofStatus .unknown

/-- Is the reference a feasible point? -/
def isFeasible (s : Solution α) : Bool := s.status == .feasible

/-- The values of a feasible reference that has one for each of so many columns. -/
def point? (s : Solution α) (ncols : Nat) : Option (List α) :=
  if s.isFeasible && s.primal.length == ncols then some s.primal else none

/-- A point has a value for each column. -/
theorem length_of_point? {s : Solution α} {n : Nat} {x : List α} (point : s.point? n = some x) :
    x.length = n := by
  unfold point? at point
  split at point
  · rename_i guard
    rw [← Option.some.inj point]
    exact beq_iff_eq.1 (Bool.and_eq_true_iff.1 guard).2
  · cases point

/-- The entries of the kept columns; a vector of another length stays as it is. -/
def selectValues (map : List (Option Nat)) (v : List α) : List α :=
  if v.length = map.length then IndexMaps.select map v else v

/-- The reference of the compressed program. -/
def compress (maps : IndexMaps) (s : Solution α) : Solution α :=
  { s with primal := selectValues maps.cols s.primal, ray := selectValues maps.cols s.ray }

variable [Scalar α]

/-- The value lies outside of the domain, or is fractional where it has to be integral. -/
def violatesColumn (tol x : α) (c : Column α) : Bool :=
  (!c.flags.lbInf && !Within.atLeast tol x c.lower) ||
    (!c.flags.ubInf && !Within.atMost tol x c.upper) ||
    (c.isIntegral && !Within.integral tol x)

/-- The point violates a side of the row. -/
def violatesRow (tol : α) (x : List α) (r : Row α) : Bool :=
  (!r.flags.lhsInf && !Within.atLeast tol (r.activity x) r.lhs) ||
    (!r.flags.rhsInf && !Within.atMost tol (r.activity x) r.rhs)

/-- The names of the columns and rows that the point violates; only a point can violate any. -/
def violations (tol : α) (p : Problem α) (s : Solution α) : List String :=
  match s.point? p.ncols with
  | none => []
  | some x =>
    let columns := ((x.zip p.columns).filter fun e => violatesColumn tol e.1 e.2).map
      fun e => e.2.name
    let rows := (p.rows.filter fun r => !r.isRedundant && violatesRow tol x r).map Row.name
    columns ++ rows

end Solution
end MipShrink
