/-
# Reductions

A reduction names the elements of an instance that it may change, tells which of them are worth
changing in the current draft, and changes them.  The *draft* is the working copy of the instance;
new coefficients wait in it until it is flushed, while bounds, sides, flags, costs and settings
change at once.

What a reduction may look at besides the draft is its `Scope`: the tolerances, the reference, and
the emphasis.  It may also look at the program as it was when the call began.
-/

import MipShrink.Instance
import MipShrink.Parameters.Basic

namespace MipShrink

/-- What guides a reduction. -/
structure Scope (α : Type) where
  tolerance : Tolerance α
  solution : Solution α
  emphasis : Emphasis

/-- The working copy of an instance, with coefficients that wait to be written. -/
structure Draft (α : Type) where
  problem : Problem α
  settings : Settings
  pending : Changes α
deriving Repr

namespace Draft

variable {α : Type}

/-- A draft without changes. -/
def ofInstance (i : Instance α) : Draft α :=
  { problem := i.problem, settings := i.settings, pending := [] }

/-- The draft with its program changed at once. -/
def mapProblem (f : Problem α → Problem α) (d : Draft α) : Draft α :=
  { d with problem := f d.problem }

/-- Note a new coefficient for the next flush. -/
def change (i j : Nat) (x : α) (d : Draft α) : Draft α :=
  { d with pending := d.pending.add i j x }

/-- Write the coefficients that wait. -/
def flush [Scalar α] (d : Draft α) : Draft α :=
  { d with problem := d.problem.write d.pending, pending := [] }

/-- The instance that the draft holds, with the given reference. -/
def toInstance (solution : Solution α) (d : Draft α) : Instance α :=
  { settings := d.settings, problem := d.problem, solution := solution }

/-- After a flush nothing waits. -/
@[simp] theorem pending_flush [Scalar α] (d : Draft α) : d.flush.pending = [] := rfl

/-- If nothing waits, a flush changes nothing. -/
theorem flush_of_pending_eq_nil [Scalar α] {d : Draft α} (h : d.pending = []) : d.flush = d := by
  cases d
  simp_all [flush, Problem.write]

end Draft

/-- One way of simplifying an instance, by changes of single elements of type `υ`. -/
structure Reduction (α υ : Type) where
  /-- The elements in the order in which they are tried. -/
  candidates : Problem α → Settings → List υ
  /-- Is the element worth changing?  The first argument is the program when the call began. -/
  admissible : Problem α → Draft α → υ → Bool
  /-- Change an element that is worth changing. -/
  apply : υ → Draft α → Draft α

namespace Reduction

variable {α υ : Type}

/-- The elements that are worth changing before anything is changed. -/
def eligible (r : Reduction α υ) (d : Draft α) : List υ :=
  (r.candidates d.problem d.settings).filter (r.admissible d.problem d)

end Reduction

namespace Scope

variable {α : Type}

/-- The positions `0, …, n - 1` from the last one down. -/
def downFrom (n : Nat) : List Nat := (List.range n).reverse

/-- The list counts down through all numbers below its bound. -/
theorem mem_downFrom {n k : Nat} : k ∈ downFrom n ↔ k < n := by
  unfold downFrom
  rw [List.mem_reverse, List.mem_range]

variable [Scalar α]

/-- The value that a column is moved to: the value of the reference point, rounded if the column is
integral, and without a point the bound closest to zero. -/
def valueOf (s : Scope α) (j : Nat) (p : Problem α) : α :=
  match s.solution.point? p.ncols with
  | some x =>
    let v := x.getD j 0
    if p.columnHas j Column.isIntegral then Scalar.round v else v
  | none => ((p.columns[j]?).map Column.smallestBound).getD 0

end Scope
end MipShrink
