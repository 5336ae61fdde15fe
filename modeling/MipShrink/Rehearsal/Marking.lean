/-
# A made-up reduction

Marking a column means to give it the cost one.  A column is worth marking while its cost is zero,
and takes the column `reach` places further on along with it, which then is not worth marking any
more.  So it shows how a call goes on when one change makes another one needless.
-/

import MipShrink.Reduction.Basic

namespace MipShrink

variable {α : Type} [Scalar α]

/-- Mark a column. -/
def Problem.mark (j : Nat) (p : Problem α) : Problem α :=
  p.mapColumn j (Column.setCost 1)

/-- Marking the first `n` columns. -/
def Reduction.marking (n reach : Nat) : Reduction α Nat where
  candidates _ _ := List.range n
  admissible _ d j := d.problem.columnHas j fun c => Scalar.isZero c.cost
  apply j d :=
    let d := d.mapProblem (Problem.mark j)
    if 0 < reach ∧ j + reach < n then d.mapProblem (Problem.mark (j + reach)) else d

end MipShrink
