/-
# Instances

An instance is what is handed to the solver: a program, the settings it is solved with, and a
reference solution that tells what the answer should be.
-/

import MipShrink.Settings.Basic
import MipShrink.Solution.Basic

namespace MipShrink

/-- A program with the settings and the reference it is solved with. -/
structure Instance (α : Type) where
  settings : Settings
  problem : Problem α
  solution : Solution α
deriving DecidableEq, Repr

namespace Instance

variable {α : Type} [Scalar α]

/-- The instance without redundant rows and fixed columns, and where the others went. -/
def compress (i : Instance α) : Instance α × IndexMaps :=
  let c := i.problem.compress
  ({ i with problem := c.1, solution := i.solution.compress c.2 }, c.2)

end Instance
end MipShrink
