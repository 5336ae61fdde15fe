/-
# Oracles

An oracle stands for the solver: asked about an instance it answers with a return code, the status
that the solver reports, and the effort it took, and may change its own state in doing so.  It is
free to answer the same question differently at another time; `IsFunction` says that it does not.
Time passes on the clock of the oracle.
-/

import MipShrink.Instance
import MipShrink.Oracle.Verdict

namespace MipShrink

/-- The answer to a probe. -/
structure Answer where
  retcode : Retcode
  status : SolverStatus
  /-- The effort of the solver, such as a number of iterations, or `-1` if it is not known. -/
  effort : Int
deriving DecidableEq, Repr

/-- A solver with internal states `ω`. -/
structure Oracle (α ω : Type) where
  ask : Instance α → ω → Answer × ω
  /-- Microseconds on the clock. -/
  clock : ω → Nat

namespace Oracle

variable {α ω : Type}

/-- The answer depends on the instance alone. -/
def IsFunction (o : Oracle α ω) (f : Instance α → Answer) : Prop :=
  ∀ i w, (o.ask i w).1 = f i

/-- The oracle that answers by a function and keeps no state. -/
def ofFunction (f : Instance α → Answer) : Oracle α Unit :=
  { ask := fun i w => (f i, w), clock := fun _ => 0 }

/-- The oracle of a function answers as the function does. -/
theorem isFunction_ofFunction (f : Instance α → Answer) : (ofFunction f).IsFunction f :=
  fun _ _ => rfl

end Oracle
end MipShrink
