/-
# Where a run stands

A run goes in rounds and stages.  In stage `s` the modules `0, …, s` are in use.  The state also
remembers the module that succeeded last, or the stage when none did since the stage was reached,
and the number of batches of the next module call.  The state and the instance together are all
that the rest of a run depends on.
-/

import MipShrink.Parameters.Basic

namespace MipShrink

/-- The position of a run among its rounds and stages. -/
structure RunState where
  round : Nat
  stage : Nat
  /-- The module that succeeded last, or the stage when none did. -/
  success : Nat
  batches : Nat
deriving DecidableEq, Repr, Inhabited

namespace RunState

/-- The state in which a run begins. -/
def start (p : Parameters) : RunState :=
  { round := p.firstRound, stage := p.firstStage, success := p.firstStage, batches := p.batches }

end RunState
end MipShrink
