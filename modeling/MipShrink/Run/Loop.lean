/-
# Rounds and stages

The loop knows nothing of instances: it calls the modules of a `Machine` by their numbers and looks
at nothing but the status and the effort of each call.

In a round of stage `s` the modules `0, 1, …, s` are called one after the other.  A success is
remembered.  A failure of the module that was remembered means that every module up to the stage
has failed since: the next stage begins, within the same round.  The loop ends when the stage
reaches the number of stages, when there have been as many rounds as allowed, or when the time is
up.

After a success with effort `e > 0` and an expenditure `E > 0` the number of batches is `⌈E / e⌉`.
-/

import MipShrink.Call
import MipShrink.Problem.Basic
import MipShrink.Run.State

namespace MipShrink

/-- What happened in a round. -/
structure RoundRecord where
  round : Nat
  /-- The stage at the end of the round. -/
  stage : Nat
  batches : Nat
  /-- The statuses of the calls, in order. -/
  statuses : List CallStatus
  size : ProblemSize
deriving DecidableEq, Repr

/-- What became of a run. -/
structure Summary where
  /-- The verdict on the instance at the start, if it was asked for. -/
  initial : Option Verdict
  rounds : List RoundRecord
  modules : List (String × Stats)
  before : ProblemSize
  after : ProblemSize
  probes : Nat
  /-- Microseconds. -/
  elapsed : Nat
  state : RunState
deriving DecidableEq, Repr

namespace Summary

/-- Some module changed the instance. -/
def reduced (s : Summary) : Bool :=
  s.modules.any fun m => decide (0 < m.2.successes)

end Summary

/-- The modules as the loop sees them, over states `σ`. -/
structure Machine (σ : Type) where
  /-- The number of modules. -/
  count : Nat
  /-- Ask the oracle about the instance as it is. -/
  check : σ → Verdict × σ
  /-- Call the module with the given number, with so many batches.  The effort is that of its last
  accepted probe. -/
  call : Nat → Nat → σ → (CallStatus × Int) × σ
  /-- What there is left to reduce. -/
  size : σ → ProblemSize
  /-- What is done at the end of each round. -/
  save : RunState → σ → σ
  /-- The counters of the modules, by name. -/
  stats : σ → List (String × Stats)
  /-- The number of probes. -/
  probes : σ → Nat
  /-- Microseconds since the start. -/
  elapsed : σ → Nat

/-- The limits of the loop. -/
structure Limits where
  maxStages : Nat
  expenditure : Int
  /-- Seconds. -/
  time : Float
deriving Repr

namespace Limits

/-- Microseconds as seconds: the whole seconds and the rest of a second. -/
def seconds (micros : Nat) : Float :=
  (micros / 1000000).toFloat + (micros % 1000000 * 1000).toFloat / 1000000000

/-- The time is up after so many microseconds. -/
def isOver (l : Limits) (micros : Nat) : Bool :=
  decide (l.time ≤ seconds micros)

end Limits

namespace RunState

/-- The number of batches after a success of the given effort. -/
def adapted (expenditure effort : Int) (batches : Nat) : Nat :=
  if 0 < expenditure ∧ 0 < effort then
    (expenditure.toNat + effort.toNat - 1) / effort.toNat
  else batches

/-- The state after a call of module `k`. -/
def afterCall (expenditure : Int) (k : Nat) (status : CallStatus) (effort : Int)
    (s : RunState) : RunState :=
  if status = .successful then
    { s with success := k, batches := adapted expenditure effort s.batches }
  else if k = s.success then { s with stage := s.stage + 1, success := s.stage + 1 }
  else s

end RunState

namespace Machine

variable {σ : Type}

/-- The calls of one round from module `k` on.  There are at most `left` of them, which is enough
when it is the number of stages. -/
def calls (m : Machine σ) (l : Limits) :
    Nat → Nat → RunState → σ → List CallStatus × RunState × σ
  | 0, _, s, w => ([], s, w)
  | left + 1, k, s, w =>
    if k ≤ s.stage ∧ s.stage < l.maxStages then
      let r := m.call k s.batches w
      let rest := m.calls l left (k + 1) (s.afterCall l.expenditure k r.1.1 r.1.2) r.2
      (r.1.1 :: rest.1, rest.2)
    else ([], s, w)

/-- The state at the end of a round. -/
def endRound (s : RunState) : RunState :=
  { s with round := s.round + 1 }

/-- One round, with its record. -/
def round (m : Machine σ) (l : Limits) (s : RunState) (w : σ) : RoundRecord × RunState × σ :=
  let r := m.calls l l.maxStages 0 s w
  let s := endRound r.2.1
  let record :=
    { round := s.round, stage := s.stage, batches := s.batches, statuses := r.1
      size := m.size r.2.2 : RoundRecord }
  (record, s, m.save s r.2.2)

/-- At most `left` rounds. -/
def rounds (m : Machine σ) (l : Limits) :
    Nat → RunState → σ → List RoundRecord × RunState × σ
  | 0, s, w => ([], s, w)
  | left + 1, s, w =>
    if s.stage < l.maxStages then
      let r := m.round l s w
      if l.isOver (m.elapsed r.2.2) then ([r.1], r.2)
      else
        let rest := m.rounds l left r.2.1 r.2.2
        (r.1 :: rest.1, rest.2)
    else ([], s, w)

/-- The limits with no more stages than modules. -/
def limits (m : Machine σ) (p : Parameters) : Limits :=
  { maxStages := min p.maxStages m.count, expenditure := p.expenditure, time := p.timeLimit }

/-- All rounds from a state on. -/
def loop (m : Machine σ) (p : Parameters) (s : RunState) (w : σ) :
    List RoundRecord × RunState × σ :=
  m.rounds (m.limits p) (p.maxRounds - s.round) s w

/-- The verdict on the instance as it is, unless it is not wanted. -/
def opening (m : Machine σ) (p : Parameters) (w : σ) : Option Verdict × σ :=
  if p.mode = .reduceOnly then (none, w)
  else
    let r := m.check w
    (some r.1, r.2)

/-- The rounds after the opening, unless the defect does not show or nothing is to be reduced. -/
def body (m : Machine σ) (p : Parameters) (s : RunState) (opened : Option Verdict × σ) :
    List RoundRecord × RunState × σ :=
  if opened.1 = some .okay ∨ p.mode = .reproduceOnly then ([], s, opened.2)
  else m.loop p s opened.2

/-- Run the machine from a state. -/
def run (m : Machine σ) (p : Parameters) (s : RunState) (w : σ) : Summary × σ :=
  let opened := m.opening p w
  let r := m.body p s opened
  let last := r.2.2
  ({ initial := opened.1
     rounds := r.1
     modules := m.stats last
     before := m.size w
     after := m.size last
     probes := m.probes last
     elapsed := m.elapsed last
     state := r.2.1 }, last)

end Machine
end MipShrink
