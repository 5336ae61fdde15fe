/-
# Made-up modules

A player stands in for a module: it answers from a list, counts its calls, and never probes.  A
play is the loop of rounds and stages over players.  It shows how the loop depends on the statuses
of the calls alone.
-/

import MipShrink.Rehearsal.Judge
import MipShrink.Run.Loop

namespace MipShrink

/-- A made-up module. -/
structure Player where
  name : String
  /-- The statuses of its next calls; after them it does not succeed any more. -/
  answers : List CallStatus
  /-- The efforts of its calls, of which the last one stays. -/
  efforts : List Int
  stats : Stats
deriving Repr

namespace Player

/-- The status of the next call. -/
def next (m : Player) : CallStatus :=
  m.answers.headD .unsuccessful

/-- The player after its next call. -/
def afterCall (m : Player) : Player :=
  let gain := if m.next = .successful then 1 else 0
  { m with
    answers := m.answers.tail
    stats :=
      { m.stats with calls := m.stats.calls + 1, successes := m.stats.successes + gain } }

end Player

/-- A run over players. -/
structure Play (α ω : Type) where
  inst : Instance α
  players : List Player
  /-- The calls with their numbers of batches, the latest first. -/
  log : List (String × Nat × CallStatus)
  session : Session α ω

namespace Play

variable {α ω : Type}

/-- Before the first call. -/
def start (i : Instance α) (players : List Player) (session : Session α ω) : Play α ω :=
  { inst := i, players := players, log := [], session := session }

/-- Call the player with the given number. -/
def call (k batches : Nat) (w : Play α ω) : (CallStatus × Int) × Play α ω :=
  match w.players[k]? with
  | none => ((.didNotRun, -1), w)
  | some m =>
    ((m.next, Judge.effortAt m.efforts m.stats.calls),
      { w with players := w.players.set k m.afterCall, log := (m.name, batches, m.next) :: w.log })

/-- A call changes nothing but the players and the log. -/
theorem session_call (k batches : Nat) (w : Play α ω) :
    (w.call k batches).2.session = w.session := by
  unfold call
  split <;> rfl

variable [Scalar α]

/-- The loop over the players. -/
def machine (o : Oracle α ω) (params : Parameters) (count : Nat) : Machine (Play α ω) :=
  { count := count
    check := fun w =>
      let r := w.session.ask o params w.inst
      (r.1, { w with session := r.2 })
    call := call
    size := fun w => w.inst.problem.size params.tolerance
    save := fun _ w => w
    stats := fun w => w.players.map fun m => (m.name, m.stats)
    probes := fun w => w.session.probes
    elapsed := fun w => o.clock w.session.state }

end Play
end MipShrink
