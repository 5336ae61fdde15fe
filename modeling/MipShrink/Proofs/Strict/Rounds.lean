/-
# Rounds with strict look-ups

The loop of rounds and stages once more, with the faults that are its own: a module is looked up by
its number, the statuses of a round are put on a list with room for as many modules as a run can
hold, and the number of batches is a quotient.  The loop over the modules of a round has no other
end than its own condition.

If a strict machine simulates a machine (`StrictMachine.Simulates`) and has no more modules than a
run can hold, its run does what the run of the machine does (`StrictMachine.run_eq_ok`), whatever
the first stage and the limits are.  The number of the next module is the number of statuses of the
round, and it is below the number of modules because it is at most the stage.
-/

import MipShrink.Proofs.Strict.Faults
import MipShrink.Run.Loop

namespace MipShrink

/-- The modules as a strict loop sees them. -/
structure StrictMachine (σ : Type) where
  /-- The number of modules. -/
  count : Nat
  check : σ → Verdict × σ
  call : Nat → Nat → σ → Except Fault ((CallStatus × Int) × σ)
  size : σ → Except Fault ProblemSize
  save : RunState → σ → σ
  stats : σ → List (String × Stats)
  probes : σ → Nat
  elapsed : σ → Nat

namespace StrictMachine

variable {σ τ : Type}

/-- The number of modules that a run can hold. -/
def capacity : Nat := 16

/-- The number of batches after a success of the given effort. -/
def adapted (expenditure effort : Int) (batches : Nat) : Except Fault Nat :=
  if 0 < expenditure ∧ 0 < effort then Strict.divCeil expenditure.toNat effort.toNat
  else return batches

/-- The state after a call of module `k`. -/
def afterCall (expenditure : Int) (k : Nat) (status : CallStatus) (effort : Int) (s : RunState) :
    Except Fault RunState := do
  if status = .successful then
    return { s with success := k, batches := ← adapted expenditure effort s.batches }
  else if k = s.success then return { s with stage := s.stage + 1, success := s.stage + 1 }
  else return s

/-- The calls of one round from module `k` on, after those with the given statuses. -/
def calls (m : StrictMachine σ) (l : Limits) (k : Nat) (statuses : List CallStatus) (s : RunState)
    (w : σ) : Except Fault (List CallStatus × RunState × σ) :=
  if k ≤ s.stage ∧ s.stage < l.maxStages then do
    let (answer, w) ← m.call k s.batches w
    let statuses ← Strict.push capacity answer.1 statuses
    let s ← afterCall l.expenditure k answer.1 answer.2 s
    m.calls l (k + 1) statuses s w
  else return (statuses, s, w)
termination_by l.maxStages - k

/-- One round, with its record. -/
def round (m : StrictMachine σ) (l : Limits) (s : RunState) (w : σ) :
    Except Fault (RoundRecord × RunState × σ) := do
  let (statuses, s, w) ← m.calls l 0 [] s w
  let s := Machine.endRound s
  let record :=
    { round := s.round, stage := s.stage, batches := s.batches, statuses := statuses
      size := ← m.size w : RoundRecord }
  return (record, s, m.save s w)

/-- At most `left` rounds. -/
def rounds (m : StrictMachine σ) (l : Limits) :
    Nat → RunState → σ → Except Fault (List RoundRecord × RunState × σ)
  | 0, s, w => return ([], s, w)
  | left + 1, s, w => do
    if s.stage < l.maxStages then
      let (record, s, w) ← m.round l s w
      if l.isOver (m.elapsed w) then return ([record], s, w)
      else
        let (records, s, w) ← m.rounds l left s w
        return (record :: records, s, w)
    else return ([], s, w)

/-- The verdict on the instance as it is, unless it is not wanted. -/
def opening (m : StrictMachine σ) (p : Parameters) (w : σ) : Option Verdict × σ :=
  if p.mode = .reduceOnly then (none, w)
  else
    let r := m.check w
    (some r.1, r.2)

/-- The rounds after the opening, unless the defect does not show or nothing is to be reduced. -/
def body (m : StrictMachine σ) (p : Parameters) (s : RunState) (opened : Option Verdict × σ) :
    Except Fault (List RoundRecord × RunState × σ) :=
  if opened.1 = some .okay ∨ p.mode = .reproduceOnly then return ([], s, opened.2)
  else
    let l : Limits :=
      { maxStages := min p.maxStages m.count, expenditure := p.expenditure, time := p.timeLimit }
    m.rounds l (p.maxRounds - s.round) s opened.2

/-- Run the machine from a state. -/
def run (m : StrictMachine σ) (p : Parameters) (s : RunState) (w : σ) :
    Except Fault (Summary × σ) := do
  if capacity < m.count then throw (.modules m.count)
  let before ← m.size w
  let opened := m.opening p w
  let (records, s, w) ← m.body p s opened
  return ({ initial := opened.1
            rounds := records
            modules := m.stats w
            before := before
            after := ← m.size w
            probes := m.probes w
            elapsed := m.elapsed w
            state := s }, w)

/-- The strict machine `m` does what the machine `n` does, from states that are related to states
that are related. -/
structure Simulates (R : σ → τ → Prop) (m : StrictMachine σ) (n : Machine τ) : Prop where
  count : m.count = n.count
  check : ∀ {w x}, R w x → (m.check w).1 = (n.check x).1 ∧ R (m.check w).2 (n.check x).2
  call : ∀ {k w x}, ∀ batches, k < m.count → R w x →
    ∃ w', m.call k batches w = .ok ((n.call k batches x).1, w') ∧ R w' (n.call k batches x).2
  size : ∀ {w x}, R w x → m.size w = .ok (n.size x)
  save : ∀ {s w x}, R w x → R (m.save s w) (n.save s x)
  stats : ∀ {w x}, R w x → m.stats w = n.stats x
  probes : ∀ {w x}, R w x → m.probes w = n.probes x
  elapsed : ∀ {w x}, R w x → m.elapsed w = n.elapsed x

variable {R : σ → τ → Prop} {m : StrictMachine σ} {n : Machine τ} {l : Limits}

/-- The state after a call is found without fault, since the effort is only a divisor if it is
positive. -/
theorem afterCall_eq_ok (expenditure : Int) (k : Nat) (status : CallStatus) (effort : Int)
    (s : RunState) : afterCall expenditure k status effort s =
      .ok (s.afterCall expenditure k status effort) := by
  unfold afterCall RunState.afterCall
  split
  · unfold adapted RunState.adapted
    split
    · rename_i positive
      unfold Strict.divCeil
      rw [if_neg (by omega)]
      rfl
    · rfl
  · split <;> rfl

/-- **A round does not fault.**  Before the call of module `k` there are `k` statuses, and `k` is at
most the stage, which is below the number of modules. -/
theorem calls_eq_ok (simulates : Simulates R m n) (stages : l.maxStages ≤ m.count)
    (room : m.count ≤ capacity) {left k : Nat} (enough : l.maxStages ≤ left + k)
    {statuses : List CallStatus} (called : statuses.length = k) (s : RunState) {w : σ} {x : τ}
    (h : R w x) :
    ∃ w', m.calls l k statuses s w =
        .ok (statuses ++ (n.calls l left k s x).1, (n.calls l left k s x).2.1, w') ∧
      R w' (n.calls l left k s x).2.2 := by
  induction left generalizing k statuses s w x with
  | zero =>
    rw [calls, if_neg (by omega), Machine.calls, List.append_nil]
    exact ⟨w, rfl, h⟩
  | succ left ih =>
    rw [calls, Machine.calls]
    split
    · rename_i due
      have module : k < m.count := by omega
      have pushed (status : CallStatus) : Strict.push capacity status statuses =
          .ok (statuses ++ [status]) := if_pos (by omega)
      obtain ⟨w₁, answered, next⟩ := simulates.call s.batches module h
      have longer : (statuses ++ [(n.call k s.batches x).1.1]).length = k + 1 := by
        rw [List.length_append, called]
        rfl
      obtain ⟨w₂, rest, last⟩ := ih (by omega) longer (s.afterCall l.expenditure k
        (n.call k s.batches x).1.1 (n.call k s.batches x).1.2) next
      rw [List.append_assoc] at rest
      refine ⟨w₂, ?_, last⟩
      rw [answered, Strict.ok_bind]
      dsimp only
      rw [pushed, Strict.ok_bind, afterCall_eq_ok, Strict.ok_bind]
      exact rest
    · rw [List.append_nil]
      exact ⟨w, rfl, h⟩

/-- A strict round does what the round does. -/
theorem round_eq_ok (simulates : Simulates R m n) (stages : l.maxStages ≤ m.count)
    (room : m.count ≤ capacity) (s : RunState) {w : σ} {x : τ} (h : R w x) :
    ∃ w', m.round l s w = .ok ((n.round l s x).1, (n.round l s x).2.1, w') ∧
      R w' (n.round l s x).2.2 := by
  have none : ([] : List CallStatus).length = 0 := rfl
  obtain ⟨w', called, next⟩ := calls_eq_ok simulates stages room
    (Nat.le_refl l.maxStages : l.maxStages ≤ l.maxStages + 0) none s h
  rw [List.nil_append] at called
  refine ⟨m.save (Machine.endRound (n.calls l l.maxStages 0 s x).2.1) w', ?_,
    simulates.save next⟩
  unfold round
  rw [called, Strict.ok_bind]
  dsimp only
  rw [simulates.size next]
  rfl

/-- Strict rounds do what the rounds do. -/
theorem rounds_eq_ok (simulates : Simulates R m n) (stages : l.maxStages ≤ m.count)
    (room : m.count ≤ capacity) (left : Nat) (s : RunState) {w : σ} {x : τ} (h : R w x) :
    ∃ w', m.rounds l left s w = .ok ((n.rounds l left s x).1, (n.rounds l left s x).2.1, w') ∧
      R w' (n.rounds l left s x).2.2 := by
  induction left generalizing s w x with
  | zero => exact ⟨w, rfl, h⟩
  | succ left ih =>
    rw [rounds, Machine.rounds]
    split
    · obtain ⟨w₁, first, next⟩ := round_eq_ok simulates stages room s h
      dsimp only
      rw [first, Strict.ok_bind]
      dsimp only
      rw [simulates.elapsed next]
      split
      · exact ⟨w₁, rfl, next⟩
      · obtain ⟨w₂, rest, last⟩ := ih (n.round l s x).2.1 next
        rw [rest]
        exact ⟨w₂, rfl, last⟩
    · exact ⟨w, rfl, h⟩

/-- **A run does not fault**, if a run can hold the modules and their calls do not fault. -/
theorem run_eq_ok (simulates : Simulates R m n) (room : m.count ≤ capacity) (p : Parameters)
    (s : RunState) {w : σ} {x : τ} (h : R w x) :
    ∃ w', m.run p s w = .ok ((n.run p s x).1, w') ∧ R w' (n.run p s x).2 := by
  have opened : (m.opening p w).1 = (n.opening p x).1 ∧
      R (m.opening p w).2 (n.opening p x).2 := by
    unfold opening Machine.opening
    split
    · exact ⟨rfl, h⟩
    · obtain ⟨verdict, next⟩ := simulates.check h
      exact ⟨congrArg some verdict, next⟩
  have ran : ∃ w', m.body p s (m.opening p w) = .ok ((n.body p s (n.opening p x)).1,
      (n.body p s (n.opening p x)).2.1, w') ∧ R w' (n.body p s (n.opening p x)).2.2 := by
    unfold body Machine.body
    rw [opened.1, simulates.count]
    split
    · exact ⟨_, rfl, opened.2⟩
    · exact rounds_eq_ok simulates (by rw [simulates.count]; exact Nat.min_le_right ..) room _ s
        opened.2
  obtain ⟨w', done, last⟩ := ran
  refine ⟨w', ?_, last⟩
  unfold run
  rw [if_neg (by omega), simulates.size h, Strict.ok_bind]
  dsimp only
  rw [done, Strict.ok_bind]
  dsimp only
  rw [simulates.size last, simulates.stats last, simulates.probes last, simulates.elapsed last,
    opened.1]
  rfl

end StrictMachine
end MipShrink
