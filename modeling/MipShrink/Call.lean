/-
# Calling a module

A call of a module applies its reduction to every eligible element, grouped in batches.  After each
batch the oracle is asked whether the defect is still there: if it is, the draft is *accepted*, and
otherwise it goes back to the last accepted state.  An element that an earlier change of the same
call has made inadmissible is skipped.  The call replaces the instance by the accepted state if a
batch was accepted, and leaves it alone if none was.

With `n` batches asked for, `k` eligible elements are cut in groups of `⌈k / n⌉`, which are at most
`n`; zero asks for a single batch.
-/

import MipShrink.Reduction.Basic
import MipShrink.Session

namespace MipShrink

/-- The outcome of a module call. -/
inductive CallStatus where
  /-- The module is switched off. -/
  | didNotRun
  /-- No element is eligible. -/
  | notAdmissible
  /-- Every batch was rejected. -/
  | unsuccessful
  | successful
deriving DecidableEq, Repr

namespace CallStatus

/-- The letter of a status in a report. -/
def letter : CallStatus → String
  | didNotRun => "-"
  | notAdmissible => "n"
  | unsuccessful => "u"
  | successful => "S"

/-- The status with the given letter. -/
def ofLetter? (c : Char) : Option CallStatus :=
  [didNotRun, notAdmissible, unsuccessful, successful].find? fun s => s.letter == c.toString

/-- The letter of a status tells the status. -/
theorem ofLetter?_letter (s : CallStatus) (c : Char) (h : s.letter = c.toString) :
    ofLetter? c = some s := by
  unfold ofLetter?
  rw [← h]
  cases s <;> decide

end CallStatus

/-- Counters of a module over a run. -/
structure Stats where
  calls : Nat := 0
  successes : Nat := 0
  probes : Nat := 0
  accepted : Nat := 0
  /-- Elements changed in accepted batches. -/
  changes : Nat := 0
  /-- Microseconds spent. -/
  time : Nat := 0
deriving DecidableEq, Repr, Inhabited

/-- What a module remembers from call to call. -/
structure ModuleState where
  stats : Stats
  /-- The effort of its last accepted probe, or `-1` if there was none. -/
  effort : Int
deriving DecidableEq, Repr, Inhabited

namespace ModuleState

/-- Before the first call. -/
def start : ModuleState := { stats := {}, effort := -1 }

end ModuleState

/-- The number of elements in a batch when `k` elements are cut in `n` batches. -/
def batchSize (k n : Nat) : Nat :=
  if n = 0 then max k 1 else max ((k + n - 1) / n) 1

/-- A batch has room for one element at least. -/
theorem batchSize_pos (k n : Nat) : 0 < batchSize k n := by
  unfold batchSize
  split <;> omega

/-- Where a call stands. -/
structure Pass (α ω : Type) where
  draft : Draft α
  /-- The draft as it was last accepted. -/
  base : Draft α
  /-- The number of elements changed since the last probe. -/
  batch : Nat
  success : Bool
  memory : ModuleState
  session : Session α ω

namespace Pass

variable {α ω υ : Type} [Scalar α]

/-- What does not change during a call. -/
structure Setup (α ω : Type) where
  oracle : Oracle α ω
  params : Parameters
  solution : Solution α
  /-- The program when the call began. -/
  start : Problem α

/-- Ask the oracle about the draft, and accept the batch or go back. -/
def probe (c : Setup α ω) (p : Pass α ω) : Pass α ω :=
  let d := p.draft.flush
  let r := p.session.ask c.oracle c.params (d.toInstance c.solution)
  let stats := { p.memory.stats with probes := p.memory.stats.probes + 1 }
  if r.1 = .okay then
    { p with draft := p.base, batch := 0, memory := { p.memory with stats := stats }
             session := r.2 }
  else
    { draft := d
      base := d
      batch := 0
      success := true
      memory :=
        { stats :=
            { stats with accepted := stats.accepted + 1, changes := stats.changes + p.batch }
          effort := r.2.lastEffort }
      session := r.2 }

/-- Apply the reduction to one element, and probe if the batch is full. -/
def step (r : Reduction α υ) (c : Setup α ω) (size : Nat) (p : Pass α ω) (u : υ) : Pass α ω :=
  if r.admissible c.start p.draft u then
    let p := { p with draft := r.apply u p.draft, batch := p.batch + 1 }
    if size ≤ p.batch then p.probe c else p
  else p

/-- Probe a batch that has been begun. -/
def finish (c : Setup α ω) (p : Pass α ω) : Pass α ω :=
  if 0 < p.batch then p.probe c else p

end Pass

/-- What a call leaves behind. -/
structure CallResult (α ω : Type) where
  status : CallStatus
  inst : Instance α
  memory : ModuleState
  session : Session α ω

namespace Reduction

variable {α ω υ : Type} [Scalar α]

/-- The passage over all eligible elements. -/
def pass (r : Reduction α υ) (o : Oracle α ω) (params : Parameters) (batches : Nat)
    (i : Instance α) (memory : ModuleState) (session : Session α ω) : Pass α ω :=
  let d := Draft.ofInstance i
  let units := r.eligible d
  let c : Pass.Setup α ω :=
    { oracle := o, params := params, solution := i.solution, start := i.problem }
  let p : Pass α ω :=
    { draft := d, base := d, batch := 0, success := false, memory := memory, session := session }
  (units.foldl (Pass.step r c (batchSize units.length batches)) p).finish c

/-- A call of a reduction on an instance. -/
def execute (r : Reduction α υ) (o : Oracle α ω) (params : Parameters) (batches : Nat)
    (i : Instance α) (memory : ModuleState) (session : Session α ω) : CallResult α ω :=
  if (r.eligible (Draft.ofInstance i)).isEmpty then
    { status := .notAdmissible, inst := i, memory := memory, session := session }
  else
    let p := r.pass o params batches i memory session
    if p.success then
      { status := .successful, inst := p.base.toInstance i.solution, memory := p.memory
        session := p.session }
    else { status := .unsuccessful, inst := i, memory := p.memory, session := p.session }

/-- A call of a reduction as a module of the given name: nothing happens when it is switched off,
and otherwise the call is counted and timed. -/
def call (r : Reduction α υ) (name : String) (o : Oracle α ω) (params : Parameters)
    (batches : Nat) (i : Instance α) (memory : ModuleState) (session : Session α ω) :
    CallResult α ω :=
  if params.isEnabled name then
    let began := o.clock session.state
    let counted := { memory.stats with calls := memory.stats.calls + 1 }
    let res := r.execute o params batches i { memory with stats := counted } session
    let stats := res.memory.stats
    let stats :=
      { stats with
        successes := if res.status = .successful then stats.successes + 1 else stats.successes
        time := stats.time + (o.clock res.session.state - began) }
    { res with memory := { res.memory with stats := stats } }
  else { status := .didNotRun, inst := i, memory := memory, session := session }

end Reduction

namespace Pass

/-- Finishing a pass keeps that it was successful. -/
theorem success_finish {α ω : Type} [Scalar α] (c : Setup α ω) (p : Pass α ω)
    (h : p.success = true) : (p.finish c).success = true := by
  unfold finish probe
  split
  · dsimp only
    split <;> simp [h]
  · exact h

end Pass
end MipShrink
