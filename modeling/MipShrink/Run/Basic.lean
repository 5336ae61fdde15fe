/-
# A run

A run first asks the oracle about the instance as it is, unless it is told not to, and reduces the
instance only if the defect shows.  Then the loop of rounds and stages calls the nine modules until
nothing shrinks any more.
-/

import MipShrink.Modules
import MipShrink.Run.Loop

namespace MipShrink

/-- A run in progress: the instance, what the modules remember, and the dealings with the oracle. -/
structure World (α ω : Type) where
  inst : Instance α
  memories : List ModuleState
  session : Session α ω

namespace World

variable {α ω : Type} [Scalar α]

/-- Call the module with the given number. -/
def call (o : Oracle α ω) (params : Parameters) (target : Option Settings) (k batches : Nat)
    (w : World α ω) : (CallStatus × Int) × World α ω :=
  match ModuleKind.all[k]?, w.memories[k]? with
  | some kind, some memory =>
    let r := kind.call target o params batches w.inst memory w.session
    ((r.status, r.memory.effort),
      { inst := r.inst, memories := w.memories.set k r.memory, session := r.session })
  | _, _ => ((.didNotRun, -1), w)

/-- Save the run in the checkpoint, if there is one and it can be written. -/
def save (params : Parameters) (s : RunState) (w : World α ω) : World α ω :=
  match params.checkpoint with
  | none => w
  | some path =>
    match w.session.files.writeSnapshot path s w.inst with
    | .ok files => { w with session := { w.session with files := files } }
    | .error _ => w

/-- Ask the oracle about the instance. -/
def check (o : Oracle α ω) (params : Parameters) (w : World α ω) : Verdict × World α ω :=
  let r := w.session.ask o params w.inst
  (r.1, { w with session := r.2 })

/-- The statistics of the modules. -/
def stats (w : World α ω) : List (String × Stats) :=
  (ModuleKind.all.zip w.memories).map fun e => (e.1.name, e.2.stats)

/-- The nine modules, the clock having begun at the given reading. -/
def machine (o : Oracle α ω) (params : Parameters) (target : Option Settings) (began : Nat) :
    Machine (World α ω) :=
  { count := ModuleKind.all.length
    check := check o params
    call := call o params target
    size := fun w => w.inst.problem.size params.tolerance
    save := save params
    stats := stats
    probes := fun w => w.session.probes
    elapsed := fun w => o.clock w.session.state - began }

/-- Before the first probe. -/
def start (i : Instance α) (session : Session α ω) : World α ω :=
  { inst := i, memories := ModuleKind.all.map fun _ => ModuleState.start, session := session }

end World

namespace Run

variable {α ω : Type} [Scalar α]

/-- Run the nine modules on an instance from a state. -/
def reduce (o : Oracle α ω) (params : Parameters) (target : Option Settings) (s : RunState)
    (i : Instance α) (session : Session α ω) : Summary × World α ω :=
  (World.machine o params target (o.clock session.state)).run params s (World.start i session)

end Run
end MipShrink
