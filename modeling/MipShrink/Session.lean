/-
# Probing

A session is the part of a run that deals with the oracle.  It counts the probes, keeps the effort
of the last one, writes the files of each probe if it is told to, and records every probe with its
answer, the latest first.
-/

import MipShrink.Files.Instance
import MipShrink.Oracle.Basic

namespace MipShrink

/-- A question to the oracle with its answer. -/
structure Probe (α : Type) where
  asked : Instance α
  answer : Answer

namespace Probe

variable {α : Type}

/-- The verdict on a probe. -/
def verdict (passCodes : List Int) (p : Probe α) : Verdict :=
  Verdict.classify passCodes p.answer.retcode

end Probe

/-- The dealings of a run with its oracle. -/
structure Session (α ω : Type) where
  state : ω
  files : FileStore α
  /-- The number of probes. -/
  probes : Nat
  /-- The effort of the last probe. -/
  lastEffort : Int
  /-- All probes, the latest first. -/
  history : List (Probe α)

namespace Session

variable {α ω : Type}

/-- Before the first probe. -/
def start (state : ω) (files : FileStore α) : Session α ω :=
  { state := state, files := files, probes := 0, lastEffort := -1, history := [] }

/-- The stem of the files of a probe. -/
def probeStem (stem : String) (number : Nat) : String :=
  stem ++ "_" ++ toString number

/-- The probes after the first `n` ones, the earliest first. -/
def since (n : Nat) (s : Session α ω) : List (Probe α) :=
  (s.history.take (s.history.length - n)).reverse

variable [Scalar α]

/-- The files after a probe. -/
def record (debugFile : Option String) (i : Instance α) (number : Nat) (files : FileStore α) :
    FileStore α :=
  match debugFile with
  | none => files
  | some stem => (files.writeInstance (probeStem stem number) i true true).1

/-- Ask the oracle about an instance. -/
def ask (o : Oracle α ω) (p : Parameters) (i : Instance α) (s : Session α ω) :
    Verdict × Session α ω :=
  let a := o.ask i s.state
  let probe : Probe α := { asked := i, answer := a.1 }
  (probe.verdict p.passCodes,
    { state := a.2
      files := record p.debugFile i (s.probes + 1) s.files
      probes := s.probes + 1
      lastEffort := a.1.effort
      history := probe :: s.history })

/-- Every question counts as a probe. -/
theorem probes_ask (o : Oracle α ω) (p : Parameters) (i : Instance α) (s : Session α ω) :
    (s.ask o p i).2.probes = s.probes + 1 := rfl

/-- The latest probe stands first in the history. -/
theorem history_ask (o : Oracle α ω) (p : Parameters) (i : Instance α) (s : Session α ω) :
    (s.ask o p i).2.history = ⟨i, (o.ask i s.state).1⟩ :: s.history := rfl

end Session
end MipShrink
