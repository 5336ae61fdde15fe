/-
# Solvers that are run as commands

A solver command is a list of words; in all of them but the first, the program, the paths of the
files of the probe stand for three placeholders in braces: `problem`, `settings` and `solution`.
The exit status of the command is the return code: from 0 to 3 as it stands, anything else as a
failure inside the solver, as is a death by signal.  The command may print lines `effort <n>` and
`status <word>`, of which the last ones count.

How a command is carried out is up to a `Host`.
-/

import MipShrink.Files.Instance
import MipShrink.Oracle.Basic
import MipShrink.Text.Utf8

namespace MipShrink

/-- What became of a command. -/
inductive HostReply where
  | exited (code : Int) (output : ByteArray)
  | killed (output : ByteArray)
  /-- There is no such program. -/
  | missing

/-- Something that carries out commands, given by their words, in a folder, with own states `η`. -/
structure Host (α η : Type) where
  perform : List String → FileStore α → η → HostReply × η
  /-- Microseconds on the clock. -/
  clock : η → Nat

/-- A solver command. -/
structure SolverCommand where
  program : String
  arguments : List String
deriving DecidableEq, Repr

/-- What a solver says about its run. -/
structure SolverTalk where
  effort : Int
  status : SolverStatus
deriving DecidableEq, Repr

namespace SolverTalk

/-- Nothing has been said. -/
def silent : SolverTalk := { effort := -1, status := .unknown }

/-- Take in a line; an effort or a status that cannot be read counts as unknown. -/
def hear (t : SolverTalk) (line : List Char) : SolverTalk :=
  match Text.wordsOf line with
  | a :: b :: _ =>
    if a = "effort" then { t with effort := (Grammar.word? 64 b.toList).getD (-1) }
    else if a = "status" then { t with status := (SolverStatus.ofWord? b).getD .unknown }
    else t
  | _ => t

/-- What the output of a solver says. -/
def ofOutput (output : ByteArray) : SolverTalk :=
  (Text.linesOf (String.ofList (Text.Utf8.decode output.toList))).foldl hear silent

end SolverTalk

namespace SolverCommand

/-- The command on a line. -/
def ofLine (line : String) : Except Error SolverCommand :=
  match Text.wordsOf line.toList with
  | [] => .error (.parameter "command" .emptyCommand)
  | program :: arguments => .ok { program := program, arguments := arguments }

/-- A placeholder. -/
def placeholder (name : String) : String := "\x7b" ++ name ++ "\x7d"

/-- An argument with the paths of the files with the given stem put in for the placeholders. -/
def fill (stem arg : String) : String :=
  let file := FileStore.withExtension stem
  ((arg.replace (placeholder "problem") (file "mps")).replace
    (placeholder "settings") (file "set")).replace (placeholder "solution") (file "sol")

/-- The words of the command for the files with the given stem. -/
def words (stem : String) (c : SolverCommand) : List String :=
  c.program :: c.arguments.map (fill stem)

/-- The return code for an exit status. -/
def retcodeOf (code : Int) : Retcode :=
  if 0 ≤ code ∧ code ≤ 3 then ⟨code⟩ else Retcode.internal code

/-- The answer when the command could not be carried out; the effort is that of the last time. -/
def failure (effort : Int) : Answer :=
  { retcode := Retcode.internal 0, status := .undefinedError, effort := effort }

/-- The answer that a reply of the host stands for. -/
def answerOf (effort : Int) : HostReply → Answer
  | .exited code output =>
    let t := SolverTalk.ofOutput output
    { retcode := retcodeOf code, status := t.status, effort := t.effort }
  | .killed output =>
    { failure effort with effort := (SolverTalk.ofOutput output).effort }
  | .missing => failure effort

/-- The state of a solver command: the folder it works in, and the effort of the last time. -/
structure Bench (α η : Type) where
  folder : FileStore α
  effort : Int
  host : η

variable {α η : Type} [Scalar α]

/-- The stem of the files of a probe in a folder. -/
def stemIn (folder : String) : String := folder ++ "/probe"

/-- Words can be handed over unless a zero character stands in them. -/
def canStart (words : List String) : Bool :=
  words.all fun word => !word.toList.contains '\x00'

/-- Write the files of a probe and carry out the command. -/
def probe (c : SolverCommand) (folder : String) (h : Host α η) (i : Instance α)
    (b : Bench α η) : Answer × Bench α η :=
  let stem := stemIn folder
  let w := b.folder.writeInstance stem i true true
  if w.2.settings && w.2.problem && w.2.solution && canStart (c.words stem) then
    let r := h.perform (c.words stem) w.1 b.host
    let a := answerOf b.effort r.1
    (a, { folder := w.1, effort := a.effort, host := r.2 })
  else (failure b.effort, { b with folder := w.1 })

/-- The oracle that carries out the command. -/
def oracle (c : SolverCommand) (folder : String) (h : Host α η) : Oracle α (Bench α η) :=
  { ask := probe c folder h, clock := fun b => h.clock b.host }

end SolverCommand
end MipShrink
