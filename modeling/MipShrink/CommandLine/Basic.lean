/-
# The command line

The whole command as a function: from the arguments, the files of the current folder and a host
that runs the solver, to the exit status, the two outputs and the files.  The files of the probes
are kept in a folder of their own, which is gone at the end.

Exact numbers are rationals.  A saved run that is resumed may hold them in other than lowest terms;
they stay as they are until something is computed from them.
-/

import MipShrink.CommandLine.Arguments
import MipShrink.Files.Snapshot
import MipShrink.Oracle.Command
import MipShrink.Report.Page
import MipShrink.Run.Basic
import MipShrink.Text.Controls

namespace MipShrink
namespace CommandLine

/-- The help text. -/
def help : String :=
  Text.unlines [
    "Shrink a mixed-integer program while a solver keeps failing on it.",
    "",
    "USAGE:",
    "  mip-bugger -f PROBLEM.mps -c COMMAND [OPTIONS] [--key=value ...]",
    "",
    "OPTIONS:",
    "  -f, --problem FILE     problem in (free) MPS format, possibly gzipped",
    "  -s, --settings FILE    solver settings, lines `name = value`",
    "  -o, --solution FILE    reference solution",
    "  -t, --target FILE      settings the setting module moves towards",
    "  -p, --parameters FILE  parameters of the reduction, lines `key = value`",
    "  -c, --command CMD      solver command, with \x7bproblem\x7d \x7bsettings\x7d \x7bsolution\x7d",
    "  -d, --output STEM      where the reduced instance is written [default: bugged]",
    "      --report NAME      write statistics in NAME.html",
    "      --resume FILE      continue from a checkpoint",
    "      --exact            use exact rational arithmetic",
    "      --list-params      print every parameter and exit",
    "  -v, --verbose          debug output",
    "  -h, --help             print this help",
    "",
    "Parameters can be given on the command line as --key=value."]

/-- What a command leaves behind. -/
structure Outcome (η : Type) where
  exit : Nat
  output : String
  errors : String
  /-- The files of the folder; a saved run is listed without bytes. -/
  files : List (String × Option ByteArray)
  host : η

/-- The folder of the files of the probes. -/
def workFolder : String := "mip-shrink-work"

variable {α η : Type} [Scalar α]

/-- An empty folder for the files of the probes. -/
def emptyWork : FileStore α := { FileStore.empty with folders := [workFolder] }

/-- What has happened so far, and what went wrong if something did. -/
structure Progress (α η : Type) where
  output : String
  files : FileStore α
  host : η
  fault : Option Error

namespace Progress

/-- What is logged of an error: further lines of its text are indented, and what would steer a
terminal is left out. -/
def logged (e : Error) : String :=
  let indented := e.message.toList.flatMap fun c => if c = '\n' then "\n    ".toList else [c]
  String.ofList (Text.withoutControls ("[ERROR] ".toList ++ indented ++ ['\n']))

/-- The outcome of a command. -/
def outcome (p : Progress α η) : Outcome η :=
  { exit := if p.fault.isSome then 1 else 0
    output := p.output
    errors := (p.fault.map logged).getD ""
    files := p.files.toFiles
    host := p.host }

end Progress

/-- The parameters: from the file first and then from the arguments. -/
def parameterSet (args : Args) (files : FileStore α) : Except Error ParameterSet := do
  let s ←
    match args.parameters with
    | none => pure Parameters.registry
    | some path => (files.getText path).map fun t => Parameters.registry.useText t
  match s.useOverrides args.overrides with
  | (s, none) => return s
  | (_, some e) => throw e

/-- The instance to start with, and the state if a saved run is resumed. -/
def loadInstance [Stored α] (args : Args) (files : FileStore α) :
    Except Error (Instance α × Option RunState) :=
  match args.resume, args.problem with
  | some path, _ => (files.getSnapshot path).map fun s => (s.2, some s.1)
  | none, some path =>
    (files.readInstance args.settings path args.solution).map fun i => (i, none)
  | none, none => .error .missingProblem

/-- The settings that the setting module moves towards. -/
def loadTarget (args : Args) (files : FileStore α) : Except Error (Option Settings) :=
  match args.target with
  | none => .ok none
  | some path => (files.readSettings path).map some

/-- Everything a run needs. -/
structure Job (α : Type) where
  command : SolverCommand
  inst : Instance α
  state : RunState
  target : Option Settings

/-- Gather what the run needs, in the order in which faults are reported. -/
def prepare [Stored α] (args : Args) (params : Parameters) (files : FileStore α) :
    Except Error (Job α) := do
  let line ←
    match args.command with
    | some line => pure line
    | none => throw .missingCommand
  let command ← SolverCommand.ofLine line
  let loaded ← loadInstance args files
  let target ← loadTarget args files
  return {
    command := command
    inst := loaded.1
    state := loaded.2.getD (RunState.start params)
    target := target }

/-- Write the reduced instance. -/
def writeResult (args : Args) (params : Parameters) (i : Instance α) (p : Progress α η) :
    Progress α η :=
  let i := if params.compress then i.compress.1 else i
  let w := p.files.writeInstance args.output i true true
  { p with
    files := w.1
    fault := if w.2.problem then none else some (.unwritten args.output) }

/-- Write the report, if one is wanted. -/
def writeReport (args : Args) (s : Summary) (p : Progress α η) : Progress α η :=
  match args.report with
  | none => p
  | some name =>
    match Report.writePage name s p.files with
    | .ok files => { p with files := files }
    | .error fault => { p with fault := some (.report fault) }

/-- Carry out a job, print its report and write its result. -/
def carryOut (args : Args) (params : Parameters) (h : Host α η) (job : Job α)
    (files : FileStore α) (host : η) : Progress α η :=
  let bench : SolverCommand.Bench α η := { folder := emptyWork, effort := -1, host := host }
  let r := Run.reduce (job.command.oracle workFolder h) params job.target job.state job.inst
    (Session.start bench files)
  let p : Progress α η :=
    { output := Report.text r.1 ++ "\n"
      files := r.2.session.files
      host := r.2.session.state.host
      fault := none }
  let p := writeReport args r.1 p
  if p.fault.isNone && r.1.reduced then writeResult args params r.2.inst p else p

/-- The command with the given arguments. -/
def perform [Stored α] (args : Args) (h : Host α η) (files : FileStore α) (host : η) :
    Progress α η :=
  let failed := fun output e =>
    { output := output, files := files, host := host, fault := some e : Progress α η }
  match parameterSet args files with
  | .error e => failed "" e
  | .ok s =>
    let listing := if args.listParams then s.describe else ""
    match Parameters.ofSet s with
    | .error e => failed listing e
    | .ok params =>
      if args.listParams then { output := listing, files := files, host := host, fault := none }
      else
        match prepare args params files with
        | .error e => failed "" e
        | .ok job => carryOut args params h job files host

/-- The command over the numbers `α`, once its arguments have been read. -/
def runIn (α : Type) [Scalar α] [Stored α] (args : Args) (h : Host α η)
    (folders : List String) (files : List (String × ByteArray)) (host : η) : Outcome η :=
  (perform args h (FileStore.ofFiles folders files) host).outcome

/-- The whole command, with the files that it may read and the folders that it may write to. -/
def run (args : List String) (h : (α : Type) → [Scalar α] → Host α η) (folders : List String)
    (files : List (String × ByteArray)) (host : η) : Outcome η :=
  let left := files.map fun f => (f.1, some f.2)
  if wantsHelp args then { exit := 0, output := help, errors := "", files := left, host := host }
  else
    match readArgs args with
    | .error m =>
      { exit := 1, output := "", errors := m.message ++ "\n\n" ++ help ++ "\n", files := left
        host := host }
    | .ok a =>
      if a.exact then
        if a.resume.isSome then runIn Fraction a (h Fraction) folders files host
        else runIn Rat a (h Rat) folders files host
      else runIn Real64 a (h Real64) folders files host

end CommandLine
end MipShrink
