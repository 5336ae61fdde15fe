/-
# Arguments

An option is looked for by its short name among all arguments, then by its long name; the argument
after it is its value, whatever it looks like, and both are taken away.  What is left in the end
are assignments of parameters.  Asking for help wins over everything else.

A switch has no value, so its letter may also stand among other letters: `-vc` is `-v` and `-c`.
Such a letter is taken out of the first argument that has it, and the rest of that argument stays.
-/

namespace MipShrink
namespace CommandLine

/-- What the arguments ask for. -/
structure Args where
  problem : Option String
  settings : Option String
  solution : Option String
  target : Option String
  parameters : Option String
  command : Option String
  output : String
  report : Option String
  resume : Option String
  exact : Bool
  listParams : Bool
  overrides : List String
deriving DecidableEq, Repr

/-- An option at the end of the arguments, where a value is missing. -/
structure MissingValue where
  option : String
deriving DecidableEq, Repr

namespace MissingValue

/-- What is told about an option without its value. -/
def message (m : MissingValue) : String :=
  "the '" ++ m.option ++ "' option doesn't have an associated value"

end MissingValue

/-- Where the first of the names that occurs stands, and which one it is. -/
def indexOf : List String → List String → Option (Nat × String)
  | [], _ => none
  | name :: names, args =>
    match args.findIdx? (· == name) with
    | some i => some (i, name)
    | none => indexOf names args

/-- The letter of a short name. -/
def letterOf? (name : String) : Option Char :=
  match name.toList with
  | ['-', c] => some c
  | _ => none

/-- Is the letter one of those that stand after a single dash? -/
def standsIn (letter : Char) (arg : String) : Bool :=
  match arg.toList with
  | '-' :: '-' :: _ => false
  | '-' :: letters => letters.contains letter
  | _ => false

/-- Take the letter out of the first argument in which it stands, if there is one. -/
def takeLetter (letter : Char) : List String → Option (List String)
  | [] => none
  | arg :: args =>
    if standsIn letter arg then some (String.ofList (arg.toList.erase letter) :: args)
    else (takeLetter letter args).map (arg :: ·)

/-- Take a switch away, and tell whether it was there. -/
def takeSwitch (names args : List String) : Bool × List String :=
  match indexOf names args with
  | some (i, _) => (true, args.eraseIdx i)
  | none =>
    match (names.head?.bind letterOf?).bind fun letter => takeLetter letter args with
    | some args => (true, args)
    | none => (false, args)

/-- Take an option with its value away, if it is there. -/
def takeOption (names args : List String) :
    Except MissingValue (Option String × List String) :=
  match indexOf names args with
  | none => .ok (none, args)
  | some (i, name) =>
    match args[i + 1]? with
    | some value => .ok (some value, (args.eraseIdx i).eraseIdx i)
    | none => .error ⟨name⟩

/-- Help was asked for. -/
def wantsHelp (args : List String) : Bool :=
  (takeSwitch ["-h", "--help"] args).1

/-- The arguments of a command that does not ask for help. -/
def readArgs (args : List String) : Except MissingValue Args := do
  let (_, args) := takeSwitch ["-v", "--verbose"] args
  let (problem, args) ← takeOption ["-f", "--problem"] args
  let (settings, args) ← takeOption ["-s", "--settings"] args
  let (solution, args) ← takeOption ["-o", "--solution"] args
  let (target, args) ← takeOption ["-t", "--target"] args
  let (parameters, args) ← takeOption ["-p", "--parameters"] args
  let (command, args) ← takeOption ["-c", "--command"] args
  let (output, args) ← takeOption ["-d", "--output"] args
  let (report, args) ← takeOption ["--report"] args
  let (resume, args) ← takeOption ["--resume"] args
  let (exact, args) := takeSwitch ["--exact"] args
  let (listParams, args) := takeSwitch ["--list-params"] args
  return {
    problem := problem, settings := settings, solution := solution, target := target
    parameters := parameters, command := command, output := output.getD "bugged"
    report := report, resume := resume, exact := exact, listParams := listParams
    overrides := args }

end CommandLine
end MipShrink
