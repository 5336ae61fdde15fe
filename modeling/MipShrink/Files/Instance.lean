/-
# The files of an instance

An instance is kept in up to three files with a common stem: `stem.set` with the settings,
`stem.mps` with the program and `stem.sol` with the reference solution.
-/

import MipShrink.Files.Store
import MipShrink.Mps.Reader
import MipShrink.Mps.Writer
import MipShrink.Settings.File
import MipShrink.Solution.File

namespace MipShrink

/-- Which files of an instance were written. -/
structure Written where
  settings : Bool
  problem : Bool
  solution : Bool
deriving DecidableEq, Repr

namespace FileStore

variable {α : Type} [Scalar α]

/-- A stem with an extension. -/
def withExtension (stem ext : String) : String := stem ++ "." ++ ext

/-- The program in a file. -/
def readProblem (path : String) (s : FileStore α) : Except Error (Problem α) :=
  match s.getLines path with
  | .error e => .error e
  | .ok lines => Mps.ofLines path lines

/-- The settings in a file. -/
def readSettings (path : String) (s : FileStore α) : Except Error Settings :=
  match s.getText path with
  | .error e => .error e
  | .ok t => Settings.ofText path t

/-- The solution of a program in a file. -/
def readSolution (path : String) (p : Problem α) (s : FileStore α) :
    Except Error (Solution α) :=
  match s.getText path with
  | .error e => .error e
  | .ok t => Solution.ofText path p t

/-- The instance in up to three files.  Without a file of their own the settings are empty and the
reference is unknown. -/
def readInstance (settings : Option String) (problem : String) (solution : Option String)
    (s : FileStore α) : Except Error (Instance α) := do
  let set ←
    match settings with
    | some path => s.readSettings path
    | none => pure Settings.empty
  let p ← s.readProblem problem
  let sol ←
    match solution with
    | some path => s.readSolution path p
    | none => pure Solution.unknown
  return { settings := set, problem := p, solution := sol }

/-- Write a text if it can be written; the store, and whether it was. -/
def tryText (path text : String) (s : FileStore α) : FileStore α × Bool :=
  match s.writeText path text with
  | .ok s => (s, true)
  | .error _ => (s, false)

/-- Write the program of an instance, and its settings and its reference if asked to. -/
def writeInstance (stem : String) (i : Instance α) (settings solution : Bool)
    (s : FileStore α) : FileStore α × Written :=
  let a := if settings then s.tryText (withExtension stem "set") (Settings.toText i.settings)
    else (s, false)
  let b := a.1.tryText (withExtension stem "mps") (Mps.toText i.problem)
  let c := if solution then
      b.1.tryText (withExtension stem "sol") (Solution.toText i.problem i.solution)
    else (b.1, false)
  (c.1, { settings := a.2, problem := b.2, solution := c.2 })

end FileStore
end MipShrink
