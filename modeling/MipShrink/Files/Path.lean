/-
# Paths

A path is a sequence of steps, which slashes separate.  It leads from the current folder, or from
the root when it begins with a slash, to a place:

| step | leads |
| --- | --- |
| `.` | nowhere else |
| `..` | to the folder around, which at the root is the root |
| another one | to what has that name in the folder |

Places are compared by their shortest paths, `Place.path`.
-/

import MipShrink.Error
import MipShrink.Text.Lines

namespace MipShrink

/-- Where a path leads: up so many folders, and then down by names. -/
structure Place where
  rooted : Bool
  ups : Nat
  /-- The innermost name first. -/
  names : List String
deriving DecidableEq, Repr

namespace Path

/-- The steps of a path. -/
def steps (path : String) : List String :=
  ((Text.pieces (· == '/') path.toList).map String.ofList).filter fun step => step != ""

/-- A path with a slash at its end leads to a folder, or nowhere. -/
def endsOpen (path : String) : Bool :=
  path.toList.getLast? = some '/'

/-- What follows the last dot of the last step of a path, unless that dot begins the step. -/
def extension? (path : String) : Option String :=
  ((steps path).filter fun step => step != ".").getLast?.bind fun step =>
    let after := step.toList.reverse.takeWhile (· != '.')
    if after.length + 1 < step.length then some (String.ofList after.reverse) else none

/-- The bytes that a path may have at most. -/
def maxBytes : Nat := 4095

/-- The bytes that a step may have at most. -/
def maxStepBytes : Nat := 255

/-- Why a path leads nowhere, whatever files there are. -/
def fault? (path : String) : Option AccessFault :=
  if path.toList.contains '\x00' then some .zeroInPath
  else if path = "" then some .notFound
  else if maxBytes < path.utf8ByteSize then some .longName
  else none

end Path

namespace Place

/-- Where a path begins. -/
def start (path : String) : Place :=
  { rooted := path.toList.head? = some '/', ups := 0, names := [] }

/-- The place after a step. -/
def after (p : Place) (step : String) : Place :=
  if step = "." then p
  else if step = ".." then
    match p.names with
    | _ :: names => { p with names := names }
    | [] => if p.rooted then p else { p with ups := p.ups + 1 }
  else { p with names := step :: p.names }

/-- Where a path leads. -/
def ofPath (path : String) : Place :=
  (Path.steps path).foldl after (start path)

/-- The shortest path to a place; none is needed to the current folder. -/
def path (p : Place) : String :=
  (if p.rooted then "/" else "") ++
    String.intercalate "/" (List.replicate p.ups ".." ++ p.names.reverse)

/-- The shortest paths to the places that a path passes, the first one first. -/
def passed (path : String) : List String :=
  let steps := Path.steps path
  (List.range steps.length).map fun n => ((steps.take n).foldl after (start path)).path

/-- A step up undoes a step down. -/
theorem after_up {p : Place} {step : String} (h₁ : step ≠ ".") (h₂ : step ≠ "..") :
    (p.after step).after ".." = p := by
  simp [after, h₁, h₂]

end Place
end MipShrink
