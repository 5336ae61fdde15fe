/-
# Solutions as a text

A solution file has a line `status <word>`, a line `name value` for each value and a line
`ray name value` for each entry of an unbounded ray; columns that are not listed are zero.  Lines
`=obj= value` and `objective value` are passed over, and so are columns that the program does not
have.  What follows a `#` outside of double quotes is a comment.
-/

import MipShrink.Error
import MipShrink.Solution.Basic

namespace MipShrink
namespace Solution

variable {α : Type} [Scalar α]

/-- What has been read of a solution. -/
structure Partial (α : Type) where
  status : SolutionStatus
  primal : List α
  ray : Option (List α)

/-- The place of the last column with the given name. -/
def lastIndex? (names : List String) (name : String) : Option Nat :=
  (names.reverse.findIdx? (· == name)).map fun k => names.length - 1 - k

/-- Give the named column its value in a vector. -/
def place (names : List String) (name value : String) (v : List α) :
    Except ParseFault (List α) :=
  match lastIndex? names name with
  | none => .ok v
  | some j =>
    match (Scalar.read value.toList : Option α) with
    | some x => .ok (v.set j x)
    | none => .error (.invalidNumber value)

/-- Take in the words of a line. -/
def readWords (names : List String) (s : Partial α) :
    List String → Except ParseFault (Partial α)
  | [] => .ok s
  | [a, b] =>
    if a = "status" then
      match SolutionStatus.ofWord? b with
      | some status => .ok { s with status := status }
      | none => .error (.unknownStatus b)
    else if a = "=obj=" ∨ a = "objective" then .ok s
    else (place names a b s.primal).map fun v => { s with primal := v }
  | [a, b, c] =>
    if a = "ray" then
      let ray := s.ray.getD (names.map fun _ => 0)
      (place names b c ray).map fun v => { s with ray := some v }
    else .error .solutionShape
  | _ => .error .solutionShape

/-- Read lines, the first one having the given number. -/
def readLines (path : String) (names : List String) :
    Nat → List (List Char) → Partial α → Except Error (Partial α)
  | _, [], s => .ok s
  | number, line :: rest, s =>
    match readWords names s (Text.wordsOf (Text.stripComment false line)) with
    | .error fault => .error (.parse path number fault)
    | .ok s => readLines path names (number + 1) rest s

/-- The solution that was read: only feasible and unbounded ones keep vectors. -/
def ofPartial (s : Partial α) : Solution α :=
  match s.status with
  | .feasible => { status := .feasible, primal := s.primal, ray := [] }
  | .unbounded => { status := .unbounded, primal := s.primal, ray := s.ray.getD [] }
  | other => ofStatus other

/-- The solution of the program that a text describes. -/
def ofText (path : String) (p : Problem α) (text : String) : Except Error (Solution α) :=
  let names := p.columns.map Column.name
  let start : Partial α := { status := .feasible, primal := names.map fun _ => 0, ray := none }
  (readLines path names 1 (Text.linesOf text) start).map ofPartial

/-- The lines of the entries of a vector that are not zero. -/
def linesOf (start : String) (names : List String) (v : List α) : List String :=
  ((names.zip v).filter fun e => !Scalar.isZero e.2).map fun e =>
    start ++ e.1 ++ " " ++ Scalar.text e.2

/-- The solution of the program as a text. -/
def toText (p : Problem α) (s : Solution α) : String :=
  let names := p.columns.map Column.name ++ p.surplus.names
  Text.unlines
    (("status " ++ s.status.text) :: (linesOf "" names s.primal ++ linesOf "ray " names s.ray))

end Solution
end MipShrink
