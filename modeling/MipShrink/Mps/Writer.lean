/-
# Writing programs in free MPS format

The objective is the free row `obj`.  Redundant rows and rows without finite side are left out, and
so are their coefficients.  A row with two finite sides is written as an equation if its attributes
say so and otherwise as a row with a range.  A column of which nothing else is left to write gets a
zero objective coefficient, so that it keeps its place.
-/

import MipShrink.Problem.Basic
import MipShrink.Text.Lines

namespace MipShrink
namespace Mps

variable {α : Type} [Scalar α]

/-- The name of the objective in written files. -/
def objectiveName : String := "obj"

/-- Is the row written at all? -/
def isWritten (r : Row α) : Bool :=
  !r.isRedundant && !(r.flags.lhsInf && r.flags.rhsInf)

/-- The rows that are written. -/
def writtenRows (p : Problem α) : List (Row α) :=
  p.allRows.filter isWritten

/-- The letter of a row. -/
def rowLetter (r : Row α) : String :=
  if r.flags.lhsInf then "L"
  else if r.flags.rhsInf || !r.flags.equation then "G"
  else "E"

/-- A line that switches between continuous and integral columns. -/
def markerLine (count : Nat) (word : String) : String :=
  "    MARKER" ++ toString count ++ " 'MARKER' '" ++ word ++ "'"

/-- The lines of one column. -/
def columnLines (p : Problem α) (j : Nat) (c : Column α) : List String :=
  let cost :=
    if Scalar.isZero c.cost then []
    else ["    " ++ c.name ++ " " ++ objectiveName ++ " " ++ Scalar.text c.cost]
  let entries := ((p.columnRows j).filter fun e => isWritten e.1).map fun e =>
    "    " ++ c.name ++ " " ++ e.1.name ++ " " ++ Scalar.text e.2
  let found := cost ++ entries
  if found.isEmpty then ["    " ++ c.name ++ " " ++ objectiveName ++ " 0"] else found

/-- The lines of columns from place `j` on, inside or outside of a marked part, after so many such
parts. -/
def columnsFrom (p : Problem α) :
    Nat → Bool → Nat → List (Column α) → List String
  | _, inMarker, count, [] => if inMarker then [markerLine count "INTEND"] else []
  | j, inMarker, count, c :: rest =>
    let switch :=
      if c.isIntegral == inMarker then []
      else [markerLine count (if c.isIntegral then "INTORG" else "INTEND")]
    let count := if inMarker && !c.isIntegral then count + 1 else count
    switch ++ columnLines p j c ++ columnsFrom p (j + 1) c.isIntegral count rest

/-- The lines of the right-hand sides. -/
def rhsLines (p : Problem α) : List String :=
  let offset :=
    if Scalar.isZero p.offset then []
    else ["    RHS " ++ objectiveName ++ " " ++ Scalar.text (-p.offset)]
  let sides := (writtenRows p).filterMap fun r =>
    let side := if r.flags.lhsInf then r.rhs else r.lhs
    if Scalar.isZero side then none
    else some ("    RHS " ++ r.name ++ " " ++ Scalar.text side)
  offset ++ sides

/-- Has the row two finite sides that are not an equation? -/
def isRanged (r : Row α) : Bool :=
  isWritten r && !r.flags.lhsInf && !r.flags.rhsInf && !r.flags.equation

/-- The lines of the ranges, with their header if there are any. -/
def rangeLines (p : Problem α) : List String :=
  let ranged := p.rows.filter isRanged
  if ranged.isEmpty then []
  else "RANGES" :: ranged.map fun r =>
    "    RNG " ++ r.name ++ " " ++ Scalar.text (r.rhs - r.lhs)

/-- The lines of the bounds of one column. -/
def boundLines (c : Column α) : List String :=
  match c.lower?, c.upper? with
  | none, none => [" FR BND " ++ c.name]
  | some l, some u =>
    if l == u then [" FX BND " ++ c.name ++ " " ++ Scalar.text l]
    else lowerLine l ++ upperLine u
  | none, some u => (" MI BND " ++ c.name) :: upperLine u
  | some l, none => lowerLine l
where
  /-- A finite lower bound, which is left out when it is zero. -/
  lowerLine (l : α) : List String :=
    if Scalar.isZero l then [] else [" LO BND " ++ c.name ++ " " ++ Scalar.text l]
  /-- A finite upper bound. -/
  upperLine (u : α) : List String :=
    [" UP BND " ++ c.name ++ " " ++ Scalar.text u]

/-- The lines of a file that holds the program. -/
def linesOf (p : Problem α) : List String :=
  ["NAME " ++ p.name] ++
    (if p.sense = .maximize then ["OBJSENSE", "    MAX"] else []) ++
    ["ROWS", " N  " ++ objectiveName] ++
    ((writtenRows p).map fun r => " " ++ rowLetter r ++ "  " ++ r.name) ++
    ["COLUMNS"] ++ columnsFrom p 0 false 0 p.columns ++
    ["RHS"] ++ rhsLines p ++ rangeLines p ++
    ["BOUNDS"] ++ p.columns.flatMap boundLines ++ ["ENDATA"]

/-- The program as a text. -/
def toText (p : Problem α) : String :=
  Text.unlines (linesOf p)

end Mps
end MipShrink
