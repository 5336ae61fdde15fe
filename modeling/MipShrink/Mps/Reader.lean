/-
# Reading programs in free MPS format

A file is a sequence of sections `NAME`, `OBJSENSE`, `ROWS`, `COLUMNS`, `RHS`, `RANGES`, `BOUNDS`
and `ENDATA`.  A section starts with a line that is not indented and whose first word is the name
of the section; all other lines are data of the section they stand in, indented or not.  Blank
lines and lines that begin with a star are passed over.

The first free row is the objective, and its right-hand side is the negated constant; further free
rows are accepted and ignored.  A range turns the right-hand side of a row into an interval:

| row | range `r` | sides |
| --- | --- | --- |
| `E` | negative | `rhs + r`, `rhs` |
| `E` | other | `rhs`, `rhs + r` |
| `L` | any | `rhs - |r|`, `rhs` |
| `G` | any | `rhs`, `rhs + |r|` |

Columns start with the domain `[0, ∞)`, and a bound of `10^20` or more in magnitude is infinite.
-/

import MipShrink.Problem.Builder
import MipShrink.Text.Lines

namespace MipShrink
namespace Mps

/-- The sections of a file; before the first one the reader is in `name`. -/
inductive Section where
  | name
  | objSense
  | rows
  | columns
  | rhs
  | ranges
  | bounds
  | ends
deriving DecidableEq, Repr

namespace Section

/-- The section that a word opens. -/
def ofWord? (word : String) : Option Section :=
  if word = "NAME" then some name
  else if word = "OBJSENSE" then some objSense
  else if word = "ROWS" then some rows
  else if word = "COLUMNS" then some columns
  else if word = "RHS" then some rhs
  else if word = "RANGES" then some ranges
  else if word = "BOUNDS" then some bounds
  else if word = "ENDATA" then some ends
  else none

end Section

/-- The kinds of rows with sides. -/
inductive RowKind where
  | equal
  | less
  | greater
deriving DecidableEq, Repr

/-- A row while its file is read. -/
structure RowData (α : Type) where
  name : String
  kind : RowKind
  rhs : α
  range : Option α

/-- What has been read of a file. -/
structure Reader (α : Type) where
  place : Section
  /-- Columns are integral here. -/
  inMarker : Bool
  name : String
  sense : Sense
  offset : α
  objective : Option String
  freeRows : List String
  rows : List (RowData α)
  columns : List (ColumnPlan α)
  /-- Coefficients that are not zero, the latest one first. -/
  entries : List ((Nat × Nat) × α)

variable {α : Type} [Scalar α]

namespace RowData

/-- The sides of the row. -/
def plan (r : RowData α) : RowPlan α :=
  match r.kind, r.range with
  | .equal, none => ⟨r.name, some r.rhs, some r.rhs⟩
  | .equal, some x =>
    if Scalar.isNegative x then ⟨r.name, some (r.rhs + x), some r.rhs⟩
    else ⟨r.name, some r.rhs, some (r.rhs + x)⟩
  | .less, none => ⟨r.name, none, some r.rhs⟩
  | .less, some x => ⟨r.name, some (r.rhs - Scalar.abs x), some r.rhs⟩
  | .greater, none => ⟨r.name, some r.rhs, none⟩
  | .greater, some x => ⟨r.name, some r.rhs, some (r.rhs + Scalar.abs x)⟩

end RowData

/-- The sense that a word names. -/
def senseOf? (word : String) : Option Sense :=
  if word = "MIN" ∨ word = "MINIMIZE" then some .minimize
  else if word = "MAX" ∨ word = "MAXIMIZE" then some .maximize
  else none

/-- A number of a file. -/
def number (word : String) : Except ParseFault α :=
  match Scalar.read word.toList with
  | some x => .ok x
  | none => .error (.invalidNumber word)

/-- A bound of a file, `none` when it is infinite. -/
def boundValue (word : String) : Except ParseFault (Option α) :=
  (number word).map fun x : α => if Scalar.isHuge x then none else some x

/-- The words of a line two by two. -/
def pairs : List String → Option (List (String × String))
  | [] => some []
  | a :: b :: rest => (pairs rest).map fun ps => (a, b) :: ps
  | [_] => none

namespace Reader

/-- Nothing has been read. -/
def start : Reader α :=
  { place := .name, inMarker := false, name := "", sense := .minimize, offset := 0
    objective := none, freeRows := [], rows := [], columns := [], entries := [] }

/-- The place of the row with a name. -/
def rowIndex? (r : Reader α) (name : String) : Option Nat :=
  r.rows.findIdx? fun row => row.name == name

/-- The place of the column with a name. -/
def columnIndex? (r : Reader α) (name : String) : Option Nat :=
  r.columns.findIdx? fun c => c.name == name

/-- Is this the name of the objective? -/
def isObjective (r : Reader α) (name : String) : Bool :=
  r.objective == some name

/-- The reader with one row changed. -/
def mapRow (i : Nat) (f : RowData α → RowData α) (r : Reader α) : Reader α :=
  { r with rows := r.rows.modify i f }

/-- The reader with one column changed. -/
def mapColumn (j : Nat) (f : ColumnPlan α → ColumnPlan α) (r : Reader α) : Reader α :=
  { r with columns := r.columns.modify j f }

/-- The place of the column with the given name, which is added when it is new. -/
def withColumn (name : String) (r : Reader α) : Nat × Reader α :=
  match r.columnIndex? name with
  | some j => (j, r)
  | none =>
    let c : ColumnPlan α := { ColumnPlan.start name with integral := r.inMarker }
    (r.columns.length, { r with columns := r.columns ++ [c] })

/-- A line that opens a section. -/
def openSection (s : Section) (words : List String) (r : Reader α) :
    Except ParseFault (Reader α) :=
  match s, words with
  | .name, _ :: name :: _ => .ok { r with place := .name, name := name }
  | .name, _ => .ok { r with place := .name, name := "" }
  | .objSense, _ :: word :: _ =>
    match senseOf? word with
    | some sense => .ok { r with place := .objSense, sense := sense }
    | none => .error .unknownSense
  | s, _ => .ok { r with place := s }

/-- A line of the section of the rows. -/
def readRow (words : List String) (r : Reader α) : Except ParseFault (Reader α) :=
  match words with
  | [kind, name] =>
    if kind = "N" then
      match r.objective with
      | none => .ok { r with objective := some name }
      | some _ => .ok { r with freeRows := r.freeRows ++ [name] }
    else if kind = "E" then add .equal name
    else if kind = "L" then add .less name
    else if kind = "G" then add .greater name
    else .error (.unknownRowKind kind)
  | _ => .error .rowShape
where
  /-- Add a row with sides. -/
  add (kind : RowKind) (name : String) : Except ParseFault (Reader α) :=
    match r.rowIndex? name with
    | some _ => .error (.duplicateRow name)
    | none => .ok { r with rows := r.rows ++ [⟨name, kind, 0, none⟩] }

/-- An entry of column `j`. -/
def readEntry (j : Nat) (r : Reader α) (pair : String × String) :
    Except ParseFault (Reader α) := do
  let x : α ← number pair.2
  if r.isObjective pair.1 then return r.mapColumn j fun c => { c with cost := x }
  match r.rowIndex? pair.1 with
  | some i =>
    if Scalar.isZero x then return r
    return { r with entries := ((i, j), x) :: r.entries }
  | none => if r.freeRows.contains pair.1 then return r else throw (.unknownRow pair.1)

/-- A line of the section of the columns. -/
def readColumn (words : List String) (r : Reader α) : Except ParseFault (Reader α) :=
  if words[1]? = some "'MARKER'" then
    if words[2]? = some "'INTORG'" then .ok { r with inMarker := true }
    else if words[2]? = some "'INTEND'" then .ok { r with inMarker := false }
    else .error .unknownMarker
  else
    match words with
    | [name, a, x] => entries name [(a, x)]
    | [name, a, x, b, y] => entries name [(a, x), (b, y)]
    | _ => .error .entryShape
where
  /-- The entries of the named column. -/
  entries (name : String) (ps : List (String × String)) : Except ParseFault (Reader α) :=
    let c := r.withColumn name
    ps.foldlM (readEntry c.1) c.2

/-- A right-hand side. -/
def readRhs (r : Reader α) (pair : String × String) : Except ParseFault (Reader α) := do
  let x : α ← number pair.2
  if r.isObjective pair.1 then return { r with offset := -x }
  match r.rowIndex? pair.1 with
  | some i => return r.mapRow i fun row => { row with rhs := x }
  | none => if r.freeRows.contains pair.1 then return r else throw (.unknownRow pair.1)

/-- A range. -/
def readRange (r : Reader α) (pair : String × String) : Except ParseFault (Reader α) := do
  let x : α ← number pair.2
  match r.rowIndex? pair.1 with
  | some i => return r.mapRow i fun row => { row with range := some x }
  | none => if r.freeRows.contains pair.1 then return r else throw (.unknownRow pair.1)

/-- A line of row names and values; the name of the vector in front of them may be missing. -/
def readPairs (f : Reader α → String × String → Except ParseFault (Reader α))
    (words : List String) (r : Reader α) : Except ParseFault (Reader α) :=
  match pairs (if words.length % 2 = 1 then words.drop 1 else words) with
  | some ps => ps.foldlM f r
  | none => .error .pairShape

/-- The column and the value, if there is one, of a bound; the vector name may be missing. -/
def boundTarget (kind : String) (words : List String) :
    Except ParseFault (String × Option String) :=
  let bare := kind = "FR" ∨ kind = "MI" ∨ kind = "PL" ∨ kind = "BV"
  match words with
  | [_, a] => if bare then .ok (a, none) else .error (.malformedBound kind)
  | [_, a, b] => if bare then .ok (b, none) else .ok (a, some b)
  | [_, _, b, x] =>
    if ¬ bare then .ok (b, some x)
    else if kind = "BV" then .ok (b, none)
    else .error (.malformedBound kind)
  | _ => .error (.malformedBound kind)

/-- The effect of a bound with a value on a column.  A negative upper bound on a column whose lower
bound is zero takes that lower bound away. -/
def applyBound (kind : String) (x : Option α) (c : ColumnPlan α) :
    Except ParseFault (ColumnPlan α) :=
  if kind = "UP" then
    let loose := x.any Scalar.isNegative && c.lower.any Scalar.isZero
    .ok { c with lower := if loose then none else c.lower, upper := x }
  else if kind = "LO" then .ok { c with lower := x }
  else if kind = "FX" then .ok { c with lower := x, upper := x }
  else if kind = "LI" then .ok { c with integral := true, lower := x }
  else if kind = "UI" then .ok { c with integral := true, upper := x }
  else .error (.unsupportedBound kind)

/-- The effect of a bound without value on a column, if the kind is one of these. -/
def applyBareBound? (kind : String) (c : ColumnPlan α) : Option (ColumnPlan α) :=
  if kind = "FR" then some { c with lower := none, upper := none }
  else if kind = "MI" then some { c with lower := none }
  else if kind = "PL" then some { c with upper := none }
  else if kind = "BV" then some { c with integral := true, lower := some 0, upper := some 1 }
  else none

/-- Kinds of bounds that take a value. -/
def takesValue (kind : String) : Bool :=
  ["UP", "LO", "FX", "LI", "UI"].contains kind

/-- A line of the section of the bounds. -/
def readBound (words : List String) (r : Reader α) : Except ParseFault (Reader α) := do
  let kind := words.headD ""
  let target ← boundTarget kind words
  match r.columnIndex? target.1 with
  | none => throw (.unknownColumn target.1)
  | some j =>
    match r.columns[j]? with
    | none => return r
    | some c =>
      match applyBareBound? kind c with
      | some c => return r.mapColumn j fun _ => c
      | none =>
        if !takesValue kind then throw (.unsupportedBound kind)
        match target.2 with
        | none => throw (.missingBound kind)
        | some word =>
          let x ← boundValue word
          let c ← applyBound kind x c
          return r.mapColumn j fun _ => c

/-- A line of data. -/
def readData (words : List String) (r : Reader α) : Except ParseFault (Reader α) :=
  match r.place with
  | .name => .error .outsideSection
  | .ends => .error .outsideSection
  | .objSense =>
    match senseOf? (words.headD "") with
    | some sense => .ok { r with sense := sense }
    | none => .error .unknownSense
  | .rows => r.readRow words
  | .columns => r.readColumn words
  | .rhs => r.readPairs readRhs words
  | .ranges => r.readPairs readRange words
  | .bounds => r.readBound words

/-- A line that is neither blank nor a comment; `indented` tells whether it begins with a blank. -/
def readWords (indented : Bool) (words : List String) (r : Reader α) :
    Except ParseFault (Reader α) :=
  if indented then r.readData words
  else
    let first := words.headD ""
    match Section.ofWord? first with
    | some s => r.openSection s words
    | none =>
      if r.place = .name ∨ r.place = .ends then .error (.unknownSection first)
      else r.readData words

/-- A line of the file. -/
def readLine (line : List Char) (r : Reader α) : Except ParseFault (Reader α) :=
  let words := Text.wordsOf line
  if words.isEmpty || line.head? == some '*' then .ok r
  else r.readWords (line.head?.any Text.isBlank) words

/-- Read lines as far as they can be had, the first one having the given number. -/
def readLines (path : String) :
    Nat → List (Except AccessFault (List Char)) → Reader α → Except Error (Reader α)
  | _, [], r => .ok r
  | _, .error fault :: _, _ => .error (.access path fault)
  | n, .ok line :: rest, r =>
    match r.readLine line with
    | .error fault => .error (.parse path n fault)
    | .ok r => readLines path (n + 1) rest r

/-- The program that was read, before it is checked. -/
def builder (r : Reader α) : Builder α :=
  { name := r.name
    sense := r.sense
    offset := r.offset
    columns := r.columns
    rows := r.rows.map RowData.plan
    entries := r.entries.foldr (fun e c => c.add e.1.1 e.1.2 e.2) [] }

end Reader

/-- The program in a file with the given lines. -/
def ofLines (path : String) (lines : List (Except AccessFault (List Char))) :
    Except Error (Problem α) :=
  match Reader.readLines path 1 lines Reader.start with
  | .error e => .error e
  | .ok r => r.builder.build

/-- The program that a text describes. -/
def ofText (path text : String) : Except Error (Problem α) :=
  ofLines path ((Text.linesOf text).map .ok)

end Mps
end MipShrink
