/-
# Reading into parallel tables

While a file is read, its rows and columns can be kept as tables: a map from names to places, and
for each of the data a list with an item for every place.  What a line says about a row is written
at the place that the map gives, into a list that has to be long enough by then; and the places that
are noted with the coefficients are used when the last line has been read.

The *strict* reader works on such tables (`Mps.Tables`), and takes the words of a line apart by
their places.  A look-up, a write or a part of a line that does not fit stops it with a `Fault`,
while a line that is wrong is refused (`Mps.Stop`).  Its last step puts the program together, column
by column and row by row (`Mps.Tables.builder`), and stores the coefficients, none of which may lie
outside of the matrix (`Mps.buildStrict`).
-/

import MipShrink.Mps.Reader
import MipShrink.Proofs.Strict.Faults

namespace MipShrink

namespace Strict

variable {β : Type}

/-- The list with another item at a place. -/
def set (k : Nat) (x : β) (l : List β) : Except Fault (List β) :=
  if k < l.length then .ok (l.set k x) else .error (.index k l.length)

/-- An item of a list can be replaced where there is one. -/
theorem set_eq_ok {k : Nat} {l : List β} (below : k < l.length) (x : β) :
    set k x l = .ok (l.set k x) :=
  if_pos below

end Strict

namespace Mps

/-- What stops a strict reader. -/
inductive Stop (ε : Type) where
  /-- A look-up, or another step that the data should allow. -/
  | fault (fault : Fault)
  /-- The file is refused. -/
  | refused (error : ε)
deriving DecidableEq, Repr

instance {ε : Type} : MonadLift (Except Fault) (Except (Stop ε)) where
  monadLift x := x.mapError .fault

instance {ε : Type} : MonadLift (Except ε) (Except (Stop ε)) where
  monadLift x := x.mapError .refused

/-- What becomes of a line. -/
abbrev Reading (β : Type) := Except (Stop ParseFault) β

/-- The items of a list two by two; the last one may be left alone. -/
def chunks {β : Type} : List β → List (List β)
  | [] => []
  | [a] => [[a]]
  | a :: b :: rest => [a, b] :: chunks rest

/-- What has been read of a file, one list for each of the data of rows and columns. -/
structure Tables (α : Type) where
  place : Section
  inMarker : Bool
  name : String
  sense : Sense
  offset : α
  objective : Option String
  freeRows : List String
  /-- The places of the rows by their names, the latest one first. -/
  rows : List (String × Nat)
  rowNames : List String
  rowKinds : List RowKind
  rhs : List α
  ranges : List (Option α)
  /-- The places of the columns by their names, the latest one first. -/
  columns : List (String × Nat)
  columnNames : List String
  costs : List α
  lower : List (Option α)
  upper : List (Option α)
  integral : List Bool
  /-- Coefficients with the places of their rows and columns, the latest one first. -/
  entries : List ((Nat × Nat) × α)

variable {α : Type} [Scalar α]

/-- The words of a bound from the name of its column on.  The name of the vector in front of it may
be missing, and a binary column may have a value, which is left out. -/
def boundRest (kind : String) (words : List String) : Reading (List String) :=
  let bare : Bool := kind = "FR" ∨ kind = "MI" ∨ kind = "PL" ∨ kind = "BV"
  match bare, words.length with
  | false, 4 => Strict.part 2 words.length words
  | true, 3 => Strict.part 2 words.length words
  | false, 3 => Strict.part 1 words.length words
  | true, 2 => Strict.part 1 words.length words
  | true, 4 =>
    if kind = "BV" then Strict.part 2 3 words else throw (.refused (.malformedBound kind))
  | _, _ => throw (.refused (.malformedBound kind))

/-- The value of a bound, `none` when it is infinite. -/
def boundAt (kind : String) (rest : List String) : Except ParseFault (Option α) :=
  match rest[1]? with
  | some word => boundValue word
  | none => .error (.missingBound kind)

namespace Tables

/-- Nothing has been read. -/
def start : Tables α :=
  { place := .name, inMarker := false, name := "", sense := .minimize, offset := 0
    objective := none, freeRows := [], rows := [], rowNames := [], rowKinds := [], rhs := []
    ranges := [], columns := [], columnNames := [], costs := [], lower := [], upper := []
    integral := [], entries := [] }

/-- Is this the name of the objective? -/
def isObjective (t : Tables α) (name : String) : Bool :=
  t.objective == some name

/-- Write the right-hand side of a row. -/
def setRhs (i : Nat) (x : α) (t : Tables α) : Except Fault (Tables α) := do
  return { t with rhs := ← Strict.set i x t.rhs }

/-- Write the range of a row. -/
def setRange (i : Nat) (x : α) (t : Tables α) : Except Fault (Tables α) := do
  return { t with ranges := ← Strict.set i (some x) t.ranges }

/-- Write the cost of a column. -/
def setCost (j : Nat) (x : α) (t : Tables α) : Except Fault (Tables α) := do
  return { t with costs := ← Strict.set j x t.costs }

/-- Write the lower bound of a column. -/
def setLower (j : Nat) (x : Option α) (t : Tables α) : Except Fault (Tables α) := do
  return { t with lower := ← Strict.set j x t.lower }

/-- Write the upper bound of a column. -/
def setUpper (j : Nat) (x : Option α) (t : Tables α) : Except Fault (Tables α) := do
  return { t with upper := ← Strict.set j x t.upper }

/-- Write that a column is integral. -/
def setIntegral (j : Nat) (t : Tables α) : Except Fault (Tables α) := do
  return { t with integral := ← Strict.set j true t.integral }

/-- The tables with another row. -/
def addRow (kind : RowKind) (name : String) (t : Tables α) : Tables α :=
  { t with
    rows := (name, t.rowNames.length) :: t.rows
    rowNames := t.rowNames ++ [name]
    rowKinds := t.rowKinds ++ [kind]
    rhs := t.rhs ++ [0]
    ranges := t.ranges ++ [none] }

/-- The place of the column with the given name, which is added when it is new. -/
def withColumn (name : String) (t : Tables α) : Nat × Tables α :=
  match t.columns.lookup name with
  | some j => (j, t)
  | none =>
    (t.columnNames.length,
      { t with
        columns := (name, t.columnNames.length) :: t.columns
        columnNames := t.columnNames ++ [name]
        costs := t.costs ++ [0]
        lower := t.lower ++ [some 0]
        upper := t.upper ++ [none]
        integral := t.integral ++ [t.inMarker] })

/-- A line that opens a section. -/
def openSection (s : Section) (words : List String) (t : Tables α) : Reading (Tables α) :=
  match s with
  | .name => return { t with place := .name, name := words[1]?.getD "" }
  | .objSense =>
    match words[1]? with
    | none => return { t with place := .objSense }
    | some word =>
      match senseOf? word with
      | some sense => return { t with place := .objSense, sense := sense }
      | none => throw (.refused .unknownSense)
  | s => return { t with place := s }

/-- A line of the section of the rows. -/
def readRow (words : List String) (t : Tables α) : Reading (Tables α) :=
  match words with
  | [kind, name] =>
    if kind = "N" then
      match t.objective with
      | none => return { t with objective := some name }
      | some _ => return { t with freeRows := t.freeRows ++ [name] }
    else if kind = "E" then add .equal name
    else if kind = "L" then add .less name
    else if kind = "G" then add .greater name
    else throw (.refused (.unknownRowKind kind))
  | _ => throw (.refused .rowShape)
where
  /-- Add a row with sides. -/
  add (kind : RowKind) (name : String) : Reading (Tables α) :=
    match t.rows.lookup name with
    | some _ => throw (.refused (.duplicateRow name))
    | none => return t.addRow kind name

/-- An entry of column `j`. -/
def readEntry (j : Nat) (t : Tables α) (pair : List String) : Reading (Tables α) := do
  let x : α ← number (← Strict.get 1 pair)
  let row ← Strict.get 0 pair
  if t.isObjective row then t.setCost j x
  else
    match t.rows.lookup row with
    | some i =>
      if Scalar.isZero x then return t else return { t with entries := ((i, j), x) :: t.entries }
    | none => if t.freeRows.contains row then return t else throw (.refused (.unknownRow row))

/-- A line of the section of the columns. -/
def readColumn (words : List String) (t : Tables α) : Reading (Tables α) :=
  if words[1]? = some "'MARKER'" then
    if words[2]? = some "'INTORG'" then return { t with inMarker := true }
    else if words[2]? = some "'INTEND'" then return { t with inMarker := false }
    else throw (.refused .unknownMarker)
  else if words.length ≠ 3 ∧ words.length ≠ 5 then throw (.refused .entryShape)
  else do
    let c := t.withColumn (← Strict.get 0 words)
    let pairs ← Strict.part 1 words.length words
    (chunks pairs).foldlM (readEntry c.1) c.2

/-- A right-hand side. -/
def readRhs (t : Tables α) (pair : List String) : Reading (Tables α) :=
  match pair with
  | [row, value] => do
    let x : α ← number value
    if t.isObjective row then return { t with offset := -x }
    else
      match t.rows.lookup row with
      | some i => t.setRhs i x
      | none => if t.freeRows.contains row then return t else throw (.refused (.unknownRow row))
  | _ => throw (.refused .pairShape)

/-- A range. -/
def readRange (t : Tables α) (pair : List String) : Reading (Tables α) :=
  match pair with
  | [row, value] => do
    let x : α ← number value
    match t.rows.lookup row with
    | some i => t.setRange i x
    | none => if t.freeRows.contains row then return t else throw (.refused (.unknownRow row))
  | _ => throw (.refused .pairShape)

/-- A line of row names and values; the name of the vector in front of them may be missing. -/
def readPairs (f : Tables α → List String → Reading (Tables α)) (words : List String)
    (t : Tables α) : Reading (Tables α) := do
  let pairs ←
    if words.length % 2 = 1 then Strict.part 1 words.length words else Except.ok words
  (chunks pairs).foldlM f t

/-- Write the upper bound of column `j`.  A negative one takes away a lower bound of zero. -/
def writeUpper (x : Option α) (j : Nat) (t : Tables α) : Except Fault (Tables α) := do
  if x.any Scalar.isNegative then
    if (← Strict.get j t.lower).any Scalar.isZero then (← t.setLower j none).setUpper j x
    else t.setUpper j x
  else t.setUpper j x

/-- Write a bound of column `j`. -/
def writeBound (kind : String) (rest : List String) (j : Nat) (t : Tables α) :
    Reading (Tables α) :=
  if kind = "UP" then do
    let x ← boundAt kind rest
    t.writeUpper x j
  else if kind = "LO" then do
    let x ← boundAt kind rest
    t.setLower j x
  else if kind = "FX" then do
    let x ← boundAt kind rest
    (← t.setLower j x).setUpper j x
  else if kind = "FR" then do (← t.setLower j none).setUpper j none
  else if kind = "MI" then t.setLower j none
  else if kind = "PL" then t.setUpper j none
  else if kind = "BV" then do
    (← (← t.setIntegral j).setLower j (some 0)).setUpper j (some 1)
  else if kind = "LI" then do
    let t ← t.setIntegral j
    let x ← boundAt kind rest
    t.setLower j x
  else if kind = "UI" then do
    let t ← t.setIntegral j
    let x ← boundAt kind rest
    t.setUpper j x
  else throw (.refused (.unsupportedBound kind))

/-- A line of the section of the bounds. -/
def readBound (words : List String) (t : Tables α) : Reading (Tables α) := do
  let kind ← Strict.get 0 words
  let rest ← boundRest kind words
  let name ← Strict.get 0 rest
  match t.columns.lookup name with
  | none => throw (.refused (.unknownColumn name))
  | some j => t.writeBound kind rest j

/-- A line of data. -/
def readData (words : List String) (t : Tables α) : Reading (Tables α) :=
  match t.place with
  | .name => throw (.refused .outsideSection)
  | .ends => throw (.refused .outsideSection)
  | .objSense => do
    match senseOf? (← Strict.get 0 words) with
    | some sense => return { t with sense := sense }
    | none => throw (.refused .unknownSense)
  | .rows => t.readRow words
  | .columns => t.readColumn words
  | .rhs => t.readPairs readRhs words
  | .ranges => t.readPairs readRange words
  | .bounds => t.readBound words

/-- A line of the file. -/
def readLine (line : List Char) (t : Tables α) : Reading (Tables α) :=
  let words := Text.wordsOf line
  if (Text.trim line).isEmpty || line.head? == some '*' then return t
  else if line.head?.any Text.isBlank then t.readData words
  else do
    let first ← Strict.get 0 words
    match Section.ofWord? first with
    | some s => t.openSection s words
    | none =>
      if t.place = .name ∨ t.place = .ends then throw (.refused (.unknownSection first))
      else t.readData words

/-- Read lines, the first one having the given number. -/
def readLines (path : String) :
    Nat → List (List Char) → Tables α → Except (Stop Error) (Tables α)
  | _, [], t => .ok t
  | n, line :: rest, t =>
    match t.readLine line with
    | .error (.fault fault) => .error (.fault fault)
    | .error (.refused fault) => .error (.refused (.parse path n fault))
    | .ok t => readLines path (n + 1) rest t

/-- Put a column behind those of a builder, and write its data there. -/
def buildColumn (b : Builder α) (c : String × (α × Option α) × Option α × Bool) :
    Except Fault (Builder α) := do
  let b := b.addColumn (ColumnPlan.start c.1)
  let j := b.columns.length - 1
  let start ← Strict.get j b.columns
  let plan : ColumnPlan α :=
    { start with cost := c.2.1.1, lower := c.2.1.2, upper := c.2.2.1, integral := c.2.2.2 }
  return b.mapColumn j fun _ => plan

/-- Put a row behind those of a builder, which has to give it the place that it has in the tables,
and write its sides there. -/
def buildRow (t : Tables α) (b : Builder α) (e : String × Nat) : Except Fault (Builder α) := do
  let b := b.addRow (RowPlan.start e.1)
  if b.rows.length - 1 ≠ e.2 then throw (.index e.2 b.rows.length)
  else
    let rhs ← Strict.get e.2 t.rhs
    let kind ← Strict.get e.2 t.rowKinds
    let range ← Strict.get e.2 t.ranges
    let start ← Strict.get e.2 b.rows
    let sides := RowData.plan ⟨start.name, kind, rhs, range⟩
    return b.mapRow e.2 fun _ => sides

/-- The program without rows and columns. -/
def header (t : Tables α) : Builder α :=
  { Builder.start t.name 0 0 with sense := t.sense, offset := t.offset }

/-- The data of the columns next to each other. -/
def columnData (t : Tables α) : List (String × (α × Option α) × Option α × Bool) :=
  t.columnNames.zip ((t.costs.zip t.lower).zip (t.upper.zip t.integral))

/-- The program that was read, before it is checked. -/
def builder (t : Tables α) : Except Fault (Builder α) := do
  let b ← t.columnData.foldlM buildColumn t.header
  let b ← t.rowNames.zipIdx.foldlM t.buildRow b
  return { b with entries := t.entries.foldr (fun e c => c.add e.1.1 e.1.2 e.2) [] }

end Tables

/-- The program that the data describe, or what is wrong with them.  Every coefficient that is
stored has to belong to the matrix. -/
def buildStrict (b : Builder α) : Except (Stop Error) (Problem α) :=
  match b.fault? with
  | some fault => .error (.refused (.build fault))
  | none =>
    if (b.entries.filter fun e => !Scalar.isZero e.2).all fun e => !b.isOutside e.1 then
      .ok b.toProblem
    else .error (.fault .outside)

/-- The program that a text describes, with strict look-ups. -/
def ofTextStrict (path text : String) : Except (Stop Error) (Problem α) := do
  let t ← Tables.readLines path 1 (Text.linesOf text) Tables.start
  buildStrict (← t.builder)

end Mps
end MipShrink
