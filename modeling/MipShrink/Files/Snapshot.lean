/-
# Saved runs

A file with a saved run is packed and holds the values below one after the other, without names or
marks between them.

| value | bytes |
| --- | --- |
| number, length, position | 8, the lowest first |
| choice | 4 |
| truth value, attributes | 1 |
| list | its length, and its items |
| text | its length, and its bytes |
| machine number | 8 |
| integer | the sign in 1, and its digits in base `2^32` as a list |
| rational | two integers |

A run is its state, then the settings kind by kind, the problem, and the reference.  The problem
stores its coefficients twice, by rows and by columns; the second time values are the positions of
the coefficients among those stored first.  Bytes after the last value do not matter, and are not
even unpacked.

The lists of a problem need not fit together.  The stored matrix tells how many rows and columns
there are; what a list lacks counts as zero or as no text, and what it has beyond them becomes the
surplus of the problem where it can be seen.
-/

import MipShrink.Files.Store
import MipShrink.Text.Utf8

namespace MipShrink
namespace Snapshot

/-- The bytes that are left of a file, and what is wrong with the file behind them. -/
structure Source where
  bytes : List UInt8
  fault : Option GzipFault

/-- Something that reads a value from the start of a source. -/
abbrev Reader := StateT Source (Except SnapshotFault)

/-- So many bytes and the ones after them, if there are enough. -/
def splitBytes : Nat → List UInt8 → Option (List UInt8 × List UInt8)
  | 0, bytes => some ([], bytes)
  | _ + 1, [] => none
  | n + 1, b :: bytes => (splitBytes n bytes).map fun r => (b :: r.1, r.2)

/-- So many bytes. -/
def takeBytes (n : Nat) : Reader (List UInt8) := fun s =>
  match splitBytes n s.bytes with
  | some (taken, rest) => .ok (taken, { s with bytes := rest })
  | none => .error (s.fault.elim .short .packed)

/-- A number of so many bytes. -/
def word (n : Nat) : Reader Nat := do
  return Gzip.numberOf (← takeBytes n)

/-- A number, length or position. -/
def natural : Reader Nat := word 8

/-- A number of so many bytes that may be negative. -/
def signed (n : Nat) : Reader Int := do
  let x ← word n
  return if 2 * x < Nat.pow 256 n then (x : Int) else (x : Int) - (Nat.pow 256 n : Nat)

/-- A truth value. -/
def truth : Reader Bool := do
  let x ← word 1
  if x = 0 then return false
  else if x = 1 then return true
  else throw (.badTruth x)

/-- A choice among so many. -/
def choice (count : Nat) : Reader Nat := do
  let x ← word 4
  if x < count then return x else throw (.badChoice x count)

/-- So many items, after those that have been read, the latest first. -/
def itemsAfter {β : Type} (item : Reader β) :
    Nat → List β → Source → Except SnapshotFault (List β × Source)
  | 0, before, s => .ok (before.reverse, s)
  | n + 1, before, s =>
    match item.run s with
    | .error e => .error e
    | .ok (x, s) => itemsAfter item n (x :: before) s

/-- A list. -/
def list {β : Type} (item : Reader β) : Reader (List β) := do
  let n ← natural
  itemsAfter item n []

/-- A text. -/
def text : Reader String := do
  let bytes ← takeBytes (← natural)
  match Text.Utf8.faultFrom 0 (Text.Utf8.pieces bytes) with
  | none => return String.ofList (Text.Utf8.decode bytes)
  | some (index, n) => throw (.badText index n)

/-- A character, of as many bytes as its first one tells. -/
def character : Reader Char := do
  let first ← takeBytes 1
  let more ←
    match Text.Utf8.first (Gzip.numberOf first) with
    | (_, some p) => takeBytes (p.more + 1)
    | _ => pure []
  match Text.Utf8.pieces (first ++ more) with
  | [.char c] => return c
  | _ => throw .badCharacter

/-- An integer of any size. -/
def integer : Reader Int := do
  let sign ← signed 1
  if sign < -1 ∨ 1 < sign then throw (.badSign sign)
  let digits ← list (word 4)
  return sign * (digits.foldr (fun d n => d + Nat.pow 2 32 * n) 0 : Nat)

/-- A machine number. -/
def double : Reader Binary64 := do
  return Binary64.ofBits (UInt64.ofNat (← word 8))

end Snapshot

open Snapshot

/-- Numbers that saved runs hold. -/
class Stored (α : Type) where
  read : Reader α

instance : Stored Real64 where
  read := do return Real64.ofBinary64 (← double)

instance : Stored Fraction where
  read := do
    let numerator ← integer
    let denominator ← integer
    if h : denominator ≠ 0 then return ⟨numerator, denominator, h⟩ else throw .zeroDenominator

instance : Stored Rat where
  read := do return (← Stored.read : Fraction).value

namespace Snapshot

/-- A list of settings of one kind. -/
def settingsOf (value : Reader SettingValue) : Reader (List (String × SettingValue)) :=
  list do return (← text, ← value)

/-- All settings. -/
def settings : Reader Settings := do
  let bools ← settingsOf do return .bool (← truth)
  let ints ← settingsOf do return .int (← signed 4)
  let longs ← settingsOf do return .long (← signed 8)
  let doubles ← settingsOf do return .double (← double).toFloat
  let chars ← settingsOf do return .char (← character)
  let strings ← settingsOf do return .string (← text)
  let limits ← settingsOf do return .limit (← signed 8)
  return (bools ++ ints ++ longs ++ doubles ++ chars ++ strings ++ limits).foldl
    (fun s e => s.push e.1 e.2) Settings.empty

/-- The lines of a matrix: what stands where in each of them. -/
abbrev Lines (β : Type) := List (List (Nat × β))

/-- A stored matrix, whose lines are its rows or its columns. -/
structure Sparse (β : Type) where
  nrows : Nat
  ncols : Nat
  lines : Lines β

/-- Do the items grow? -/
def grows (strictly : Bool) : List Nat → Bool
  | a :: b :: rest => (if strictly then a < b else a ≤ b) && grows strictly (b :: rest)
  | _ => true

/-- Cut a list into parts of the given lengths. -/
def cut {β : Type} : List Nat → List β → List (List β)
  | [], _ => []
  | n :: lengths, l => l.take n :: cut lengths (l.drop n)

/-- The differences of neighbours. -/
def gaps : List Nat → List Nat
  | a :: b :: rest => (b - a) :: gaps (b :: rest)
  | _ => []

/-- So many entries can there be. -/
def maxEntries : Nat := Nat.pow 2 63 - 1

/-- What is wrong with the places where lines start. -/
def startFault? (starts : List Nat) : Option SparseFault :=
  match starts.getLast? with
  | none => some .noStart
  | some last =>
    if !grows false starts then some .startsFall
    else if maxEntries < last then some .startOutside
    else none

/-- What is wrong with a line of the given width. -/
def lineFault? (width : Nat) (line : List Nat) : Option SparseFault :=
  if !grows true line then some .indicesFall
  else if line.any (width ≤ ·) then some .indexOutside
  else none

/-- What is wrong with lines of a width that start at the given places. -/
def sparseFault? (lines width : Nat) (starts indices : List Nat) (values : Nat) :
    Option SparseFault :=
  if values ≠ indices.length then some .valueCount
  else if starts.length ≠ lines + 1 then some .startCount
  else if indices.length ≠ starts.getLastD 0 - starts.headD 0 then some .entryCount
  else (cut (gaps starts) indices).findSome? (lineFault? width)

/-- A sparse matrix, by rows or by columns. -/
def sparse {β : Type} (value : Reader β) : Reader (Sparse β) := do
  let byColumns ← choice 2
  let nrows ← natural
  let ncols ← natural
  let starts ← list natural
  if let some fault := startFault? starts then throw (.sparse fault)
  let indices ← list natural
  let values ← list value
  let (lines, width) := if byColumns = 0 then (nrows, ncols) else (ncols, nrows)
  match sparseFault? lines width starts indices values.length with
  | some fault => throw (.sparse fault)
  | none => return ⟨nrows, ncols, cut (gaps starts) (indices.zip values)⟩

/-- The attributes that a number marks, the first one by its lowest bit. -/
def marked {φ : Type} (all : List φ) (marks : Nat) : List φ :=
  (all.zipIdx.filter fun e => marks.testBit e.2).map Prod.fst

variable {α : Type} [Stored α]

/-- A list of numbers of the problem. -/
def numbers : Reader (List α) := list Stored.read

/-- The lists of a stored problem. -/
structure Lists (α : Type) where
  costs : List α
  coeffs : Sparse α
  positions : Sparse Nat
  lhs : List α
  rhs : List α
  rowMarks : List Nat
  lower : List α
  upper : List α
  columnMarks : List Nat
  columnNames : List String
  rowNames : List String

namespace Lists

variable [Scalar α]

/-- The number of rows that every list has that must have them all. -/
def nrows (l : Lists α) : Nat :=
  min l.coeffs.nrows (min l.coeffs.lines.length l.rowMarks.length)

/-- The number of columns that the list of their attributes has. -/
def ncols (l : Lists α) : Nat :=
  min l.coeffs.ncols l.columnMarks.length

/-- The column at a place. -/
def column (l : Lists α) (j : Nat) : Column α :=
  { name := l.columnNames.getD j "", cost := l.costs.getD j 0
    lower := l.lower.getD j 0, upper := l.upper.getD j 0
    flags := ColFlags.ofList (marked ColFlag.all (l.columnMarks.getD j 0)) }

/-- The row at a place; without attributes it is redundant. -/
def row (l : Lists α) (i : Nat) : Row α :=
  { name := l.rowNames.getD i "", coeffs := l.coeffs.lines.getD i []
    lhs := l.lhs.getD i 0, rhs := l.rhs.getD i 0
    flags := RowFlags.ofList
      ((l.rowMarks[i]?).elim [.redundant] (marked RowFlag.all)) }

/-- The rows, and the ones behind the last of them. -/
def rows (l : Lists α) : List (Row α) × List (Row α) :=
  ((List.range (max l.coeffs.lines.length l.rowMarks.length)).map l.row).splitAt l.nrows

/-- The places of the coefficients of a column, by rows, as the rows tell them: the row, and the
position among all coefficients. -/
def expected (l : Lists α) (j : Nat) : List (Nat × Nat) :=
  let places := l.coeffs.lines.zipIdx.flatMap fun e => e.1.map fun c => (e.2, c.1)
  (places.zipIdx.filter fun e => e.1.2 = j && decide (e.1.1 < l.nrows)).map fun e => (e.1.1, e.2)

/-- The columns as they are stored, unless the rows tell the same. -/
def columns? (l : Lists α) : Option (List (List (Nat × α))) :=
  let found := (List.range l.ncols).map fun j => l.positions.lines.getD j []
  if found = (List.range l.ncols).map l.expected ∧ l.coeffs.lines.length ≤ l.nrows then none
  else
    let values := (l.coeffs.lines.flatMap fun line => line.map Prod.snd).toArray
    some (found.map fun line => line.filterMap fun e => (values[e.2]?).map fun a => (e.1, a))

/-- What there is besides the rows and columns. -/
def surplus (l : Lists α) : Surplus α :=
  { columns := l.columns?, rows := l.rows.2, names := l.columnNames.drop l.ncols }

end Lists

/-- A problem. -/
def problem [Scalar α] : Reader (Problem α) := do
  let name ← text
  let costs ← numbers
  let offset ← Stored.read
  let sense ← choice 2
  let coeffs ← sparse Stored.read
  let positions ← sparse natural
  let lhs ← numbers
  let rhs ← numbers
  let rowMarks ← list (word 1)
  let lower ← numbers
  let upper ← numbers
  let columnMarks ← list (word 1)
  let columnNames ← list text
  let rowNames ← list text
  let l : Lists α :=
    { costs := costs, coeffs := coeffs, positions := positions, lhs := lhs, rhs := rhs
      rowMarks := rowMarks, lower := lower, upper := upper, columnMarks := columnMarks
      columnNames := columnNames, rowNames := rowNames }
  return {
    name := name, sense := if sense = 0 then .minimize else .maximize, offset := offset
    columns := (List.range l.ncols).map l.column, rows := l.rows.1, surplus := l.surplus }

/-- The kinds of references in the order in which they are numbered. -/
def statuses : List SolutionStatus := [.feasible, .infeasible, .unbounded, .unknown]

/-- A reference. -/
def solution : Reader (Solution α) := do
  let status ← choice statuses.length
  let primal ← numbers
  let ray ← numbers
  return { status := statuses.getD status .unknown, primal := primal, ray := ray }

/-- A run: where it stands, and its instance. -/
def run [Scalar α] : Reader (RunState × Instance α) := do
  let round ← natural
  let stage ← natural
  let success ← natural
  let batches ← natural
  let set ← settings
  let p ← problem
  let sol ← solution
  return (⟨round, stage, success, batches⟩, { settings := set, problem := p, solution := sol })

/-- The saved run that the bytes of a file hold. -/
def ofBytes [Scalar α] (b : ByteArray) : Except SnapshotFault (RunState × Instance α) :=
  let unpacked := Gzip.unpackFirst b
  (run.run ⟨unpacked.1.toList, unpacked.2⟩).map Prod.fst

end Snapshot

namespace FileStore

variable {α : Type} [Stored α]

/-- Load a saved run. -/
def getSnapshot [Scalar α] (path : String) (s : FileStore α) :
    Except Error (RunState × Instance α) :=
  match s.get path with
  | .error .isFolder => .error (.snapshot path .isFolder)
  | .error fault => .error (.access path fault)
  | .ok (.snapshot state i) => .ok (state, i)
  | .ok (.text t) => (Snapshot.ofBytes t.toUTF8).mapError (.snapshot path)
  | .ok (.bytes b) => (Snapshot.ofBytes b).mapError (.snapshot path)

/-- A run that was saved is loaded. -/
theorem getSnapshot_writeSnapshot [Scalar α] {path : String} {state : RunState} {i : Instance α}
    {s t : FileStore α} (h : s.writeSnapshot path state i = .ok t) :
    t.getSnapshot path = .ok (state, i) := by
  simp only [writeSnapshot, write] at h
  cases hp : s.target path with
  | error fault => simp [hp] at h
  | ok p =>
    simp only [hp, Except.ok.injEq] at h
    subst h
    simp only [getSnapshot, get_put _ hp]

end FileStore
end MipShrink
