/-
# The rows as a matrix

The coefficients are stored once, in the rows.  The other views are computed from them, so they
always show the same numbers: `column` lists the entries of a column from top to bottom, `entries`
lists all of them by position.

Changes of coefficients are collected in a buffer, in which a later change of a position replaces
an earlier one, and are written in one go.
-/

import MipShrink.Problem.Row

namespace MipShrink

/-- Rows over a number of columns. -/
structure Matrix (α : Type) where
  ncols : Nat
  rows : List (Row α)
deriving Repr

/-- Changes of coefficients that wait to be written, by position. -/
abbrev Changes (α : Type) := List ((Nat × Nat) × α)

namespace Changes

variable {α : Type}

/-- Note a new value for the coefficient at a position. -/
def add (i j : Nat) (x : α) (c : Changes α) : Changes α :=
  Keyed.put Keyed.positionBefore (i, j) x c

/-- The rows with the changes written into them. -/
def writeTo [Scalar α] (c : Changes α) (rows : List (Row α)) : List (Row α) :=
  c.foldl (fun rows e => rows.modify e.1.1 (Row.setCoeff e.1.2 e.2)) rows

end Changes

namespace Matrix

variable {α : Type}

/-- The number of rows. -/
def nrows (m : Matrix α) : Nat := m.rows.length

/-- The number of stored coefficients. -/
def nnz (m : Matrix α) : Nat := (m.rows.flatMap Row.coeffs).length

/-- The coefficients of a column with their rows, from top to bottom. -/
def column (j : Nat) (m : Matrix α) : List (Nat × α) :=
  m.rows.zipIdx.filterMap fun p => (p.1.coeff? j).map fun a => (p.2, a)

/-- The coefficient at a position, if it is stored. -/
def coeff? (i j : Nat) (m : Matrix α) : Option α :=
  (m.rows[i]?).bind (Row.coeff? j)

/-- All stored coefficients by position. -/
def entries (m : Matrix α) : List ((Nat × Nat) × α) :=
  m.rows.zipIdx.flatMap fun p => p.1.coeffs.map fun e => ((p.2, e.1), e.2)

/-- Does the position belong to the matrix? -/
def covers (m : Matrix α) (position : Nat × Nat) : Bool :=
  decide (position.1 < m.nrows) && decide (position.2 < m.ncols)

variable [Scalar α]

/-- The matrix with the changes written into it. -/
def write (c : Changes α) (m : Matrix α) : Matrix α :=
  { m with rows := c.writeTo m.rows }

/-- The matrix with the changes written, provided that all of them belong to it. -/
def write? (c : Changes α) (m : Matrix α) : Option (Matrix α) :=
  if c.all fun e => m.covers e.1 then some (m.write c) else none

/-- The matrix of the given sides, attributes and entries; the last entry of a position counts and
zeros are left out.  The three lists need one item for each row, and every entry that is not zero
has to belong to the matrix. -/
def ofEntries? (nrows ncols : Nat) (entries : List ((Nat × Nat) × α)) (lhs rhs : List α)
    (flags : List RowFlags) : Option (Matrix α) :=
  if lhs.length = nrows ∧ rhs.length = nrows ∧ flags.length = nrows then
    let blank := (lhs.zip (rhs.zip flags)).map fun p =>
      { name := "", coeffs := [], lhs := p.1, rhs := p.2.1, flags := p.2.2 : Row α }
    let kept := (Keyed.ofList Keyed.positionBefore entries).filter fun e => !Scalar.isZero e.2
    write? kept { ncols := ncols, rows := blank }
  else none

end Matrix
end MipShrink
