/-
# Mixed-integer programs

A program minimises or maximises a linear objective with a constant over its columns, subject to
its rows.  Rows and columns are not taken out while it shrinks: a row is marked `redundant`, a
column `fixed`, so that positions stay valid.  `Problem.size` counts what is left.

A program that was built or read consists of its rows and columns.  One that was saved can hold a
`Surplus`: rows and names behind the last ones, and columns that do not tell the coefficients of the
rows.  The columns count wherever coefficients are looked up by columns, until a coefficient is
changed; then they are those of the rows again.
-/

import MipShrink.Problem.Matrix

namespace MipShrink

/-- The direction of optimisation. -/
inductive Sense where
  | minimize
  | maximize
deriving DecidableEq, Repr

/-- What a saved program can hold besides its rows and columns. -/
structure Surplus (α : Type) where
  /-- The coefficients of each column with the places of their rows, if the rows have others. -/
  columns : Option (List (List (Nat × α))) := none
  /-- Rows behind the last one, which are written but take no part in anything else. -/
  rows : List (Row α) := []
  /-- Names behind those of the columns. -/
  names : List String := []
deriving DecidableEq, Repr

/-- What is left of a surplus when a coefficient has been changed. -/
def Surplus.settled {α : Type} (s : Surplus α) : Surplus α :=
  { s with columns := none, rows := s.rows.map fun r => { r with coeffs := [] } }

@[simp] theorem Surplus.settled_empty {α : Type} : ({} : Surplus α).settled = {} := rfl

/-- A mixed-integer program. -/
structure Problem (α : Type) where
  name : String
  sense : Sense
  /-- The constant of the objective. -/
  offset : α
  columns : List (Column α)
  rows : List (Row α)
  surplus : Surplus α := {}
deriving DecidableEq, Repr

/-- Counts that tell how far a program has shrunk. -/
structure ProblemSize where
  /-- Rows that are not redundant. -/
  rows : Nat
  /-- Columns that are not fixed. -/
  cols : Nat
  /-- Stored coefficients. -/
  nnz : Nat
  /-- Stored coefficients that are not integral. -/
  nonintegral : Nat
deriving DecidableEq, Repr, Inhabited

namespace ProblemSize

/-- The quantity that never grows during a reduction. -/
def measure (s : ProblemSize) : Nat := s.rows + s.cols + s.nonintegral

/-- The counts in words. -/
def text (s : ProblemSize) : String :=
  toString s.rows ++ " rows, " ++ toString s.cols ++ " columns, " ++ toString s.nnz ++
    " nonzeros, " ++ toString s.nonintegral ++ " non-integral"

end ProblemSize

namespace Problem

variable {α : Type}

/-- The number of rows. -/
def nrows (p : Problem α) : Nat := p.rows.length

/-- The number of columns. -/
def ncols (p : Problem α) : Nat := p.columns.length

/-- The rows over the columns of the program. -/
def matrix (p : Problem α) : Matrix α := { ncols := p.ncols, rows := p.rows }

/-- The program with one column changed; nothing happens beyond the last column. -/
def mapColumn (j : Nat) (f : Column α → Column α) (p : Problem α) : Problem α :=
  { p with columns := p.columns.modify j f }

/-- The program with one row changed; nothing happens beyond the last row. -/
def mapRow (i : Nat) (f : Row α → Row α) (p : Problem α) : Problem α :=
  { p with rows := p.rows.modify i f }

/-- The rows with those behind the last one. -/
def allRows (p : Problem α) : List (Row α) := p.rows ++ p.surplus.rows

/-- The coefficients of a column with the places of their rows, from top to bottom. -/
def column (j : Nat) (p : Problem α) : List (Nat × α) :=
  match p.surplus.columns with
  | none => p.matrix.column j
  | some columns => columns.getD j []

/-- The coefficients of a column with their rows, from top to bottom. -/
def columnRows (j : Nat) (p : Problem α) : List (Row α × α) :=
  match p.surplus.columns with
  | none => p.rows.filterMap fun r => (r.coeff? j).map fun a => (r, a)
  | some columns => (columns.getD j []).filterMap fun e => (p.allRows[e.1]?).map fun r => (r, e.2)

/-- The program with the rows changed in which a column has a coefficient. -/
def mapColumnRows (j : Nat) (f : α → Row α → Row α) (p : Problem α) : Problem α :=
  match p.surplus.columns with
  | none =>
    { p with rows := p.rows.map fun r =>
        match r.coeff? j with
        | some a => f a r
        | none => r }
  | some columns => (columns.getD j []).foldl (fun p e => p.mapRow e.1 (f e.2)) p

/-- Does the column exist and have the property? -/
def columnHas (j : Nat) (f : Column α → Bool) (p : Problem α) : Bool :=
  (p.columns[j]?).any f

/-- Does the row exist and have the property? -/
def rowHas (i : Nat) (f : Row α → Bool) (p : Problem α) : Bool :=
  (p.rows[i]?).any f

/-- The program with its row marked. -/
def markRedundant (i : Nat) (p : Problem α) : Problem α :=
  p.mapRow i (Row.assignFlag .redundant true)

/-- Changing a row keeps the number of rows. -/
@[simp] theorem nrows_mapRow (i : Nat) (f : Row α → Row α) (p : Problem α) :
    (p.mapRow i f).nrows = p.nrows := by
  simp [mapRow, nrows]

/-- Changing a column keeps the number of columns. -/
@[simp] theorem ncols_mapColumn (j : Nat) (f : Column α → Column α) (p : Problem α) :
    (p.mapColumn j f).ncols = p.ncols := by
  simp [mapColumn, ncols]

variable [Scalar α]

/-- The program with the changes written into its rows, if there are any. -/
def write (c : Changes α) (p : Problem α) : Problem α :=
  if c.isEmpty then p
  else { p with rows := (c.writeTo p.rows).map Row.dropZeros, surplus := p.surplus.settled }

/-- A program without surplus stays without. -/
theorem surplus_write {c : Changes α} {p : Problem α} (h : p.surplus = {}) :
    (p.write c).surplus = {} := by
  unfold write
  split <;> simp [h]

/-- Every value of the row is integral, and so are its columns. -/
def isRowIntegral (epsilon : α) (r : Row α) (p : Problem α) : Bool :=
  r.coeffs.all fun e => p.columnHas e.1 Column.isIntegral && Within.integral epsilon e.2

/-- How large the program is. -/
def size (t : Tolerance α) (p : Problem α) : ProblemSize :=
  { rows := p.rows.countP fun r => !r.isRedundant
    cols := p.columns.countP fun c => !c.flags.fixed
    nnz := (p.allRows.flatMap Row.coeffs).length
    nonintegral := (p.rows.flatMap Row.coeffs).countP fun e => !Within.integral t.epsilon e.2 }

/-- The value of the objective at a point; a column without value counts as zero. -/
def objective (x : List α) (p : Problem α) : α :=
  p.columns.zipIdx.foldl (fun sum e => sum + e.1.cost * x.getD e.2 0) p.offset

end Problem
end MipShrink
