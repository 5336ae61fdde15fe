/-
# How the coefficients are stored

The lines of a sparse matrix, which are its rows or its columns, are stored one after the other in
two lists, one for the places within a line and one for the values.  A third list tells where each
line starts (`Sparse`).

A matrix is stored by rows.  It is stored by columns as well, but with the places of the
coefficients among the values by rows instead of the coefficients, so that every number is stored
once (`Storage`).  Both are made anew whenever coefficients change.

Making a sparse matrix of triplets is left to a library (`Conversion`).
-/

import MipShrink.Problem.Matrix

namespace MipShrink

/-- Lines that are stored one after the other. -/
structure Sparse (β : Type) where
  /-- Where each line starts, and behind them where the last one ends. -/
  starts : List Nat
  /-- The places of the entries within their lines. -/
  places : List Nat
  values : List β
deriving DecidableEq, Repr

namespace Sparse

variable {β : Type}

/-- Where line `k` starts and where it ends. -/
def range (k : Nat) (m : Sparse β) : Nat × Nat :=
  (m.starts.getD k 0, m.starts.getD (k + 1) 0)

/-- The part of a list from the first bound to the second one. -/
def slice {γ : Type} (bounds : Nat × Nat) (l : List γ) : List γ :=
  (l.drop bounds.1).take (bounds.2 - bounds.1)

/-- The entries of line `k`, with their places. -/
def line (k : Nat) (m : Sparse β) : List (Nat × β) :=
  (slice (m.range k) m.places).zip (slice (m.range k) m.values)

end Sparse

/-- What makes sparse matrices of triplets, by rows and by columns.  The first two arguments are the
numbers of rows and columns. -/
structure Conversion (α : Type) where
  byRows : Nat → Nat → List ((Nat × Nat) × α) → Sparse α
  byColumns : Nat → Nat → List ((Nat × Nat) × Nat) → Sparse Nat

/-- The coefficients of a matrix as they are stored. -/
structure Storage (α : Type) where
  nrows : Nat
  ncols : Nat
  /-- The coefficients, by rows. -/
  coefficients : Sparse α
  /-- The places of the coefficients among the stored values, by columns. -/
  transpose : Sparse Nat
deriving DecidableEq, Repr

namespace Storage

variable {α : Type}

/-- The number of stored coefficients. -/
def nnz (m : Storage α) : Nat := m.coefficients.values.length

/-- The coefficients of row `i` with their columns. -/
def row (i : Nat) (m : Storage α) : List (Nat × α) := m.coefficients.line i

/-- The coefficients of column `j` with their rows, looked up among the values by rows.  A place
behind the last value is passed over. -/
def column (j : Nat) (m : Storage α) : List (Nat × α) :=
  (m.transpose.line j).filterMap fun e =>
    (m.coefficients.values[e.2]?).map fun a => (e.1, a)

/-- The number of coefficients in column `j`. -/
def columnLength (j : Nat) (m : Storage α) : Nat :=
  (m.transpose.range j).2 - (m.transpose.range j).1

/-- Where a number is found in an increasing list, between two bounds. -/
def bisect (l : List Nat) (x lo hi : Nat) : Option Nat :=
  if lo < hi then
    let mid := lo + (hi - lo) / 2
    match l[mid]? with
    | none => none
    | some y =>
      if y = x then some mid
      else if y < x then bisect l x (mid + 1) hi
      else bisect l x lo mid
  else none
termination_by hi - lo

/-- The coefficient at a position, if it is stored. -/
def coeff? (i j : Nat) (m : Storage α) : Option α :=
  let places := (m.row i).map Prod.fst
  (bisect places j 0 places.length).bind fun k => ((m.row i).map Prod.snd)[k]?

/-- All stored coefficients by position, gathered row by row. -/
def entries (m : Storage α) : Changes α :=
  Keyed.ofList Keyed.positionBefore <|
    (List.range m.nrows).flatMap fun i => (m.row i).map fun e => ((i, e.1), e.2)

/-- Does the position belong to the matrix? -/
def covers (m : Storage α) (position : Nat × Nat) : Bool :=
  decide (position.1 < m.nrows) && decide (position.2 < m.ncols)

variable [Scalar α] (v : Conversion α)

/-- Store entries without the zeros among them.  They are numbered in the order of their positions,
which is the order in which they are stored by rows. -/
def assemble (nrows ncols : Nat) (entries : Changes α) : Storage α :=
  let kept := entries.filter fun e => !Scalar.isZero e.2
  { nrows := nrows, ncols := ncols, coefficients := v.byRows nrows ncols kept
    transpose := v.byColumns nrows ncols (kept.zipIdx.map fun e => (e.1.1, e.2)) }

/-- Write changes, if there are any, and store all coefficients anew.  All of them have to belong to
the matrix. -/
def change? (c : Changes α) (m : Storage α) : Option (Storage α) :=
  if c.isEmpty then some m
  else if c.all fun e => m.covers e.1 then
    let entries := c.foldl (fun l e => Keyed.put Keyed.positionBefore e.1 e.2 l) m.entries
    some (assemble v m.nrows m.ncols entries)
  else none

end Storage
end MipShrink
