/-
# Taking out what is marked

`compress` removes the redundant rows and the fixed columns.  The value of a fixed column, its
lower bound, first moves into the sides of its rows and into the constant of the objective, so that
the program keeps its meaning.  The index maps tell where the kept rows and columns went.
-/

import MipShrink.Problem.Basic

namespace MipShrink

/-- The new position of each row and column, `none` for those removed. -/
structure IndexMaps where
  rows : List (Option Nat)
  cols : List (Option Nat)
deriving DecidableEq, Repr, Inhabited

namespace IndexMaps

/-- Number the kept items from `next` on. -/
def renumberFrom (next : Nat) : List Bool → List (Option Nat)
  | [] => []
  | true :: rest => some next :: renumberFrom (next + 1) rest
  | false :: rest => none :: renumberFrom next rest

/-- Number the kept items. -/
def renumber (keep : List Bool) : List (Option Nat) :=
  renumberFrom 0 keep

/-- The items whose place in the map is taken. -/
def select {β : Type} (map : List (Option Nat)) (items : List β) : List β :=
  (items.zip map).filterMap fun e => e.2.map fun _ => e.1

/-- Every element has a place in the numbering, kept or not. -/
@[simp] theorem length_renumberFrom (next : Nat) (keep : List Bool) :
    (renumberFrom next keep).length = keep.length := by
  induction keep generalizing next with
  | nil => rfl
  | cons b rest ih => cases b <;> simp [renumberFrom, ih]

end IndexMaps

namespace Problem

variable {α : Type} [Scalar α]

/-- Move the value `x` of column `j` out of the rows and the objective: the entries of the column
disappear and the sides and the constant take up what they contributed. -/
def substitute (j : Nat) (x : α) (p : Problem α) : Problem α :=
  let cost := ((p.columns[j]?).map Column.cost).getD 0
  let p := p.mapColumnRows j fun a row =>
    { row.shift (a * x) with coeffs := Keyed.drop j row.coeffs }
  { p with
    offset := p.offset + cost * x
    columns := p.columns.modify j (Column.setCost 0) }

/-- Move the values of all fixed columns out, from the first column to the last. -/
def substituteFixed (p : Problem α) : Problem α :=
  p.columns.zipIdx.foldl
    (fun q e => if e.1.flags.fixed then q.substitute e.2 e.1.lower else q) p

/-- Where the rows and columns go. -/
def indexMaps (p : Problem α) : IndexMaps :=
  { rows := IndexMaps.renumber (p.rows.map fun r => !r.isRedundant)
    cols := IndexMaps.renumber (p.columns.map fun c => !c.flags.fixed) }

/-- The kept rows and columns in their new places, and nothing besides. -/
def restrict (maps : IndexMaps) (p : Problem α) : Problem α :=
  { p with
    columns := IndexMaps.select maps.cols p.columns
    rows := (IndexMaps.select maps.rows p.rows).map fun row =>
      Row.dropZeros { row with coeffs := row.coeffs.filterMap fun e =>
          (maps.cols.getD e.1 none).map fun j => (j, e.2) }
    surplus := {} }

/-- The program without its redundant rows and fixed columns, and where the others went. -/
def compress (p : Problem α) : Problem α × IndexMaps :=
  let maps := p.indexMaps
  (p.substituteFixed.restrict maps, maps)

end Problem
end MipShrink
