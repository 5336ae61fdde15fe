/-
# Types of rows

Every row has exactly one structural type.  Redundant, empty and singleton rows come first; then
rows of two columns of which one is integral; then rows of ones over binary columns, told apart by
their sides; then rows of integers with one side; the rest is linear.
-/

import MipShrink.Problem.Basic

namespace MipShrink

/-- The structural type of a row. -/
inductive RowType where
  | redundant
  | empty
  | singleton
  | variableBound
  | setPartitioning
  | setPacking
  | setCovering
  | cardinality
  | knapsack
  | linear
deriving DecidableEq, Repr

namespace RowType

/-- All types of rows. -/
def all : List RowType :=
  [redundant, empty, singleton, variableBound, setPartitioning, setPacking, setCovering,
    cardinality, knapsack, linear]

/-- The name of a type. -/
def name : RowType → String
  | redundant => "redundant"
  | empty => "empty"
  | singleton => "singleton"
  | variableBound => "varbound"
  | setPartitioning => "setppc-partitioning"
  | setPacking => "setppc-packing"
  | setCovering => "setppc-covering"
  | cardinality => "cardinality"
  | knapsack => "knapsack"
  | linear => "linear"

/-- The list holds every type of row. -/
theorem mem_all (t : RowType) : t ∈ all := by cases t <;> decide

end RowType

namespace Problem

variable {α : Type} [Scalar α]

/-- The column takes the values zero and one only. -/
def isBinary (epsilon : α) (c : Column α) : Bool :=
  c.isIntegral && !c.flags.lbInf && !c.flags.ubInf &&
    Within.same epsilon c.lower 0 && Within.same epsilon c.upper 1

/-- The type of a row of ones over binary columns. -/
def binaryType (epsilon : α) (row : Row α) : RowType :=
  let isOne := fun side : Option α => side.any fun x => Within.same epsilon x 1
  match isOne row.lhs?, isOne row.rhs? with
  | true, true => .setPartitioning
  | false, true => if row.flags.lhsInf then .setPacking else .cardinality
  | true, false => if row.flags.rhsInf then .setCovering else .cardinality
  | false, false => .cardinality

/-- The type of a row. -/
def rowType (epsilon : α) (row : Row α) (p : Problem α) : RowType :=
  if row.isRedundant then .redundant
  else if row.coeffs.length = 0 then .empty
  else if row.coeffs.length = 1 then .singleton
  else if row.coeffs.length = 2 ∧
      (row.coeffs.any fun e => p.columnHas e.1 Column.isIntegral) = true then .variableBound
  else if row.coeffs.all fun e =>
      p.columnHas e.1 (isBinary epsilon) && Within.same epsilon e.2 1 then
    binaryType epsilon row
  else if p.isRowIntegral epsilon row && (row.flags.lhsInf || row.flags.rhsInf) then .knapsack
  else .linear

/-- The types of all rows. -/
def rowTypes (t : Tolerance α) (p : Problem α) : List RowType :=
  p.rows.map fun row => p.rowType t.epsilon row

/-- The number of rows of each type that occurs. -/
def typeCounts (t : Tolerance α) (p : Problem α) : List (RowType × Nat) :=
  (RowType.all.map fun ty => (ty, (p.rowTypes t).count ty)).filter fun e => !(e.2 == 0)

end Problem
end MipShrink
