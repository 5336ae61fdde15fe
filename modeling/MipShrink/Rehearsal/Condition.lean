/-
# Conditions on instances

A condition is a question with a definite answer about an instance: is a row still there, how does
a number compare with another one, what is the value of a setting.  Conditions describe made-up
solvers, whose defect shows exactly on the instances that satisfy them.

Comparisons are exact, except that counting the coefficients that are not integral uses the
standard tolerances.
-/

import MipShrink.Instance

namespace MipShrink

/-- A way of comparing two numbers. -/
inductive Comparison where
  | less
  | atMost
  | equal
  | differs
  | above
  | atLeast
deriving DecidableEq, Repr

namespace Comparison

/-- The sign of a comparison. -/
def sign : Comparison → String
  | less => "<"
  | atMost => "<="
  | equal => "=="
  | differs => "!="
  | above => ">"
  | atLeast => ">="

/-- The comparison with a sign. -/
def ofSign? (s : String) : Option Comparison :=
  [less, atMost, equal, differs, above, atLeast].find? fun c => c.sign == s

/-- The sign of a comparison tells the comparison. -/
theorem ofSign?_sign (c : Comparison) : ofSign? c.sign = some c := by cases c <;> decide

/-- Does the comparison hold? -/
def holds {β : Type} [BEq β] [LE β] [DecidableLE β] [LT β] [DecidableLT β] (c : Comparison)
    (a b : β) : Bool :=
  match c with
  | less => decide (a < b)
  | atMost => decide (a ≤ b)
  | equal => a == b
  | differs => !(a == b)
  | above => decide (b < a)
  | atLeast => decide (b ≤ a)

end Comparison

/-- A list of numbers of a program. -/
inductive Quantity where
  | cost
  | lower
  | upper
  | lhs
  | rhs
deriving DecidableEq, Repr

namespace Quantity

/-- The name of a quantity. -/
def name : Quantity → String
  | cost => "obj"
  | lower => "lb"
  | upper => "ub"
  | lhs => "lhs"
  | rhs => "rhs"

/-- The quantity with a name. -/
def ofName? (s : String) : Option Quantity :=
  [cost, lower, upper, lhs, rhs].find? fun q => q.name == s

/-- The numbers as they are stored. -/
def values {α : Type} (q : Quantity) (p : Problem α) : List α :=
  match q with
  | cost => p.columns.map Column.cost
  | lower => p.columns.map Column.lower
  | upper => p.columns.map Column.upper
  | lhs => p.rows.map Row.lhs
  | rhs => p.rows.map Row.rhs

end Quantity

/-- One of the counts of a size. -/
inductive Extent where
  | rows
  | cols
  | nnz
  | nonintegral
deriving DecidableEq, Repr

namespace Extent

/-- The name of a count. -/
def name : Extent → String
  | rows => "rows"
  | cols => "cols"
  | nnz => "nnz"
  | nonintegral => "nonintegral"

/-- The count with a name. -/
def ofName? (s : String) : Option Extent :=
  [rows, cols, nnz, nonintegral].find? fun e => e.name == s

/-- The count in a size. -/
def of (e : Extent) (s : ProblemSize) : Nat :=
  match e with
  | rows => s.rows
  | cols => s.cols
  | nnz => s.nnz
  | nonintegral => s.nonintegral

end Extent

/-- A question about an instance. -/
inductive Condition (α : Type) where
  | constant (b : Bool)
  /-- The row exists and is not redundant. -/
  | row (i : Nat)
  /-- The coefficient is stored. -/
  | entry (i j : Nat)
  /-- The coefficient, or zero if it is not stored, compares with a number. -/
  | entryIs (i j : Nat) (c : Comparison) (x : α)
  /-- The number at a place exists and compares with another one. -/
  | valueIs (q : Quantity) (k : Nat) (c : Comparison) (x : α)
  | colFlag (j : Nat) (f : ColFlag)
  | rowFlag (i : Nat) (f : RowFlag)
  | extentIs (e : Extent) (c : Comparison) (n : Nat)
  /-- The first setting with the name has a value with the text. -/
  | settingIs (name text : String)
  | statusIs (word : String)
  | not (c : Condition α)
  | both (a b : Condition α)
  | either (a b : Condition α)
deriving Repr

namespace Condition

variable {α : Type} [Scalar α]

/-- Does the instance satisfy the condition? -/
def holds (i : Instance α) : Condition α → Bool
  | constant b => b
  | row k => i.problem.rowHas k fun r => !r.isRedundant
  | entry k j => (i.problem.matrix.coeff? k j).isSome
  | entryIs k j c x => c.holds ((i.problem.matrix.coeff? k j).getD 0) x
  | valueIs q k c x => (q.values i.problem)[k]?.any fun y => c.holds y x
  | colFlag j f => i.problem.columnHas j fun c => c.flags.has f
  | rowFlag k f => i.problem.rowHas k fun r => r.flags.has f
  | extentIs e c n => c.holds (e.of (i.problem.size Tolerance.standard)) n
  | settingIs name text => (i.settings.find? name).any fun v => v.text == text
  | statusIs word => i.solution.status.text == word
  | not c => !c.holds i
  | both a b => a.holds i && b.holds i
  | either a b => a.holds i || b.holds i

/-- All of the conditions. -/
def all (cs : List (Condition α)) : Condition α :=
  cs.foldr both (constant true)

/-- At least one of the conditions. -/
def any (cs : List (Condition α)) : Condition α :=
  cs.foldr either (constant false)

end Condition
end MipShrink
