/-
# The nine reduction modules

Each module looks at one kind of element of an instance and knows one way of simplifying it.  The
order of `all` is the order in which a run tries them.
-/

namespace MipShrink

/-- The reduction modules. -/
inductive ModuleKind where
  /-- Drops rows. -/
  | constraint
  /-- Collapses the domains of columns. -/
  | collapse
  /-- Removes objective terms. -/
  | objective
  /-- Turns rows into equations. -/
  | side
  /-- Takes out columns with a single value. -/
  | fixing
  /-- Takes out single coefficients. -/
  | coefficient
  /-- Rounds columns. -/
  | varround
  /-- Rounds rows. -/
  | consround
  /-- Moves settings towards a target. -/
  | setting
deriving DecidableEq, Repr

namespace ModuleKind

/-- All modules, in the order of a run. -/
def all : List ModuleKind :=
  [constraint, collapse, objective, side, fixing, coefficient, varround, consround, setting]

/-- The name of a module. -/
def name : ModuleKind → String
  | constraint => "constraint"
  | collapse => "variable"
  | objective => "objective"
  | side => "side"
  | fixing => "fixing"
  | coefficient => "coefficient"
  | varround => "varround"
  | consround => "consround"
  | setting => "setting"

/-- The module with a name. -/
def ofName? (s : String) : Option ModuleKind :=
  all.find? fun k => k.name == s

/-- The list holds all nine modules. -/
theorem mem_all (k : ModuleKind) : k ∈ all := by cases k <;> decide

/-- The name of a module tells the module. -/
theorem ofName?_name (k : ModuleKind) : ofName? k.name = some k := by cases k <;> decide

end ModuleKind
end MipShrink
