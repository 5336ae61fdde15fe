/-
# Attributes of columns and rows

A column or a row carries a set of attributes.  The sets are records of truth values, one field for
each attribute, and are shown as the list of the attributes that hold, in the order in which they
are declared.
-/

namespace MipShrink

/-- The attributes of a column. -/
inductive ColFlag where
  /-- The lower bound is minus infinity. -/
  | lbInf
  /-- The upper bound is plus infinity. -/
  | ubInf
  | integral
  /-- Integral in every feasible solution without being declared so. -/
  | implInt
  /-- Removed, its value having moved into sides and objective. -/
  | fixed
  | inactive
deriving DecidableEq, Repr

/-- The attributes of a row. -/
inductive RowFlag where
  /-- The left-hand side is minus infinity. -/
  | lhsInf
  /-- The right-hand side is plus infinity. -/
  | rhsInf
  /-- Both sides are finite and equal. -/
  | equation
  /-- Ignored by every reduction and never written. -/
  | redundant
deriving DecidableEq, Repr

namespace ColFlag

/-- Every attribute of a column. -/
def all : List ColFlag := [lbInf, ubInf, integral, implInt, fixed, inactive]

/-- The name of an attribute, as it is shown. -/
def name : ColFlag → String
  | lbInf => "LbInf"
  | ubInf => "UbInf"
  | integral => "Integral"
  | implInt => "ImplInt"
  | fixed => "Fixed"
  | inactive => "Inactive"

/-- The attribute with a name. -/
def ofName? (s : String) : Option ColFlag :=
  all.find? fun f => f.name == s

/-- The list holds every attribute of a column. -/
theorem mem_all (f : ColFlag) : f ∈ all := by cases f <;> decide

/-- The name of an attribute of a column tells the attribute. -/
theorem ofName?_name (f : ColFlag) : ofName? f.name = some f := by cases f <;> decide

end ColFlag

namespace RowFlag

/-- Every attribute of a row. -/
def all : List RowFlag := [lhsInf, rhsInf, equation, redundant]

/-- The name of an attribute, as it is shown. -/
def name : RowFlag → String
  | lhsInf => "LhsInf"
  | rhsInf => "RhsInf"
  | equation => "Equation"
  | redundant => "Redundant"

/-- The attribute with a name. -/
def ofName? (s : String) : Option RowFlag :=
  all.find? fun f => f.name == s

/-- The list holds every attribute of a row. -/
theorem mem_all (f : RowFlag) : f ∈ all := by cases f <;> decide

/-- The name of an attribute of a row tells the attribute. -/
theorem ofName?_name (f : RowFlag) : ofName? f.name = some f := by cases f <;> decide

end RowFlag

/-- A set shown as its members between braces. -/
def braced (names : List String) : String :=
  "\x7b" ++ String.intercalate ", " names ++ "\x7d"

/-- A set of attributes of a column. -/
structure ColFlags where
  lbInf : Bool := false
  ubInf : Bool := false
  integral : Bool := false
  implInt : Bool := false
  fixed : Bool := false
  inactive : Bool := false
deriving DecidableEq, Repr, Inhabited

namespace ColFlags

/-- The set without members. -/
def empty : ColFlags := {}

/-- Does the attribute hold? -/
def has (s : ColFlags) : ColFlag → Bool
  | .lbInf => s.lbInf
  | .ubInf => s.ubInf
  | .integral => s.integral
  | .implInt => s.implInt
  | .fixed => s.fixed
  | .inactive => s.inactive

/-- The set in which `f` holds exactly if `b` does. -/
def assign (s : ColFlags) (f : ColFlag) (b : Bool) : ColFlags :=
  match f with
  | .lbInf => { s with lbInf := b }
  | .ubInf => { s with ubInf := b }
  | .integral => { s with integral := b }
  | .implInt => { s with implInt := b }
  | .fixed => { s with fixed := b }
  | .inactive => { s with inactive := b }

/-- Give an attribute. -/
def set (s : ColFlags) (f : ColFlag) : ColFlags := s.assign f true

/-- Take an attribute away. -/
def unset (s : ColFlags) (f : ColFlag) : ColFlags := s.assign f false

/-- Does any of the attributes hold? -/
def hasAny (s : ColFlags) (fs : List ColFlag) : Bool := fs.any s.has

/-- The attributes in a list. -/
def ofList (fs : List ColFlag) : ColFlags := fs.foldl set empty

/-- The attributes that hold, in order. -/
def toList (s : ColFlags) : List ColFlag := ColFlag.all.filter s.has

/-- Are there no attributes? -/
def isEmpty (s : ColFlags) : Bool := s.toList.isEmpty

/-- The names of the attributes in braces. -/
def text (s : ColFlags) : String := braced (s.toList.map ColFlag.name)

/-- Assigning an attribute leaves the others alone. -/
@[simp] theorem has_assign (s : ColFlags) (f g : ColFlag) (b : Bool) :
    (s.assign f b).has g = if g = f then b else s.has g := by
  cases f <;> cases g <;> rfl

/-- Attributes of a column are the same if they agree one by one. -/
theorem ext_has {s t : ColFlags} (h : ∀ f, s.has f = t.has f) : s = t := by
  cases s; cases t
  have := h .lbInf; have := h .ubInf; have := h .integral
  have := h .implInt; have := h .fixed; have := h .inactive
  simp_all [has]

/-- Only the empty attributes of a column count as empty. -/
theorem isEmpty_iff (s : ColFlags) : s.isEmpty = true ↔ s = empty := by
  rcases s with ⟨a, b, c, d, e, f⟩
  cases a <;> cases b <;> cases c <;> cases d <;> cases e <;> cases f <;> decide

end ColFlags

/-- A set of attributes of a row. -/
structure RowFlags where
  lhsInf : Bool := false
  rhsInf : Bool := false
  equation : Bool := false
  redundant : Bool := false
deriving DecidableEq, Repr, Inhabited

namespace RowFlags

/-- The set without members. -/
def empty : RowFlags := {}

/-- Does the attribute hold? -/
def has (s : RowFlags) : RowFlag → Bool
  | .lhsInf => s.lhsInf
  | .rhsInf => s.rhsInf
  | .equation => s.equation
  | .redundant => s.redundant

/-- The set in which `f` holds exactly if `b` does. -/
def assign (s : RowFlags) (f : RowFlag) (b : Bool) : RowFlags :=
  match f with
  | .lhsInf => { s with lhsInf := b }
  | .rhsInf => { s with rhsInf := b }
  | .equation => { s with equation := b }
  | .redundant => { s with redundant := b }

/-- Give an attribute. -/
def set (s : RowFlags) (f : RowFlag) : RowFlags := s.assign f true

/-- Take an attribute away. -/
def unset (s : RowFlags) (f : RowFlag) : RowFlags := s.assign f false

/-- Does any of the attributes hold? -/
def hasAny (s : RowFlags) (fs : List RowFlag) : Bool := fs.any s.has

/-- The attributes in a list. -/
def ofList (fs : List RowFlag) : RowFlags := fs.foldl set empty

/-- The attributes that hold, in order. -/
def toList (s : RowFlags) : List RowFlag := RowFlag.all.filter s.has

/-- Are there no attributes? -/
def isEmpty (s : RowFlags) : Bool := s.toList.isEmpty

/-- The names of the attributes in braces. -/
def text (s : RowFlags) : String := braced (s.toList.map RowFlag.name)

/-- Assigning an attribute leaves the others alone. -/
@[simp] theorem has_assign (s : RowFlags) (f g : RowFlag) (b : Bool) :
    (s.assign f b).has g = if g = f then b else s.has g := by
  cases f <;> cases g <;> rfl

/-- Only the empty attributes of a row count as empty. -/
theorem isEmpty_iff (s : RowFlags) : s.isEmpty = true ↔ s = empty := by
  rcases s with ⟨a, b, c, d⟩
  cases a <;> cases b <;> cases c <;> cases d <;> decide

end RowFlags
end MipShrink
