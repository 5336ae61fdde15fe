/-
# Settings of a solver

A setting is a name with a value of one of seven kinds.  The settings of each kind form a list in
the order in which they were added; this order, and not the name, pairs them with the settings of
another solver run.
-/

import MipShrink.Decimal.Layout

namespace MipShrink

/-- The kinds of settings. -/
inductive SettingKind where
  | bool
  | int
  | long
  | double
  | char
  | string
  /-- A limit on a resource of the solver. -/
  | limit
deriving DecidableEq, Repr

/-- The value of a setting. -/
inductive SettingValue where
  | bool (b : Bool)
  | int (n : Int)
  | long (n : Int)
  | double (x : Float)
  | char (c : Char)
  | string (s : String)
  | limit (n : Int)
deriving BEq, Repr

namespace SettingKind

/-- All kinds, in the order in which settings are listed. -/
def all : List SettingKind := [bool, int, long, double, char, string, limit]

/-- The name of a kind. -/
def name : SettingKind → String
  | bool => "Bool"
  | int => "Int"
  | long => "Long"
  | double => "Double"
  | char => "Char"
  | string => "String"
  | limit => "Limit"

/-- The kind with a name. -/
def ofName? (s : String) : Option SettingKind :=
  all.find? fun k => k.name == s

/-- The list holds every kind of setting. -/
theorem mem_all (k : SettingKind) : k ∈ all := by cases k <;> decide

/-- The name of a kind tells the kind. -/
theorem ofName?_name (k : SettingKind) : ofName? k.name = some k := by cases k <;> decide

end SettingKind

namespace SettingValue

/-- The kind of a value. -/
def kind : SettingValue → SettingKind
  | bool _ => .bool
  | int _ => .int
  | long _ => .long
  | double _ => .double
  | char _ => .char
  | string _ => .string
  | limit _ => .limit

/-- An integer as a text. -/
def intText (n : Int) : String :=
  String.ofList (Layout.ofInt n)

/-- The text of a value. -/
def text : SettingValue → String
  | bool b => if b then "TRUE" else "FALSE"
  | int n => intText n
  | long n => intText n
  | double x => Layout.pointed (Binary64.ofFloat x)
  | char c => String.ofList ['\'', c, '\'']
  | string s => "\"" ++ s ++ "\""
  | limit n => intText n

end SettingValue

/-- The settings of a solver, kind by kind. -/
structure Settings where
  bools : List (String × Bool) := []
  ints : List (String × Int) := []
  longs : List (String × Int) := []
  doubles : List (String × Float) := []
  chars : List (String × Char) := []
  strings : List (String × String) := []
  limits : List (String × Int) := []
deriving BEq, DecidableEq, Repr, Inhabited

namespace Settings

/-- No settings. -/
def empty : Settings := {}

/-- The settings of one kind, in order. -/
def list (s : Settings) : SettingKind → List (String × SettingValue)
  | .bool => s.bools.map fun e => (e.1, .bool e.2)
  | .int => s.ints.map fun e => (e.1, .int e.2)
  | .long => s.longs.map fun e => (e.1, .long e.2)
  | .double => s.doubles.map fun e => (e.1, .double e.2)
  | .char => s.chars.map fun e => (e.1, .char e.2)
  | .string => s.strings.map fun e => (e.1, .string e.2)
  | .limit => s.limits.map fun e => (e.1, .limit e.2)

/-- The number of settings of a kind. -/
def count (s : Settings) (k : SettingKind) : Nat := (s.list k).length

/-- All settings, kind by kind. -/
def toList (s : Settings) : List (String × SettingValue) :=
  SettingKind.all.flatMap s.list

/-- The number of settings. -/
def size (s : Settings) : Nat := s.toList.length

/-- Are there no settings? -/
def isEmpty (s : Settings) : Bool := s.toList.isEmpty

/-- The setting of a kind with the given place in its list. -/
def get? (s : Settings) (k : SettingKind) (i : Nat) : Option (String × SettingValue) :=
  (s.list k)[i]?

/-- The value of the first setting with the given name. -/
def find? (s : Settings) (name : String) : Option SettingValue :=
  s.toList.lookup name

/-- The settings with another one at the end of the list of its kind. -/
def push (name : String) (v : SettingValue) (s : Settings) : Settings :=
  match v with
  | .bool b => { s with bools := s.bools ++ [(name, b)] }
  | .int n => { s with ints := s.ints ++ [(name, n)] }
  | .long n => { s with longs := s.longs ++ [(name, n)] }
  | .double x => { s with doubles := s.doubles ++ [(name, x)] }
  | .char c => { s with chars := s.chars ++ [(name, c)] }
  | .string t => { s with strings := s.strings ++ [(name, t)] }
  | .limit n => { s with limits := s.limits ++ [(name, n)] }

/-- A list of named values in which the one at place `i` has a new value. -/
def assign {β : Type} (i : Nat) (x : β) (l : List (String × β)) : List (String × β) :=
  l.modify i fun e => (e.1, x)

/-- The settings in which the one at place `i` of the list of the kind has a new value; nothing
happens beyond the end of the list. -/
def set (i : Nat) (v : SettingValue) (s : Settings) : Settings :=
  match v with
  | .bool b => { s with bools := assign i b s.bools }
  | .int n => { s with ints := assign i n s.ints }
  | .long n => { s with longs := assign i n s.longs }
  | .double x => { s with doubles := assign i x s.doubles }
  | .char c => { s with chars := assign i c s.chars }
  | .string t => { s with strings := assign i t s.strings }
  | .limit n => { s with limits := assign i n s.limits }

/-- A setting that is added comes last among those of its kind. -/
theorem get?_push_self (name : String) (v : SettingValue) (s : Settings) :
    (s.push name v).get? v.kind (s.count v.kind) = some (name, v) := by
  cases v <;> simp [push, get?, count, list, SettingValue.kind]

/-- Giving a setting another value keeps the number of settings. -/
theorem count_set (i : Nat) (v : SettingValue) (s : Settings) (k : SettingKind) :
    (s.set i v).count k = s.count k := by
  cases v <;> cases k <;> simp [set, count, list, assign]

end Settings
end MipShrink
