/-
# Named parameters

A registry holds parameters by name, each with a type, a value and the bounds of its values.  The
type never changes.  A value is set from a text: a text that does not read as the type, or reads
as a number out of the bounds, leaves the registry as it is.  Bounds are doubles whatever the type
of the parameter, and a number is compared with them as a double.

In a parameter file the lines that cannot be used are passed over; among the arguments of a command
the first one that cannot be used is an error, and those before it have taken effect.
-/

import MipShrink.Decimal.Grammar
import MipShrink.Error
import MipShrink.Keyed
import MipShrink.Settings.Basic

namespace MipShrink

/-- The value of a parameter. -/
inductive ParamValue where
  | bool (b : Bool)
  | int (n : Int)
  | long (n : Int)
  | double (x : Float)
  | string (s : String)
deriving BEq, Repr

namespace ParamValue

/-- The name of the type of the value. -/
def typeName : ParamValue → String
  | bool _ => "bool"
  | int _ => "int"
  | long _ => "long"
  | double _ => "double"
  | string _ => "string"

/-- The text of a machine number: the shortest digits that read back, without exponent. -/
def doubleText (x : Float) : String :=
  Layout.plain (Binary64.ofFloat x)

/-- The text of a value. -/
def text : ParamValue → String
  | bool b => if b then "true" else "false"
  | int n => SettingValue.intText n
  | long n => SettingValue.intText n
  | double x => doubleText x
  | string s => "\"" ++ s ++ "\""

/-- The double nearest to an integer. -/
def doubleOf (n : Int) : Float :=
  (Binary64.ofDecimal (decide (n < 0)) n.natAbs 0).toFloat

/-- The value as a double, if it is a number. -/
def number? : ParamValue → Option Float
  | int n => some (doubleOf n)
  | long n => some (doubleOf n)
  | double x => some x
  | _ => none

/-- A truth value: `true`, `false`, `1` or `0`, in any case of the letters. -/
def readBool (t : List Char) : Option Bool :=
  let low := Text.lowerAscii t
  if low = "true".toList ∨ low = "1".toList then some true
  else if low = "false".toList ∨ low = "0".toList then some false
  else none

/-- The value of the type of `old` that a text writes. -/
def readLike (old : ParamValue) (t : List Char) : Except ParameterFault ParamValue :=
  let unreadable := fun type => ParameterFault.unreadable (String.ofList t) type
  match old with
  | bool _ =>
    match readBool t with
    | some b => .ok (bool b)
    | none => .error (unreadable "a boolean")
  | int _ =>
    match Grammar.word? 32 t with
    | some n => .ok (int n)
    | none => .error (unreadable "an int")
  | long _ =>
    match Grammar.word? 64 t with
    | some n => .ok (long n)
    | none => .error (unreadable "a long")
  | double _ =>
    match Grammar.double? t with
    | some x => .ok (double x.toFloat)
    | none => .error (unreadable "a double")
  | string _ => .ok (string (String.ofList (Text.trimWhile (· == '"') t)))

end ParamValue

/-- A parameter: what it means, its value and the bounds of its values. -/
structure Parameter where
  description : String
  value : ParamValue
  low : Float
  high : Float
deriving Repr

namespace Parameter

/-- The value lies out of the bounds, if it is a number. -/
def rejects (p : Parameter) (v : ParamValue) : Bool :=
  v.number?.any fun x => decide (x < p.low) || decide (p.high < x)

/-- The parameter with the value that a text writes. -/
def assign (p : Parameter) (text : List Char) : Except ParameterFault Parameter :=
  let t := Text.trim text
  match p.value.readLike t with
  | .error fault => .error fault
  | .ok v =>
    if p.rejects v then
      .error (.outside (String.ofList t) (ParamValue.doubleText p.low)
        (ParamValue.doubleText p.high))
    else .ok { p with value := v }

end Parameter

/-- Parameters in the order of their names. -/
structure ParameterSet where
  params : List (String × Parameter)
deriving Repr

namespace ParameterSet

/-- No parameters. -/
def empty : ParameterSet := { params := [] }

/-- The parameter with a name. -/
def find? (s : ParameterSet) (name : String) : Option Parameter :=
  s.params.lookup name

/-- Is there a parameter with the name? -/
def contains (s : ParameterSet) (name : String) : Bool :=
  (s.find? name).isSome

/-- The value of a parameter. -/
def get? (s : ParameterSet) (name : String) : Option ParamValue :=
  (s.find? name).map Parameter.value

/-- The set in which the name stands for the given parameter. -/
def insert (name : String) (p : Parameter) (s : ParameterSet) : ParameterSet :=
  { params := Keyed.put Keyed.nameBefore name p s.params }

/-- Add a new parameter; a name can be registered only once. -/
def register? (name : String) (p : Parameter) (s : ParameterSet) : Option ParameterSet :=
  if s.contains name then none else some (s.insert name p)

/-- A truth value. -/
def boolParam (description : String) (b : Bool) : Parameter :=
  { description := description, value := .bool b, low := 0, high := 1 }

/-- An integer of 32 bits. -/
def intParam (description : String) (n low high : Int) : Parameter :=
  { description := description, value := .int n
    low := ParamValue.doubleOf low, high := ParamValue.doubleOf high }

/-- An integer of 64 bits. -/
def longParam (description : String) (n low high : Int) : Parameter :=
  { description := description, value := .long n
    low := ParamValue.doubleOf low, high := ParamValue.doubleOf high }

/-- A double. -/
def doubleParam (description : String) (x low high : Float) : Parameter :=
  { description := description, value := .double x, low := low, high := high }

/-- The double infinity. -/
def infinity : Float := (Binary64.infinite false).toFloat

/-- A string. -/
def stringParam (description s : String) : Parameter :=
  { description := description, value := .string s, low := -infinity, high := infinity }

/-- Set a parameter from a text. -/
def setText (name : String) (text : List Char) (s : ParameterSet) : Except Error ParameterSet :=
  match s.find? name with
  | none => .error (.parameter name .unknown)
  | some p =>
    match p.assign text with
    | .error fault => .error (.parameter name fault)
    | .ok p => .ok (s.insert name p)

/-- Use a line `key = value`; what follows a `#` is a comment, and a line that cannot be used is
passed over. -/
def useLine (s : ParameterSet) (line : List Char) : ParameterSet :=
  let line := Text.trim (line.takeWhile (· != '#'))
  match Text.splitFirst '=' line with
  | none => s
  | some (key, value) =>
    match s.setText (String.ofList (Text.trim key)) value with
    | .ok s => s
    | .error _ => s

/-- Use the lines of a parameter file. -/
def useText (s : ParameterSet) (text : String) : ParameterSet :=
  (Text.linesOf text).foldl useLine s

/-- The key and the value of an argument `--key=value`. -/
def splitOverride? (arg : String) : Option (List Char × List Char) :=
  (Text.afterStart ['-', '-'] arg.toList).bind (Text.splitFirst '=')

/-- Use an argument `--key=value`. -/
def useOverride (s : ParameterSet) (arg : String) : Except Error ParameterSet :=
  match splitOverride? arg with
  | none => .error (.parameter arg .overrideShape)
  | some (key, value) => s.setText (String.ofList key) value

/-- Use arguments up to the first one that cannot be used; what became of the set, and the error if
there was one. -/
def useOverrides : List String → ParameterSet → ParameterSet × Option Error
  | [], s => (s, none)
  | arg :: rest, s =>
    match s.useOverride arg with
    | .ok s => useOverrides rest s
    | .error e => (s, some e)

/-- The value of a registered parameter. -/
def get (s : ParameterSet) (name : String) : Except Error ParamValue :=
  match s.get? name with
  | some v => .ok v
  | none => .error (.parameter name .notRegistered)

/-- The truth value of a parameter. -/
def getBool (s : ParameterSet) (name : String) : Except Error Bool := do
  match ← s.get name with
  | .bool b => return b
  | _ => throw (.parameter name (.notA "a boolean"))

/-- The integer of 32 bits of a parameter. -/
def getInt (s : ParameterSet) (name : String) : Except Error Int := do
  match ← s.get name with
  | .int n => return n
  | _ => throw (.parameter name (.notA "an int"))

/-- The integer of 64 bits of a parameter. -/
def getLong (s : ParameterSet) (name : String) : Except Error Int := do
  match ← s.get name with
  | .long n => return n
  | _ => throw (.parameter name (.notA "a long"))

/-- The double of a parameter. -/
def getDouble (s : ParameterSet) (name : String) : Except Error Float := do
  match ← s.get name with
  | .double x => return x
  | _ => throw (.parameter name (.notA "a double"))

/-- The text of a parameter. -/
def getString (s : ParameterSet) (name : String) : Except Error String := do
  match ← s.get name with
  | .string t => return t
  | _ => throw (.parameter name (.notA "a string"))

/-- A line for each parameter: its name, its value and what it means. -/
def describe (s : ParameterSet) : String :=
  Text.unlines (s.params.map fun e =>
    Text.padRight 24 e.1 ++ " " ++ Text.padRight 12 e.2.value.text ++ " " ++ e.2.description)

end ParameterSet
end MipShrink
