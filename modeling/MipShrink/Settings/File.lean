/-
# Settings as a text

A settings file has lines `name = value`.  The kind of a value is read from its shape:

| value | kind |
| --- | --- |
| `TRUE`, `true`, `FALSE`, `false` | truth value |
| `"text"` | string |
| `'c'` | character |
| an integer of 64 bits | limit under `limits/`, else integer if it fits in 32 bits, else long |
| any other number | double |

What follows a `#` outside of double quotes is a comment.
-/

import MipShrink.Decimal.Grammar
import MipShrink.Error
import MipShrink.Settings.Basic

namespace MipShrink
namespace Settings

/-- The kind of an integer value of a setting. -/
def ofInt (name : List Char) (n : Int) : SettingValue :=
  if "limits/".toList.isPrefixOf name then .limit n
  else if -2147483648 ≤ n ∧ n ≤ 2147483647 then .int n
  else .long n

/-- The number that a value writes, if it does. -/
def readNumber (name value : List Char) : Option SettingValue :=
  match Grammar.word? 64 value with
  | some n => some (ofInt name n)
  | none => (Grammar.double? value).map fun b => .double b.toFloat

/-- The value of the setting with the given name. -/
def readValue (name value : List Char) : Option SettingValue :=
  let v := Text.trim value
  if v = "TRUE".toList ∨ v = "true".toList then some (.bool true)
  else if v = "FALSE".toList ∨ v = "false".toList then some (.bool false)
  else
    match Text.unquote '"' v with
    | some s => some (.string (String.ofList s))
    | none =>
      match Text.unquote '\'' v with
      | some [c] => some (.char c)
      | some _ => none
      | none => readNumber name v

/-- The setting on a line, if there is one. -/
def readLine (line : List Char) : Except ParseFault (Option (String × SettingValue)) :=
  let line := Text.trim (Text.stripComment false line)
  if line.isEmpty then .ok none
  else
    match Text.splitFirst '=' line with
    | none => .error .settingShape
    | some (name, value) =>
      let name := Text.trim name
      match readValue name value with
      | some v => .ok (some (String.ofList name, v))
      | none => .error (.settingValue (String.ofList name))

/-- Read lines, the first one having the given number, and add their settings. -/
def readLines (path : String) : Nat → List (List Char) → Settings → Except Error Settings
  | _, [], s => .ok s
  | number, line :: rest, s =>
    match readLine line with
    | .error fault => .error (.parse path number fault)
    | .ok none => readLines path (number + 1) rest s
    | .ok (some (name, v)) => readLines path (number + 1) rest (s.push name v)

/-- The settings that a text describes. -/
def ofText (path text : String) : Except Error Settings :=
  readLines path 1 (Text.linesOf text) empty

/-- The line of a setting. -/
def lineOf (e : String × SettingValue) : String :=
  e.1 ++ " = " ++ e.2.text

/-- The settings as a text. -/
def toText (s : Settings) : String :=
  Text.unlines (s.toList.map lineOf)

end Settings
end MipShrink
