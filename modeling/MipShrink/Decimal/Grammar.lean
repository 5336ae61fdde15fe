/-
# Reading numbers

A *decimal* is an optional sign followed by digits with at most one point among or beside them, at
least one digit, and an optional exponent; the words `inf`, `infinity` and `nan` are decimals in
any case of their letters.  Its value is the nearest double.  An *integer* is an optional sign and
at least one digit.  A *big integer* may in addition hold low lines after its first digit.  Digits
are the ten ASCII digits.
-/

import MipShrink.Decimal.Binary64
import MipShrink.Text.Lines

namespace MipShrink
namespace Grammar

/-- The value of a digit. -/
def digitValue (c : Char) : Nat :=
  c.toNat - 48

/-- The number that a list of digits writes. -/
def natOf (ds : List Char) : Nat :=
  ds.foldl (fun n c => 10 * n + digitValue c) 0

/-- A text without its sign, and whether the sign was a minus. -/
def splitSign : List Char → Bool × List Char
  | '-' :: rest => (true, rest)
  | '+' :: rest => (false, rest)
  | t => (false, t)

/-- At least one digit and nothing else. -/
def nat? (t : List Char) : Option Nat :=
  if !t.isEmpty && t.all Char.isDigit then some (natOf t) else none

/-- An optional sign and at least one digit. -/
def int? (t : List Char) : Option Int :=
  let s := splitSign t
  (nat? s.2).map fun n => if s.1 then -(n : Int) else n

/-- An integer of `bits` bits in two's complement. -/
def word? (bits : Nat) (t : List Char) : Option Int :=
  (int? t).filter fun n =>
    let half : Int := Nat.pow 2 (bits - 1)
    decide (-half ≤ n) && decide (n < half)

/-- The exponent that follows the digits: nothing, or a mark and an integer. -/
def exponent? : List Char → Option Int
  | [] => some 0
  | c :: rest => if c = 'e' ∨ c = 'E' then int? rest else none

/-- A decimal without sign: the digits before and after the point, and the exponent. -/
def unsigned? (negative : Bool) (t : List Char) : Option Binary64 :=
  let whole := t.takeWhile Char.isDigit
  let rest := t.dropWhile Char.isDigit
  let tail : List Char × List Char :=
    match rest with
    | '.' :: more => (more.takeWhile Char.isDigit, more.dropWhile Char.isDigit)
    | _ => ([], rest)
  if whole.isEmpty && tail.1.isEmpty then none
  else
    (exponent? tail.2).map fun k =>
      Binary64.ofDecimal negative (natOf (whole ++ tail.1)) (k - tail.1.length)

/-- The double that a decimal writes. -/
def double? (t : List Char) : Option Binary64 :=
  let s := splitSign t
  let low := Text.lowerAscii s.2
  if low = "nan".toList then some (.nan s.1)
  else if low = "inf".toList ∨ low = "infinity".toList then some (.infinite s.1)
  else unsigned? s.1 s.2

/-- A natural number with low lines allowed after its first digit. -/
def bigNat? : List Char → Option Nat
  | [] => none
  | c :: rest =>
    if c.isDigit && rest.all (fun x => x.isDigit || x == '_') then
      some (natOf (c :: rest.filter Char.isDigit))
    else none

/-- An integer with low lines allowed after its first digit. -/
def bigInt? : List Char → Option Int
  | '-' :: rest => (bigNat? rest).map fun n => -(n : Int)
  | '+' :: rest => (bigNat? rest).map fun n => (n : Int)
  | t => (bigNat? t).map fun n => (n : Int)

/-- A quotient of two big integers, cut at the first slash, with a denominator other than zero. -/
def quotient? (t : List Char) : Option Rat :=
  match Text.splitFirst '/' t with
  | none => none
  | some (a, b) =>
    match bigInt? a, bigInt? b with
    | some n, some d => if d = 0 then none else some (n / d)
    | _, _ => none

end Grammar
end MipShrink
