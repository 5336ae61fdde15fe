/-
# Numbers a problem is made of

A program computes either with machine numbers or with exact rationals.  `Scalar` collects what
both offer: arithmetic, order, rounding, and a text form.  They differ where machine numbers carry
a sign on zero and on what is no number: there `isPositive` and `isNegative` look at the sign, so
that `+0` is positive and `-0` is negative, while the rational zero is neither.

A rational is written `p` or `p/q`, and reads both forms of number: `p/q` as it stands, and a
decimal as the exact value of the nearest double.  Fractions are written as they are stored, and
what was read is in lowest terms.
-/

import MipShrink.Decimal.Fraction
import MipShrink.Decimal.Grammar
import MipShrink.Decimal.Layout
import MipShrink.Decimal.Real64

namespace MipShrink

/-- The numbers of a problem. -/
class Scalar (α : Type) extends Zero α, One α, Add α, Sub α, Mul α, Neg α, BEq α, LE α, LT α where
  decLe : DecidableLE α
  decLt : DecidableLT α
  /-- The largest integer not above. -/
  floor : α → α
  /-- The smallest integer not below. -/
  ceil : α → α
  /-- The nearest integer, half-way cases away from zero. -/
  round : α → α
  /-- The absolute value. -/
  abs : α → α
  isPositive : α → Bool
  isNegative : α → Bool
  /-- Is the magnitude, as a double, at least `10^20`?  Such bounds are read as infinite. -/
  isHuge : α → Bool
  /-- The exact value of a double, if there is one. -/
  ofBinary64 : Binary64 → Option α
  /-- Read a number, without blanks around it. -/
  parse : List Char → Option α
  /-- The text of a number. -/
  text : α → String

namespace Scalar

variable {α : Type} [Scalar α]

instance : DecidableLE α := decLe

instance : DecidableLT α := decLt

/-- Is the number zero, of whatever sign? -/
def isZero (a : α) : Bool :=
  a == 0

/-- The smaller of two numbers, the first one unless the second is below it. -/
def least (a b : α) : α :=
  if b < a then b else a

/-- The larger of two numbers, the first one unless the second is above it. -/
def greatest (a b : α) : α :=
  if a < b then b else a

/-- Read a number with any blanks around it. -/
def read (t : List Char) : Option α :=
  parse (Text.trim t)

end Scalar

instance instScalarReal64 : Scalar Real64 where
  decLe := Real64.decLe
  decLt := Real64.decLt
  floor := Real64.map Float.floor
  ceil := Real64.map Float.ceil
  round := Real64.map Float.round
  abs := Real64.abs
  isPositive x := !x.isNegative
  isNegative := Real64.isNegative
  isHuge
    | .number x => decide (1e20 ≤ x.abs)
    | .nan _ => false
  ofBinary64 b := some (Real64.ofBinary64 b)
  parse t := (Grammar.double? t).map Real64.ofBinary64
  text x := Layout.plain x.toBinary64

namespace Rational

/-- The nearest integer, half-way cases away from zero. -/
def round (a : Rat) : Rat :=
  if a < 0 then ((a - 1 / 2).ceil : Rat) else ((a + 1 / 2).floor : Rat)

/-- The text of a rational, `p` or `p/q` in lowest terms. -/
def text (a : Rat) : String :=
  let p := String.ofList (Layout.ofInt a.num)
  if a.den = 1 then p else p ++ "/" ++ String.ofList (Layout.digitsOf a.den)

/-- Read `p/q` as it stands and anything else as the exact value of a double. -/
def parse (t : List Char) : Option Rat :=
  if t.contains '/' then Grammar.quotient? t
  else (Grammar.double? t).bind Binary64.toRat?

/-- The smallest rational that rounds to the double `10^20`.  The doubles below that one are
`2^14` apart, so it is half a step below it. -/
def hugeEdge : Rat := 99999999999999991808

/-- The magnitude rounds to a double of `10^20` or more. -/
def isHuge (a : Rat) : Bool :=
  decide (hugeEdge ≤ a) || decide (a ≤ -hugeEdge)

end Rational

instance instScalarRat : Scalar Rat where
  zero := 0
  one := 1
  decLe := inferInstance
  decLt := inferInstance
  floor a := (a.floor : Rat)
  ceil a := (a.ceil : Rat)
  round := Rational.round
  abs a := if a < 0 then -a else a
  isPositive a := decide (0 < a)
  isNegative a := decide (a < 0)
  isHuge := Rational.isHuge
  ofBinary64 := Binary64.toRat?
  parse := Rational.parse
  text := Rational.text

namespace Fraction

/-- The text of a fraction, `p` over one and else `p/q`. -/
def text (a : Fraction) : String :=
  let p := String.ofList (Layout.ofInt a.numerator)
  if a.denominator = 1 then p else p ++ "/" ++ String.ofList (Layout.ofInt a.denominator)

/-- In lowest terms a fraction is written as its value. -/
theorem text_ofRat (x : Rat) : (ofRat x).text = Rational.text x := by
  have digits : Layout.ofInt x.den = Layout.digitsOf x.den := if_neg (by omega)
  by_cases one : x.den = 1
  · simp [text, ofRat, Rational.text, one]
  · have other : (x.den : Int) ≠ 1 := by omega
    simp [text, ofRat, Rational.text, digits, one, other]

end Fraction

instance instScalarFraction : Scalar Fraction where
  decLe := inferInstance
  decLt := inferInstance
  floor := Fraction.floor
  ceil := Fraction.ceil
  round := Fraction.round
  abs := Fraction.abs
  isPositive := Fraction.isPositive
  isNegative := Fraction.isNegative
  isHuge a := Rational.isHuge a.value
  ofBinary64 b := b.toRat?.map Fraction.ofRat
  parse t := (Rational.parse t).map Fraction.ofRat
  text := Fraction.text

end MipShrink
