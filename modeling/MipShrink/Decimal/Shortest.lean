/-
# The shortest decimal that reads back

Every real number in the *reading interval* of a double rounds to it: the half-way points to its
two neighbours bound the interval, and belong to it when the mantissa is even.  The shortest
decimal of the double is the multiple `c · 10^p` in the interval with the largest possible `p`; of
two such multiples the nearer one is taken, and of two equally near ones the larger.

On each grid only the two neighbours of the value are tried: if any point of the grid lies in the
interval, one of these does.
-/

import MipShrink.Decimal.Binary64

namespace MipShrink
namespace Shortest

/-- The reading interval of a positive double in a common denominator: the value is `mid / den`. -/
structure Interval where
  low : Nat
  mid : Nat
  high : Nat
  den : Nat
  closed : Bool
deriving Repr, DecidableEq

/-- The reading interval of `m · 2^e`.  Below a power of two the doubles are twice as dense. -/
def interval (m : Nat) (e : Int) : Interval :=
  let up := fun n => Binary64.scaleUp n (e - 2)
  let low := if m = Nat.pow 2 52 ∧ -1074 < e then 4 * m - 1 else 4 * m - 2
  { low := up low, mid := up (4 * m), high := up (4 * m + 2)
    den := Binary64.scaleUp 1 (2 - e), closed := m % 2 == 0 }

/-- Is `c · 10^p` in the interval? -/
def Interval.holds (i : Interval) (c : Nat) (p : Int) : Bool :=
  let x := c * i.den * Nat.pow 10 p.toNat
  let ten := Nat.pow 10 (-p).toNat
  if i.closed then decide (i.low * ten ≤ x) && decide (x ≤ i.high * ten)
  else decide (i.low * ten < x) && decide (x < i.high * ten)

/-- The multiple of `10^p` that stands for the interval, if one lies in it. -/
def Interval.onGrid (i : Interval) (p : Int) : Option Nat :=
  let unit := i.den * Nat.pow 10 p.toNat
  let value := i.mid * Nat.pow 10 (-p).toNat
  let c := value / unit
  match i.holds c p, i.holds (c + 1) p with
  | true, true => some (if 2 * (value % unit) < unit then c else c + 1)
  | true, false => some c
  | false, true => some (c + 1)
  | false, false => none

/-- The first grid with a hit, going down from `10^p` at most `fuel` steps. -/
def Interval.search (i : Interval) : Nat → Int → Nat × Int
  | 0, p => (0, p)
  | fuel + 1, p =>
    match i.onGrid p with
    | some c => (c, p)
    | none => i.search fuel (p - 1)

/-- A power of ten above the positive double `m · 2^e`: the exponent is at least its logarithm. -/
def topPower (m : Nat) (e : Int) : Int :=
  (((m.log2 : Int) + e + 1) * 30103).fdiv 100000 + 2

/-- The shortest decimal `c · 10^p` of the positive double `m · 2^e`, as the pair of `c` and `p`.
Seventeen digits always suffice, so the search ends within the fuel. -/
def digits (m : Nat) (e : Int) : Nat × Int :=
  (interval m e).search 40 (topPower m e)

end Shortest
end MipShrink
