/-
# Binary floating point numbers of 64 bits, taken apart

A finite double is `± m · 2^e` with `m < 2^53` and `-1074 ≤ e ≤ 971`; it is kept *normal*: `m` is
at least `2^52` unless `e = -1074`.  Everything here is exact integer arithmetic:

| function | result |
| --- | --- |
| `ofRatio` | the double nearest to a quotient, a tie going to the even mantissa |
| `ofDecimal` | the double nearest to `n · 10^k` |
| `ofBits`, `toBits` | the encoding in 64 bits |
| `toRat?` | the rational value of a finite double |

A magnitude that rounds to `2^1024` or more is infinite.
-/

namespace MipShrink

/-- A 64-bit floating point number: `finite s m e` is `m · 2^e`, negative when `s` holds.  What is
no number has a sign, too. -/
inductive Binary64 where
  | nan (negative : Bool)
  | infinite (negative : Bool)
  | finite (negative : Bool) (mantissa : Nat) (exponent : Int)
deriving DecidableEq, Repr, Inhabited

namespace Binary64

/-- The quotient rounded to the nearest integer, a tie going to the even one. -/
def roundDiv (num den : Nat) : Nat :=
  let q := num / den
  let r := num % den
  if den < 2 * r ∨ (2 * r = den ∧ q % 2 = 1) then q + 1 else q

/-- `n · 2^k`, where a negative `k` counts as zero. -/
def scaleUp (n : Nat) (k : Int) : Nat :=
  n * Nat.pow 2 k.toNat

/-- The weight of the last place of the doubles next to `num / den`. -/
def lastPlace (num den : Nat) : Int :=
  let guess : Int := (num.log2 : Int) - den.log2
  let top := if scaleUp den guess ≤ scaleUp num (-guess) then guess else guess - 1
  max (top - 52) (-1074)

/-- A mantissa of at most `2^53` in the weight `e`, made normal. -/
def ofRounded (negative : Bool) (m : Nat) (e : Int) : Binary64 :=
  if m = Nat.pow 2 53 then
    if 971 ≤ e then infinite negative else finite negative (Nat.pow 2 52) (e + 1)
  else if 971 < e then infinite negative
  else finite negative m e

/-- The double nearest to `num / den`, a tie going to the even mantissa. -/
def ofRatio (negative : Bool) (num den : Nat) : Binary64 :=
  if num = 0 then finite negative 0 (-1074)
  else
    let e := lastPlace num den
    ofRounded negative (roundDiv (scaleUp num (-e)) (scaleUp den e)) e

/-- The double nearest to `n · 10^k`.  Far outside of the range of the doubles the power of ten is
not computed: `n` lies between `10^(log₂ n / 4)` and `10^(log₂ n / 3 + 1)`. -/
def ofDecimal (negative : Bool) (n : Nat) (k : Int) : Binary64 :=
  if n = 0 then finite negative 0 (-1074)
  else if 400 < k + (n.log2 / 4 : Nat) then infinite negative
  else if k + (n.log2 / 3 : Nat) + 1 < -400 then finite negative 0 (-1074)
  else if 0 ≤ k then ofRatio negative (n * Nat.pow 10 k.toNat) 1
  else ofRatio negative n (Nat.pow 10 (-k).toNat)

/-- The double with the given encoding. -/
def ofBits (bits : UInt64) : Binary64 :=
  let n := bits.toNat
  let negative := decide (Nat.pow 2 63 ≤ n)
  let biased : Nat := n / Nat.pow 2 52 % Nat.pow 2 11
  let fraction : Nat := n % Nat.pow 2 52
  if biased = 2047 then
    if fraction = 0 then infinite negative else nan negative
  else if biased = 0 then finite negative fraction (-1074)
  else finite negative (fraction + Nat.pow 2 52) ((biased : Int) - 1075)

/-- The encoding of a normal double. -/
def toBits : Binary64 → UInt64
  | nan negative => UInt64.ofNat (signBit negative + 0x7ff8000000000000)
  | infinite negative => UInt64.ofNat (signBit negative + 2047 * Nat.pow 2 52)
  | finite negative m e =>
    if m < Nat.pow 2 52 then UInt64.ofNat (signBit negative + m)
    else UInt64.ofNat (signBit negative + (e + 1075).toNat * Nat.pow 2 52 + (m - Nat.pow 2 52))
where
  /-- The sign in the highest bit. -/
  signBit (negative : Bool) : Nat :=
    if negative then Nat.pow 2 63 else 0

/-- The decoded form of a machine number; what is no number loses its sign. -/
def ofFloat (x : Float) : Binary64 :=
  ofBits x.toBits

/-- The machine number with this value; what is no number loses its sign. -/
def toFloat (x : Binary64) : Float :=
  Float.ofBits x.toBits

/-- The magnitude of a double. -/
def magnitude : Binary64 → Binary64
  | nan _ => nan false
  | infinite _ => infinite false
  | finite _ m e => finite false m e

/-- The sign of a double. -/
def isNegative : Binary64 → Bool
  | nan negative => negative
  | infinite negative => negative
  | finite negative _ _ => negative

/-- The exact value of a finite double. -/
def toRat? : Binary64 → Option Rat
  | finite negative m e =>
    let size : Rat := mkRat (scaleUp m e) (scaleUp 1 (-e))
    some (if negative then -size else size)
  | _ => none

end Binary64
end MipShrink
