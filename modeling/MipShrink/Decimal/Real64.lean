/-
# Machine numbers

The doubles as a program computes with them.  `Float` has a single value that is no number, while
in a machine that value has a sign, by which the signs of bounds and ranges are told; here it is a
constructor of its own.

| operation | sign of a result that is no number |
| --- | --- |
| on operands of which one is no number | the sign of the first such operand |
| on numbers, as `inf - inf` or `0 · inf` | negative |
| negation | the other sign |
| absolute value | positive |
| rounding | the same sign |

What is no number is neither equal to, nor below, nor above anything, itself included.
-/

import MipShrink.Decimal.Binary64

namespace MipShrink

/-- A machine number, or something that is no number. -/
inductive Real64 where
  | number (x : Float)
  | nan (negative : Bool)
deriving Repr, Inhabited

namespace Real64

/-- The result of an operation on numbers. -/
def ofFloat (x : Float) : Real64 :=
  if x.isNaN then nan true else number x

/-- The number without the sign of what is none. -/
def toFloat : Real64 → Float
  | number x => x
  | nan negative => (Binary64.nan negative).toFloat

/-- The double as a machine number. -/
def ofBinary64 : Binary64 → Real64
  | .nan negative => nan negative
  | b => number b.toFloat

/-- The decoded form of a machine number. -/
def toBinary64 : Real64 → Binary64
  | number x => Binary64.ofFloat x
  | nan negative => .nan negative

/-- An operation on two machine numbers. -/
def combine (f : Float → Float → Float) : Real64 → Real64 → Real64
  | nan negative, _ => nan negative
  | number _, nan negative => nan negative
  | number x, number y => ofFloat (f x y)

/-- An operation that keeps the sign of what is no number. -/
def map (f : Float → Float) : Real64 → Real64
  | number x => ofFloat (f x)
  | nan negative => nan negative

/-- The negated number; what is no number turns its sign. -/
def neg : Real64 → Real64
  | number x => number (-x)
  | nan negative => nan !negative

/-- The magnitude; what is no number loses its sign. -/
def abs : Real64 → Real64
  | number x => number x.abs
  | nan _ => nan false

instance : Zero Real64 := ⟨number 0⟩

instance : One Real64 := ⟨number 1⟩

instance : Add Real64 := ⟨combine (· + ·)⟩

instance : Sub Real64 := ⟨combine (· - ·)⟩

instance : Mul Real64 := ⟨combine (· * ·)⟩

instance : Neg Real64 := ⟨neg⟩

instance : BEq Real64 where
  beq
    | number x, number y => x == y
    | _, _ => false

instance : LE Real64 where
  le
    | number x, number y => x ≤ y
    | _, _ => False

instance : LT Real64 where
  lt
    | number x, number y => x < y
    | _, _ => False

instance decLe : DecidableLE Real64
  | number x, number y => inferInstanceAs (Decidable (x ≤ y))
  | number _, nan _ => .isFalse id
  | nan _, number _ => .isFalse id
  | nan _, nan _ => .isFalse id

instance decLt : DecidableLT Real64
  | number x, number y => inferInstanceAs (Decidable (x < y))
  | number _, nan _ => .isFalse id
  | nan _, number _ => .isFalse id
  | nan _, nan _ => .isFalse id

/-- The sign. -/
def isNegative (x : Real64) : Bool :=
  x.toBinary64.isNegative

/-- What is no number differs from itself. -/
theorem nan_beq (negative : Bool) (x : Real64) : (nan negative == x) = false := rfl

/-- The sign of what is no number turns when it is negated. -/
theorem isNegative_neg_nan (negative : Bool) : (-nan negative).isNegative = !negative := rfl

/-- The first operand that is no number gives its sign to a sum. -/
theorem nan_add (negative : Bool) (x : Real64) : nan negative + x = nan negative := rfl

end Real64
end MipShrink
