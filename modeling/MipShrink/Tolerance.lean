/-
# Comparisons up to a tolerance

Three tolerances are in use, each with its own purpose:

| tolerance | decides |
| --- | --- |
| `epsilon` | whether two numbers are the same |
| `feasibility` | whether a point satisfies a bound or a side |
| `admissibility` | whether an element is worth changing |

Every comparison of this module takes the tolerance as its first argument.  `floor` and `ceil` are
the roundings that do not jump for values within the tolerance of an integer.
-/

import MipShrink.Scalar

namespace MipShrink

/-- The tolerances of a reduction. -/
structure Tolerance (α : Type) where
  epsilon : α
  feasibility : α
  admissibility : α

namespace Tolerance

variable {α : Type} [Scalar α]

/-- Tolerances from doubles: the exact magnitudes, or zero where a double has no exact value. -/
def ofDoubles (epsilon feasibility admissibility : Binary64) : Tolerance α :=
  { epsilon := magnitude epsilon
    feasibility := magnitude feasibility
    admissibility := magnitude admissibility }
where
  /-- The absolute value of a double. -/
  magnitude (x : Binary64) : α :=
    (Scalar.ofBinary64 x.magnitude).getD 0

/-- The usual tolerances: `10⁻⁹`, `10⁻⁶` and `10⁻⁴`. -/
def standard : Tolerance α :=
  ofDoubles (Binary64.ofDecimal false 1 (-9)) (Binary64.ofDecimal false 1 (-6))
    (Binary64.ofDecimal false 1 (-4))

end Tolerance

namespace Within

variable {α : Type} [Scalar α]

/-- `a` and `b` differ by at most the tolerance. -/
def same (tol a b : α) : Bool :=
  decide (Scalar.abs (a - b) ≤ tol)

/-- `a` is at most the tolerance away from zero. -/
def vanishes (tol a : α) : Bool :=
  decide (Scalar.abs a ≤ tol)

/-- `a` is at least `b` less the tolerance. -/
def atLeast (tol a b : α) : Bool :=
  decide (-tol ≤ a - b)

/-- `a` is at most `b` plus the tolerance. -/
def atMost (tol a b : α) : Bool :=
  decide (a - b ≤ tol)

/-- `a` exceeds `b` by more than the tolerance. -/
def above (tol a b : α) : Bool :=
  decide (tol < a - b)

/-- `a` stays below `b` by more than the tolerance. -/
def below (tol a b : α) : Bool :=
  decide (a - b < -tol)

/-- `a` is within the tolerance of the nearest integer. -/
def integral (tol a : α) : Bool :=
  same tol a (Scalar.round a)

/-- The largest integer that is at most `a` plus the tolerance. -/
def floor (tol a : α) : α :=
  Scalar.floor (a + tol)

/-- The smallest integer that is at least `a` less the tolerance. -/
def ceil (tol a : α) : α :=
  Scalar.ceil (a - tol)

end Within
end MipShrink
