/-
# Fractions as they are stored

A fraction is a numerator over a denominator that is not zero, and keeps both: `2/4` and `1/2` are
two fractions with one `value`, and either part may be negative.

| operation | result |
| --- | --- |
| sum, difference, product | in lowest terms, with a positive denominator |
| negation, absolute value | over the same denominator |
| floor, ceiling, nearest integer | an integer, by division towards zero |

Two fractions are compared by their whole parts, and those with the same whole part by the inverses
of what is left.  Fractions with the same denominator or the same numerator are compared at once.
For positive denominators this is the order of the values, and the roundings are theirs; what comes
out for negative ones is told by the definitions alone.
-/

namespace MipShrink

/-- A numerator over a denominator. -/
structure Fraction where
  numerator : Int
  denominator : Int
  denominator_ne : denominator ≠ 0
deriving Repr

namespace Fraction

/-- The rational that a fraction stands for. -/
def value (a : Fraction) : Rat :=
  Rat.divInt a.numerator a.denominator

/-- A rational in lowest terms. -/
def ofRat (x : Rat) : Fraction :=
  ⟨x.num, x.den, Int.natCast_ne_zero.2 x.den_nz⟩

/-- An integer over one. -/
def ofInt (n : Int) : Fraction := ⟨n, 1, Int.one_ne_zero⟩

instance : Zero Fraction := ⟨ofInt 0⟩

instance : One Fraction := ⟨ofInt 1⟩

instance : Add Fraction := ⟨fun a b => ofRat (a.value + b.value)⟩

instance : Sub Fraction := ⟨fun a b => ofRat (a.value - b.value)⟩

instance : Mul Fraction := ⟨fun a b => ofRat (a.value * b.value)⟩

instance : Neg Fraction := ⟨fun a => { a with numerator := -a.numerator }⟩

/-- Are the signs of the two parts the same? -/
def isPositive (a : Fraction) : Bool :=
  (decide (0 < a.numerator) && decide (0 < a.denominator)) ||
    (decide (a.numerator < 0) && decide (a.denominator < 0))

/-- Are the signs of the two parts different? -/
def isNegative (a : Fraction) : Bool :=
  (decide (a.numerator < 0) && decide (0 < a.denominator)) ||
    (decide (0 < a.numerator) && decide (a.denominator < 0))

/-- The magnitude of a fraction. -/
def abs (a : Fraction) : Fraction :=
  if a.isNegative then -a else a

/-- The remainder of a division down is smaller than the divisor. -/
theorem natAbs_fmod_lt (a : Int) {b : Int} (h : b ≠ 0) : (a.fmod b).natAbs < b.natAbs := by
  have lower := Int.emod_nonneg a h
  have upper := Int.emod_lt a h
  rw [Int.fmod_eq_emod]
  split
  · omega
  · rename_i hb
    have : a % b ≠ 0 := fun hz => hb (.inr (Int.dvd_of_emod_eq_zero hz))
    omega

/-- How two fractions compare. -/
def order (a b : Fraction) : Ordering :=
  if a.denominator = b.denominator then
    let o := compare a.numerator b.numerator
    if a.denominator < 0 then o.swap else o
  else if a.numerator = b.numerator then
    let o := compare a.denominator b.denominator
    if a.numerator = 0 then .eq else if a.numerator < 0 then o else o.swap
  else
    match compare (a.numerator.fdiv a.denominator) (b.numerator.fdiv b.denominator) with
    | .lt => .lt
    | .gt => .gt
    | .eq =>
      if ha : a.numerator.fmod a.denominator = 0 then
        if b.numerator.fmod b.denominator = 0 then .eq else .lt
      else if hb : b.numerator.fmod b.denominator = 0 then .gt
      else
        (order ⟨a.denominator, a.numerator.fmod a.denominator, ha⟩
          ⟨b.denominator, b.numerator.fmod b.denominator, hb⟩).swap
termination_by a.denominator.natAbs
decreasing_by exact natAbs_fmod_lt _ a.denominator_ne

instance : BEq Fraction := ⟨fun a b => order a b == .eq⟩

instance : LE Fraction := ⟨fun a b => order a b ≠ .gt⟩

instance : LT Fraction := ⟨fun a b => order a b = .lt⟩

instance : DecidableLE Fraction := fun a b => inferInstanceAs (Decidable (order a b ≠ .gt))

instance : DecidableLT Fraction := fun a b => inferInstanceAs (Decidable (order a b = .lt))

/-- The whole part, towards zero. -/
def whole (a : Fraction) : Fraction :=
  ofInt (a.numerator.tdiv a.denominator)

/-- What is left beside the whole part. -/
def rest (a : Fraction) : Fraction :=
  { a with numerator := a.numerator.tmod a.denominator }

/-- The largest integer that is not above a fraction. -/
def floor (a : Fraction) : Fraction :=
  if a < 0 then ofInt ((a.numerator - a.denominator + 1).tdiv a.denominator) else a.whole

/-- The smallest integer that is not below a fraction. -/
def ceil (a : Fraction) : Fraction :=
  if a < 0 then a.whole else ofInt ((a.numerator + a.denominator - 1).tdiv a.denominator)

/-- Does the numerator reach half of the denominator? -/
def reachesHalf (a : Fraction) : Bool :=
  let half := a.denominator.tdiv 2
  decide ((if a.denominator % 2 = 0 then half else half + 1) ≤ a.numerator)

/-- The nearest integer, half-way cases away from zero. -/
def round (a : Fraction) : Fraction :=
  let left := if a.rest < 0 then 0 - a.rest else a.rest
  if left.reachesHalf then if 0 ≤ a then a.whole + 1 else a.whole - 1 else a.whole

/-- Reducing to lowest terms keeps the value. -/
theorem value_ofRat (x : Rat) : (ofRat x).value = x := Rat.num_divInt_den x

/-- A sum has the sum of the values. -/
theorem value_add (a b : Fraction) : (a + b).value = a.value + b.value := value_ofRat _

/-- A difference has the difference of the values. -/
theorem value_sub (a b : Fraction) : (a - b).value = a.value - b.value := value_ofRat _

/-- A product has the product of the values. -/
theorem value_mul (a b : Fraction) : (a * b).value = a.value * b.value := value_ofRat _

/-- A negated fraction has the negated value. -/
theorem value_neg (a : Fraction) : (-a).value = -a.value := (Rat.neg_divInt _ _).symm

end Fraction
end MipShrink
