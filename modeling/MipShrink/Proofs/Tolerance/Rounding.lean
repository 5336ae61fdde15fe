/-
# Outward rounding

`Within.floor` and `Within.ceil` move a number outward to a whole one, by less than one, or inward
by no more than the tolerance:

| rounding | at least | at most |
| --- | --- | --- |
| `Within.floor tol a` | `a + tol - 1`, exclusive | `a + tol` |
| `Within.ceil tol a` | `a - tol` | `a - tol + 1`, exclusive |

An interval that is rounded outward at both ends does not cross as long as the tolerance is below
one half (`Rational.floor_le_ceil`), and one that is wider than two tolerances has at least the
width one afterwards (`Rational.floor_add_one_le_ceil`).

The two roundings of one number mirror each other and differ by one at most.  They agree exactly at
the numbers that are within the tolerance of an integer, and they give this integer
(`Rational.floor_ceil_laws`).
-/

import MipShrink.Proofs.Tolerance.Exact

namespace MipShrink
namespace Rational

/-- Rounding down exceeds a number by the tolerance at most. -/
theorem floor_le (tol a : Rat) : Within.floor tol a ≤ a + tol :=
  Rat.floor_le _

/-- Rounding down takes less than one away, counted from the tolerance above. -/
theorem lt_floor (tol a : Rat) : a + tol - 1 < Within.floor tol a := by
  have above : a + tol < ((a + tol).floor + 1 : Int) := Rat.lt_floor_add_one _
  rw [Rat.intCast_add, Rat.intCast_one] at above
  show a + tol - 1 < ((a + tol).floor : Rat)
  grind

/-- Rounding up falls below a number by the tolerance at most. -/
theorem le_ceil (tol a : Rat) : a - tol ≤ Within.ceil tol a :=
  Rat.le_ceil

/-- Rounding up adds less than one, counted from the tolerance below. -/
theorem ceil_lt (tol a : Rat) : Within.ceil tol a < a - tol + 1 :=
  Rat.ceil_lt

/-- Whole numbers that are less than one apart the wrong way are in order. -/
theorem le_of_lt_add_one {a b : Rat} (ha : whole a = true) (hb : whole b = true)
    (lt : a < b + 1) : a ≤ b := by
  obtain ⟨m, rfl⟩ := exists_of_whole ha
  obtain ⟨n, rfl⟩ := exists_of_whole hb
  rw [← Rat.intCast_one, ← Rat.intCast_add, Rat.intCast_lt_intCast] at lt
  exact Rat.intCast_le_intCast.2 (Int.le_of_lt_add_one lt)

/-- Whole numbers that differ are one apart. -/
theorem add_one_le_of_lt {a b : Rat} (ha : whole a = true) (hb : whole b = true) (lt : a < b) :
    a + 1 ≤ b := by
  obtain ⟨m, rfl⟩ := exists_of_whole ha
  obtain ⟨n, rfl⟩ := exists_of_whole hb
  rw [Rat.intCast_lt_intCast] at lt
  rw [← Rat.intCast_one, ← Rat.intCast_add]
  exact Rat.intCast_le_intCast.2 lt

/-- **Rounding outward does not cross.** -/
theorem floor_le_ceil {tol a b : Rat} (narrow : tol < 1 / 2) (le : a ≤ b) :
    Within.floor tol a ≤ Within.ceil tol b := by
  refine le_of_lt_add_one (whole_floor tol a) (whole_ceil tol b) ?_
  have left := floor_le tol a
  have right := le_ceil tol b
  grind

/-- **What is wider than two tolerances stays wide.** -/
theorem floor_add_one_le_ceil {tol a b : Rat} (wide : 2 * tol < b - a) :
    Within.floor tol a + 1 ≤ Within.ceil tol b := by
  refine add_one_le_of_lt (whole_floor tol a) (whole_ceil tol b) ?_
  have left := floor_le tol a
  have right := le_ceil tol b
  grind

/-- Rounding leaves whole numbers where they are. -/
theorem floor_of_whole {tol a : Rat} (nonneg : 0 ≤ tol) (small : tol < 1) (h : whole a = true) :
    Within.floor tol a = a := by
  refine Rat.le_antisymm (le_of_lt_add_one (whole_floor tol a) h ?_)
    (le_of_lt_add_one h (whole_floor tol a) ?_)
  · have below := floor_le tol a
    grind
  · have above := lt_floor tol a
    grind

/-- A whole number is left as it is by rounding up. -/
theorem ceil_of_whole {tol a : Rat} (nonneg : 0 ≤ tol) (small : tol < 1) (h : whole a = true) :
    Within.ceil tol a = a := by
  refine Rat.le_antisymm (le_of_lt_add_one (whole_ceil tol a) h ?_)
    (le_of_lt_add_one h (whole_ceil tol a) ?_)
  · have below := ceil_lt tol a
    grind
  · have above := le_ceil tol a
    grind

/-! ### Both roundings of a number -/

/-- Rounding up is rounding down, seen from the other side. -/
theorem ceil_eq_neg_floor (tol a : Rat) : Within.ceil tol a = -Within.floor tol (-a) := by
  have mirrored : -(a - tol) = -a + tol := by grind
  show ((a - tol).ceil : Rat) = -((-a + tol).floor : Rat)
  rw [Rat.ceil_eq_neg_floor_neg, mirrored, Rat.intCast_neg]

/-- Rounding down keeps the order. -/
theorem floor_mono (tol : Rat) {a b : Rat} (le : a ≤ b) :
    Within.floor tol a ≤ Within.floor tol b :=
  Rat.intCast_le_intCast.2 (Rat.floor_monotone (Rat.add_le_add_right.2 le))

/-- Rounding up keeps the order. -/
theorem ceil_mono (tol : Rat) {a b : Rat} (le : a ≤ b) : Within.ceil tol a ≤ Within.ceil tol b := by
  have mirrored := floor_mono tol (Rat.neg_le_neg le)
  rw [ceil_eq_neg_floor, ceil_eq_neg_floor]
  exact Rat.neg_le_neg mirrored

/-- The two roundings are less than two apart, so by one at most. -/
theorem ceil_le_floor_add_one {tol : Rat} (nonneg : 0 ≤ tol) (a : Rat) :
    Within.ceil tol a ≤ Within.floor tol a + 1 := by
  refine le_of_lt_add_one (whole_ceil tol a) (whole_add (whole_floor tol a) (whole_intCast 1)) ?_
  have above := ceil_lt tol a
  have below := lt_floor tol a
  grind

/-- A whole number within the tolerance is what both roundings give. -/
theorem floor_ceil_of_same {tol a n : Rat} (small : tol < 1 / 2) (integer : whole n = true)
    (near : Within.same tol a n = true) : Within.floor tol a = n ∧ Within.ceil tol a = n := by
  obtain ⟨above, below⟩ := same_iff.1 near
  constructor
  · have low := lt_floor tol a
    have high := floor_le tol a
    exact Rat.le_antisymm (le_of_lt_add_one (whole_floor tol a) integer (by grind))
      (le_of_lt_add_one integer (whole_floor tol a) (by grind))
  · have low := le_ceil tol a
    have high := ceil_lt tol a
    exact Rat.le_antisymm (le_of_lt_add_one (whole_ceil tol a) integer (by grind))
      (le_of_lt_add_one integer (whole_ceil tol a) (by grind))

/-- **The laws of the tolerant roundings.**  Below one half, whatever the numbers are: both
roundings are monotone, whole and idempotent; rounding down ends within one below the number and the
tolerance together; rounding up mirrors it; the two are in order and differ by one at most; and they
agree exactly at the numbers within the tolerance of an integer, where both give this integer. -/
theorem floor_ceil_laws {tol : Rat} (nonneg : 0 ≤ tol) (small : tol < 1 / 2) (a b : Rat) :
    (a ≤ b → Within.floor tol a ≤ Within.floor tol b ∧ Within.ceil tol a ≤ Within.ceil tol b) ∧
      ((∃ n : Int, Within.floor tol a = n) ∧ ∃ n : Int, Within.ceil tol a = n) ∧
      (Within.floor tol (Within.floor tol a) = Within.floor tol a ∧
        Within.ceil tol (Within.ceil tol a) = Within.ceil tol a) ∧
      (a + tol - 1 < Within.floor tol a ∧ Within.floor tol a ≤ a + tol) ∧
      Within.ceil tol a = -Within.floor tol (-a) ∧
      (Within.floor tol a ≤ Within.ceil tol a ∧ Within.ceil tol a ≤ Within.floor tol a + 1) ∧
      (Within.floor tol a = Within.ceil tol a ↔ ∃ n : Int, Within.same tol a n = true) ∧
      ∀ n : Int, Within.same tol a n = true → Within.floor tol a = n ∧ Within.ceil tol a = n := by
  have below_one : tol < 1 := by grind
  have near (n : Int) (same : Within.same tol a n = true) :
      Within.floor tol a = n ∧ Within.ceil tol a = n :=
    floor_ceil_of_same small (whole_intCast n) same
  refine ⟨fun le => ⟨floor_mono tol le, ceil_mono tol le⟩, ⟨⟨_, rfl⟩, ⟨_, rfl⟩⟩,
    ⟨floor_of_whole nonneg below_one (whole_floor tol a),
      ceil_of_whole nonneg below_one (whole_ceil tol a)⟩,
    ⟨lt_floor tol a, floor_le tol a⟩, ceil_eq_neg_floor tol a,
    ⟨floor_le_ceil small Rat.le_refl, ceil_le_floor_add_one nonneg a⟩, ⟨fun agree => ?_, ?_⟩, near⟩
  · -- The common value is not above `a + tol` as a floor and not below `a - tol` as a ceiling.
    have high := floor_le tol a
    have low := le_ceil tol a
    refine ⟨(a + tol).floor, same_iff.2 ?_⟩
    show a - Within.floor tol a ≤ tol ∧ Within.floor tol a - a ≤ tol
    constructor <;> grind
  · rintro ⟨n, same⟩
    obtain ⟨down, up⟩ := near n same
    rw [down, up]

/-- With the tolerance `2/5` the number `-13/5` is taken for `-3`, and `5/2` for no integer. -/
theorem floor_ceil_laws_halves :
    let tol : Rat := 2 / 5
    0 ≤ tol ∧ tol < 1 / 2 ∧ Within.floor tol (-13 / 5) = -3 ∧ Within.ceil tol (-13 / 5) = -3 ∧
      Within.floor tol (-13 / 5) ≤ Within.floor tol (5 / 2) ∧
      Within.ceil tol (5 / 2) = -Within.floor tol (-(5 / 2)) ∧
      Within.floor tol (5 / 2) ≠ Within.ceil tol (5 / 2) ∧
      ¬∃ n : Int, Within.same tol (5 / 2) n = true := by
  intro tol
  have nonneg : 0 ≤ tol := by decide +kernel
  have small : tol < 1 / 2 := by decide +kernel
  obtain ⟨mono, -, -, -, -, -, -, near⟩ := floor_ceil_laws nonneg small (-13 / 5) (5 / 2)
  obtain ⟨-, -, -, -, mirror, -, agree, -⟩ := floor_ceil_laws nonneg small (5 / 2) 0
  have apart : Within.floor tol (5 / 2) ≠ Within.ceil tol (5 / 2) := by decide +kernel
  obtain ⟨down, up⟩ := near (-3) (by decide +kernel)
  exact ⟨nonneg, small, down, up, (mono (by decide +kernel)).1, mirror, apart, mt agree.2 apart⟩

/-- From one half on the roundings of a number can cross. -/
example : Within.ceil (3 / 5 : Rat) (1 / 2) < Within.floor (3 / 5) (1 / 2) := by decide +kernel

end Rational
end MipShrink
