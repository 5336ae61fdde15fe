/-
# Exact numbers

With rationals a *whole* number is left alone by every rounding (`Rational.round_of_whole`), what is
rounded is whole, and the tolerances are never negative (`Tolerance.nonneg_tolerance`).  So a number
that is not integral up to a tolerance is not whole either (`Rational.whole_of_not_integral`).
-/

import MipShrink.Parameters.Basic

namespace MipShrink
namespace Rational

/-- An integer. -/
def whole (a : Rat) : Bool :=
  decide ((a.floor : Rat) = a)

/-- Integers are whole. -/
theorem whole_intCast (n : Int) : whole (n : Rat) = true := by
  unfold whole
  rw [Rat.floor_intCast]
  exact decide_eq_true rfl

/-- What is whole is an integer. -/
theorem exists_of_whole {a : Rat} (h : whole a = true) : ∃ n : Int, a = n :=
  ⟨a.floor, (of_decide_eq_true h).symm⟩

/-- Zero is whole. -/
theorem whole_zero : whole 0 = true := whole_intCast 0

/-- The sum of whole numbers is whole. -/
theorem whole_add {a b : Rat} (ha : whole a = true) (hb : whole b = true) :
    whole (a + b) = true := by
  obtain ⟨m, rfl⟩ := exists_of_whole ha
  obtain ⟨n, rfl⟩ := exists_of_whole hb
  rw [← Rat.intCast_add]
  exact whole_intCast _

/-- The product of whole numbers is whole. -/
theorem whole_mul {a b : Rat} (ha : whole a = true) (hb : whole b = true) :
    whole (a * b) = true := by
  obtain ⟨m, rfl⟩ := exists_of_whole ha
  obtain ⟨n, rfl⟩ := exists_of_whole hb
  rw [← Rat.intCast_mul]
  exact whole_intCast _

/-- What is rounded is whole. -/
theorem whole_round (a : Rat) : whole (Scalar.round a) = true := by
  show whole (Rational.round a) = true
  unfold Rational.round
  split
  · exact whole_intCast _
  · exact whole_intCast _

/-- Rounding leaves whole numbers alone. -/
theorem round_of_whole {a : Rat} (h : whole a = true) : Scalar.round a = a := by
  obtain ⟨n, rfl⟩ := exists_of_whole h
  show Rational.round n = n
  unfold Rational.round
  split
  · have half : (-1 / 2 : Rat).ceil = 0 := by decide +kernel
    have sum : (n : Rat) - 1 / 2 = -1 / 2 + n := by grind
    rw [sum, Rat.ceil_add_intCast, half, Int.zero_add]
  · have half : (1 / 2 : Rat).floor = 0 := by decide +kernel
    rw [Rat.add_comm, Rat.floor_add_intCast, half, Int.zero_add]

/-- What is rounded down is whole. -/
theorem whole_floor (tol a : Rat) : whole (Within.floor tol a) = true := whole_intCast _

/-- What is rounded up is whole. -/
theorem whole_ceil (tol a : Rat) : whole (Within.ceil tol a) = true := whole_intCast _

/-- A negative difference has its opposite as absolute value. -/
theorem abs_eq (a : Rat) : Scalar.abs a = if a < 0 then -a else a := rfl

/-- A number is the same as itself. -/
theorem same_self {tol : Rat} (nonneg : 0 ≤ tol) (a : Rat) : Within.same tol a a = true := by
  unfold Within.same
  have zero : a - a = 0 := Rat.sub_self
  rw [zero, abs_eq, if_neg (by decide)]
  exact decide_eq_true nonneg

/-- The same up to a tolerance is at most the tolerance apart, either way. -/
theorem same_iff {tol a b : Rat} : Within.same tol a b = true ↔ a - b ≤ tol ∧ b - a ≤ tol := by
  unfold Within.same
  rw [abs_eq, decide_eq_true_iff]
  split <;> grind

/-- What is whole is integral up to every tolerance. -/
theorem integral_of_whole {tol : Rat} (nonneg : 0 ≤ tol) {a : Rat} (h : whole a = true) :
    Within.integral tol a = true := by
  unfold Within.integral
  rw [round_of_whole h]
  exact same_self nonneg a

/-- What is not integral up to a tolerance is not whole. -/
theorem whole_of_not_integral {tol : Rat} (nonneg : 0 ≤ tol) {a : Rat}
    (h : Within.integral tol a = false) : whole a = false := by
  rw [Bool.eq_false_iff]
  intro integer
  rw [integral_of_whole nonneg integer] at h
  exact absurd h Bool.noConfusion

/-- What does not vanish up to a tolerance is not zero. -/
theorem ne_zero_of_not_vanishes {tol : Rat} (nonneg : 0 ≤ tol) {a : Rat}
    (h : Within.vanishes tol a = false) : a ≠ 0 := by
  rintro rfl
  unfold Within.vanishes at h
  rw [abs_eq, if_neg (by decide)] at h
  exact of_decide_eq_false h nonneg

/-- Numbers whose order is beyond a tolerance are not the same up to it. -/
theorem not_same_of_below {tol : Rat} (nonneg : 0 ≤ tol) {a b : Rat}
    (h : Within.below tol a b = true) : Within.same tol a b = false := by
  have below : a - b < -tol := of_decide_eq_true h
  unfold Within.same
  rw [abs_eq, decide_eq_false_iff_not]
  split <;> grind

end Rational

namespace Tolerance

/-- No tolerance is negative. -/
structure Nonneg (t : Tolerance Rat) : Prop where
  epsilon : 0 ≤ t.epsilon
  feasibility : 0 ≤ t.feasibility
  admissibility : 0 ≤ t.admissibility

/-- The magnitude of a tolerance is not negative. -/
theorem magnitude_nonneg (x : Binary64) : 0 ≤ (ofDoubles.magnitude x : Rat) := by
  unfold ofDoubles.magnitude
  show 0 ≤ (x.magnitude.toRat?).getD 0
  cases x with
  | nan _ => exact Rat.le_refl
  | infinite _ => exact Rat.le_refl
  | finite _ m e =>
    show 0 ≤ mkRat (Binary64.scaleUp m e) (Binary64.scaleUp 1 (-e))
    rw [← Rat.divInt_ofNat]
    exact Rat.divInt_nonneg (Int.natCast_nonneg _) (Int.natCast_nonneg _)

/-- **The tolerances of a run are not negative**, whatever doubles its parameters are. -/
theorem nonneg_tolerance (p : Parameters) : (p.tolerance : Tolerance Rat).Nonneg :=
  ⟨magnitude_nonneg _, magnitude_nonneg _, magnitude_nonneg _⟩

end Tolerance
end MipShrink
