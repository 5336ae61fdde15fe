/-
# What becomes of rows

Three of the modules do not make a program lighter.  Of these `side` leaves fewer rows with a side
that is free (`Problem.slack`), and `consround` fewer rows that are not exact
(`Problem.roughness`): a row is exact if its coefficients and its finite sides are whole.

The two may undo each other.  With a reference point `side` puts a row at the value that it has
there, which need not be whole.  This is so only for a row that *mixes*: it has a coefficient in a
column that is not integral and a coefficient in a column to which the point gives a value that is
not whole.  Without such rows `side` leaves exact rows exact (`Row.exact_equate`).
-/

import MipShrink.Proofs.Reduction.Weight

namespace MipShrink

open Rational

namespace Row

/-- The coefficients and the finite sides are whole. -/
def exact (r : Row Rat) : Bool :=
  (r.flags.lhsInf || whole r.lhs) && (r.flags.rhsInf || whole r.rhs) &&
    r.coeffs.all fun e => whole e.2

/-- One for a row that counts and is not exact. -/
def roughness (r : Row Rat) : Nat :=
  (!r.isRedundant && !r.exact).toNat

/-- One for a row that counts and has a free side. -/
def slack (tol : Rat) (r : Row Rat) : Nat :=
  (!r.isRedundant && Reduction.hasFreeSide tol r).toNat

/-- Every column is integral, or every column has a whole value at the point. -/
def fits (p : Problem Rat) (x : List Rat) (r : Row Rat) : Bool :=
  (r.coeffs.all fun e => p.columnHas e.1 Column.isIntegral) ||
    r.coeffs.all fun e => whole (x.getD e.1 0)

variable {s : Scope Rat} {p : Problem Rat} {r : Row Rat} {tol : Rat}

/-- A row is exact if its finite sides and its coefficients are whole. -/
theorem exact_iff : r.exact = true ↔ (r.flags.lhsInf = true ∨ whole r.lhs = true) ∧
    (r.flags.rhsInf = true ∨ whole r.rhs = true) ∧ ∀ e ∈ r.coeffs, whole e.2 = true := by
  simp [exact, and_assoc]

/-- A side that is finite. -/
theorem whole_of_finite {infinite : Bool} {a : Rat} (side : infinite = true ∨ whole a = true)
    (finite : infinite = false) : whole a = true := by
  rcases side with free | integer
  · rw [finite] at free
    cases free
  · exact integer

/-- Whole coefficients at a point of whole values. -/
theorem whole_activity {x : List Rat} (coeffs : ∀ e ∈ r.coeffs, whole e.2 = true)
    (values : ∀ e ∈ r.coeffs, whole (x.getD e.1 0) = true) : whole (r.activity x) = true := by
  unfold activity
  exact List.foldlRecOn (motive := fun sum => whole sum = true) _ _ whole_zero
    fun _ sum e mem => whole_add sum (whole_mul (coeffs e mem) (values e mem))

/-- **The value at which an exact row becomes an equation is whole**, if the row fits the reference
point. -/
theorem whole_sideValue (nonneg : s.tolerance.Nonneg) (exact : r.exact = true)
    (fits : ∀ x, s.solution.point? p.ncols = some x → r.fits p x = true) :
    whole (Reduction.sideValue s p r) = true := by
  obtain ⟨lhs, rhs, coeffs⟩ := exact_iff.1 exact
  unfold Reduction.sideValue
  cases point : s.solution.point? p.ncols with
  | some x =>
    dsimp only
    split
    · exact whole_round _
    · rename_i fractional
      -- Here some column of the row is not integral, so the row fits by its values.
      rcases Bool.or_eq_true_iff.1 (fits x point) with columns | values
      · refine absurd ?_ fractional
        unfold Problem.isRowIntegral
        rw [List.all_eq_true] at columns ⊢
        intro e mem
        rw [columns e mem, Bool.true_and]
        exact integral_of_whole nonneg.epsilon (coeffs e mem)
      · rw [List.all_eq_true] at values
        exact whole_activity coeffs values
  | none =>
    unfold smallestSide
    dsimp only
    split
    · rename_i left
      rw [Bool.and_eq_true_iff, Bool.not_eq_true'] at left
      exact whole_of_finite lhs left.1
    · split
      · rename_i right
        rw [Bool.and_eq_true_iff, Bool.not_eq_true'] at right
        exact whole_of_finite rhs right.1
      · exact whole_zero

/-- An equation is as redundant as the row was. -/
theorem isRedundant_equate (s : Scope Rat) (p : Problem Rat) (r : Row Rat) :
    (Reduction.equate s p r).isRedundant = r.isRedundant := rfl

/-- An exact row stays exact as an equation if the point fits. -/
theorem exact_equate (nonneg : s.tolerance.Nonneg) (exact : r.exact = true)
    (fits : ∀ x, s.solution.point? p.ncols = some x → r.fits p x = true) :
    (Reduction.equate s p r).exact = true := by
  have value := whole_sideValue nonneg exact fits
  obtain ⟨-, -, coeffs⟩ := exact_iff.1 exact
  exact exact_iff.2 ⟨.inr value, .inr value, coeffs⟩

/-- An equation at a point that fits is not rougher than the row. -/
theorem roughness_equate_le (nonneg : s.tolerance.Nonneg)
    (fits : r.isRedundant = false → ∀ x, s.solution.point? p.ncols = some x → r.fits p x = true) :
    (Reduction.equate s p r).roughness ≤ r.roughness := by
  unfold roughness
  rw [isRedundant_equate]
  cases redundant : r.isRedundant with
  | true => exact Nat.le_refl _
  | false =>
    cases exact : r.exact with
    | true =>
      exact Nat.le_of_eq (by rw [exact_equate nonneg exact (fits redundant)])
    | false => exact Bool.toNat_le _

/-- An equation has no free side. -/
theorem hasFreeSide_equate (nonneg : 0 ≤ tol) (s : Scope Rat) (p : Problem Rat) (r : Row Rat) :
    Reduction.hasFreeSide tol (Reduction.equate s p r) = false := by
  have same : Within.same tol (Reduction.equate s p r).lhs (Reduction.equate s p r).rhs = true :=
    same_self nonneg _
  show (false || false ||
    !Within.same tol (Reduction.equate s p r).lhs (Reduction.equate s p r).rhs) = false
  rw [same]
  rfl

/-- A row with a free side loses it as an equation. -/
theorem slack_equate_lt (nonneg : 0 ≤ tol) (used : r.isRedundant = false)
    (free : Reduction.hasFreeSide tol r = true) :
    (Reduction.equate s p r).slack tol < r.slack tol := by
  unfold slack
  rw [hasFreeSide_equate nonneg, free, used, Bool.and_false]
  exact Nat.zero_lt_one

/-- A row that is fractional up to a tolerance is not exact. -/
theorem exact_of_isFractionalRow (nonneg : 0 ≤ tol)
    (fractional : Reduction.isFractionalRow tol r = true) : r.exact = false := by
  rw [Bool.eq_false_iff]
  intro exact
  obtain ⟨lhs, rhs, coeffs⟩ := exact_iff.1 exact
  unfold Reduction.isFractionalRow at fractional
  simp only [Bool.or_eq_true, Bool.and_eq_true, Bool.not_eq_true', List.any_eq_true] at fractional
  rcases fractional with (left | right) | ⟨e, mem, fractional⟩
  · rw [integral_of_whole nonneg (whole_of_finite lhs left.1)] at left
    cases left.2
  · rw [integral_of_whole nonneg (whole_of_finite rhs right.1)] at right
    cases right.2
  · rw [integral_of_whole nonneg (coeffs e mem)] at fractional
    cases fractional

/-! ### Rounding -/

/-- The nearest whole number is whole. -/
theorem whole_nearest (a : Rat) : whole (nearest a) = true := by
  unfold nearest
  split
  · rename_i same
    rw [← eq_of_beq same]
    exact whole_round a
  · exact whole_round a

/-- Rounded coefficients are whole. -/
theorem whole_of_mem_roundEntries (r : Row Rat) :
    ∀ e ∈ r.roundEntries.coeffs, whole e.2 = true := by
  intro e mem
  obtain ⟨e', -, rfl⟩ := List.mem_map.1 (List.mem_filter.1 mem).1
  exact whole_nearest e'.2

/-- A left-hand side is rounded to a whole number. -/
theorem whole_outwardLhs (tol : Rat) (activity : Option Rat) (x : Rat) :
    whole (Reduction.outwardLhs tol activity x) = true := by
  unfold Reduction.outwardLhs Scalar.least
  split
  · split
    · exact whole_floor ..
    · exact whole_floor ..
  · exact whole_floor ..

/-- A right-hand side is rounded to a whole number. -/
theorem whole_outwardRhs (tol : Rat) (activity : Option Rat) (x : Rat) :
    whole (Reduction.outwardRhs tol activity x) = true := by
  unfold Reduction.outwardRhs Scalar.greatest
  split
  · split
    · exact whole_ceil ..
    · exact whole_ceil ..
  · exact whole_ceil ..

/-- Rounding makes a row exact. -/
theorem exact_makeIntegral (tol : Rat) (point : Option (List Rat)) (r : Row Rat) :
    (r.makeIntegral tol point).exact = true := by
  have coeffs := whole_of_mem_roundEntries r
  unfold makeIntegral
  generalize (point.map fun x => (Reduction.roundCoeffs r).activity x) = activity
  generalize r.roundEntries = r' at coeffs ⊢
  rw [exact_iff, coeffs_roundSides]
  have left := whole_outwardLhs tol activity r'.lhs
  have right := whole_outwardRhs tol activity r'.rhs
  obtain ⟨name, entries, lhs, rhs, ⟨lhsInf, rhsInf, equation, redundant⟩⟩ := r'
  cases lhsInf with
  | true =>
    cases rhsInf with
    | true => exact ⟨.inl rfl, .inl rfl, coeffs⟩
    | false => exact ⟨.inl rfl, .inr right, coeffs⟩
  | false =>
    cases rhsInf with
    | true => exact ⟨.inr left, .inl rfl, coeffs⟩
    | false => exact ⟨.inr left, .inr right, coeffs⟩

/-- Making a row integral leaves its mark alone. -/
theorem isRedundant_makeIntegral (tol : Rat) (point : Option (List Rat)) (r : Row Rat) :
    (r.makeIntegral tol point).isRedundant = r.isRedundant :=
  isRedundant_roundSides ..

/-- Making a row integral that is not. -/
theorem roughness_makeIntegral_lt {tol' : Rat} (nonneg : 0 ≤ tol') (used : r.isRedundant = false)
    (fractional : Reduction.isFractionalRow tol' r = true) (point : Option (List Rat)) :
    (r.makeIntegral tol point).roughness < r.roughness := by
  unfold roughness
  rw [exact_makeIntegral, isRedundant_makeIntegral, used,
    exact_of_isFractionalRow nonneg fractional]
  exact Nat.zero_lt_one

/-- Rounding a row keeps its fit. -/
theorem fits_makeIntegral {x : List Rat} (point : Option (List Rat)) (h : r.fits p x = true) :
    (r.makeIntegral tol point).fits p x = true := by
  unfold fits at h ⊢
  rw [Bool.or_eq_true, List.all_eq_true, List.all_eq_true] at h ⊢
  refine h.imp (fun all e mem => ?_) (fun all e mem => ?_)
  · obtain ⟨e', mem', same⟩ := exists_mem_of_mem_makeIntegral mem
    rw [← same]
    exact all e' mem'
  · obtain ⟨e', mem', same⟩ := exists_mem_of_mem_makeIntegral mem
    rw [← same]
    exact all e' mem'

end Row

/-! ### Programs -/

namespace Problem

/-- The number of rows that count and are not exact. -/
def roughness (p : Problem Rat) : Nat :=
  (p.rows.map Row.roughness).sum

/-- The number of rows that count and have a free side. -/
def slack (tol : Rat) (p : Problem Rat) : Nat :=
  (p.rows.map (Row.slack tol)).sum

/-- Every row that counts fits the reference point, if there is one. -/
def Fits (s : Solution Rat) (p : Problem Rat) : Prop :=
  ∀ x, s.point? p.ncols = some x → ∀ r ∈ p.rows, r.isRedundant = false → r.fits p x = true

/-- Some row that counts has a coefficient in a column that is not integral, and a coefficient in a
column to which the point gives a value that is not whole. -/
def MixesAt (x : List Rat) (p : Problem Rat) : Prop :=
  ∃ r ∈ p.rows, r.isRedundant = false ∧
    (∃ e ∈ r.coeffs, p.columnHas e.1 Column.isIntegral = false) ∧
    ∃ e ∈ r.coeffs, whole (x.getD e.1 0) = false

variable {s : Solution Rat} {p : Problem Rat}

/-- A program that does not fit has a row that mixes. -/
theorem mixesAt_of_not_fits (h : ¬p.Fits s) : ∃ x, s.point? p.ncols = some x ∧ p.MixesAt x := by
  refine Classical.byContradiction fun none => h fun x point r mem used => ?_
  cases fits : r.fits p x with
  | true => rfl
  | false =>
    unfold Row.fits at fits
    rw [Bool.or_eq_false_iff, List.all_eq_false, List.all_eq_false] at fits
    obtain ⟨⟨e, mem', column⟩, ⟨e', mem'', value⟩⟩ := fits
    exact absurd ⟨x, point, r, mem, used, ⟨e, mem', Bool.eq_false_iff.2 column⟩,
      e', mem'', Bool.eq_false_iff.2 value⟩ none

/-- A change of a row that leaves what fits fitting. -/
theorem Fits.mapRow (h : p.Fits s) (i : Nat) {f : Row Rat → Row Rat}
    (redundant : ∀ r, (f r).isRedundant = r.isRedundant)
    (fits : ∀ x r, r.fits p x = true → (f r).fits p x = true) : (p.mapRow i f).Fits s := by
  intro x point
  refine forall_mem_modify (h x point) fun r row used => fits x r ?_
  exact h x point r (List.mem_of_getElem? row) ((redundant r).symm.trans used)

end Problem
end MipShrink
