/-
# Finite bounds and sides

What the changes of rows and columns do to the finite bounds (`lower?`, `upper?`) and the finite
sides (`lhs?`, `rhs?`).  Which of them are finite stays as it is under all changes except those that
give a row or a column a single value, and the finite ones are moved:

| change | lower or left | upper or right |
| --- | --- | --- |
| `Row.shift delta` | `· - delta` | `· - delta` |
| `Row.putIn j x` | less what column `j` is worth | likewise |
| `roundBounds tol` | `Within.floor tol` | `Within.ceil tol` |
| `roundSides tol activity` | `outwardLhs tol activity` | `outwardRhs tol activity` |

A value or a point violates nothing if it satisfies the finite ones up to the tolerance
(`Column.violatesColumn_eq_false_iff`, `Row.violatesRow_eq_false_iff`).

What a column is worth in a row, its coefficient times a value, is at the same time what the
activity of the row loses (`Row.activity_putIn`).
-/

import MipShrink.Proofs.Reduction.Roughness

namespace MipShrink

variable {α : Type} [Scalar α]

namespace Column

/-- The value lies within the finite bounds. -/
structure Contains (v : Rat) (c : Column Rat) : Prop where
  lower : ∀ l ∈ c.lower?, l ≤ v
  upper : ∀ u ∈ c.upper?, v ≤ u

/-- The two parts of being within the bounds, side by side. -/
theorem contains_iff (v : Rat) (c : Column Rat) :
    c.Contains v ↔ (∀ l ∈ c.lower?, l ≤ v) ∧ ∀ u ∈ c.upper?, v ≤ u :=
  ⟨fun h => ⟨h.lower, h.upper⟩, fun h => ⟨h.1, h.2⟩⟩

instance (v : Rat) (c : Column Rat) : Decidable (c.Contains v) :=
  decidable_of_iff' _ (contains_iff v c)

/-- Rounding moves the finite lower bound outward. -/
theorem lower?_roundBounds (tol : α) (c : Column α) :
    (Reduction.roundBounds tol c).lower? = c.lower?.map (Within.floor tol) := by
  obtain ⟨name, cost, lower, upper, ⟨lbInf, ubInf, _, _, _, _⟩⟩ := c
  cases lbInf <;> cases ubInf <;> rfl

/-- Rounding moves the finite upper bound outward. -/
theorem upper?_roundBounds (tol : α) (c : Column α) :
    (Reduction.roundBounds tol c).upper? = c.upper?.map (Within.ceil tol) := by
  obtain ⟨name, cost, lower, upper, ⟨lbInf, ubInf, _, _, _, _⟩⟩ := c
  cases lbInf <;> cases ubInf <;> rfl

/-- Both bounds are finite and the same up to the tolerance. -/
theorem isCollapsed_iff {tol : α} {c : Column α} : c.isCollapsed tol = true ↔
    ∃ l u, c.lower? = some l ∧ c.upper? = some u ∧ Within.same tol l u = true := by
  obtain ⟨name, cost, lower, upper, ⟨lbInf, ubInf, _, _, _, _⟩⟩ := c
  cases lbInf <;> cases ubInf <;> simp [isCollapsed, lower?, upper?]

/-- What a value that does not violate a column satisfies. -/
theorem violatesColumn_eq_false_iff {tol v : Rat} {c : Column Rat} :
    Solution.violatesColumn tol v c = false ↔ (∀ l ∈ c.lower?, l ≤ v + tol) ∧
      (∀ u ∈ c.upper?, v ≤ u + tol) ∧ (c.isIntegral = true → Within.integral tol v = true) := by
  have below (l : Rat) : -tol ≤ v - l ↔ l ≤ v + tol := by grind
  have above (u : Rat) : v - u ≤ tol ↔ v ≤ u + tol := by grind
  unfold Solution.violatesColumn lower? upper? Within.atLeast Within.atMost
  cases c.flags.lbInf <;> cases c.flags.ubInf <;> cases c.isIntegral <;>
    simp [below, above, and_assoc]

end Column

namespace Row

/-- Shifting moves the finite left-hand side. -/
theorem lhs?_shift (delta : α) (r : Row α) : (r.shift delta).lhs? = r.lhs?.map (· - delta) := by
  obtain ⟨name, coeffs, lhs, rhs, ⟨lhsInf, rhsInf, _, _⟩⟩ := r
  cases lhsInf <;> cases rhsInf <;> rfl

/-- Shifting moves the finite right-hand side. -/
theorem rhs?_shift (delta : α) (r : Row α) : (r.shift delta).rhs? = r.rhs?.map (· - delta) := by
  obtain ⟨name, coeffs, lhs, rhs, ⟨lhsInf, rhsInf, _, _⟩⟩ := r
  cases lhsInf <;> cases rhsInf <;> rfl

/-- Rounding moves the finite left-hand side outward. -/
theorem lhs?_roundSides (tol : α) (activity : Option α) (r : Row α) :
    (Reduction.roundSides tol activity r).lhs? =
      r.lhs?.map (Reduction.outwardLhs tol activity) := by
  obtain ⟨name, coeffs, lhs, rhs, ⟨lhsInf, rhsInf, _, _⟩⟩ := r
  cases lhsInf <;> cases rhsInf <;> rfl

/-- Rounding moves the finite right-hand side outward. -/
theorem rhs?_roundSides (tol : α) (activity : Option α) (r : Row α) :
    (Reduction.roundSides tol activity r).rhs? =
      r.rhs?.map (Reduction.outwardRhs tol activity) := by
  obtain ⟨name, coeffs, lhs, rhs, ⟨lhsInf, rhsInf, _, _⟩⟩ := r
  cases lhsInf <;> cases rhsInf <;> rfl

/-- Making a row integral moves its finite left-hand side outward. -/
theorem lhs?_makeIntegral (tol : α) (point : Option (List α)) (r : Row α) :
    (r.makeIntegral tol point).lhs? = r.lhs?.map (Reduction.outwardLhs tol
      (point.map fun x => (Reduction.roundCoeffs r).activity x)) :=
  lhs?_roundSides ..

/-- Making a row integral moves its finite right-hand side outward. -/
theorem rhs?_makeIntegral (tol : α) (point : Option (List α)) (r : Row α) :
    (r.makeIntegral tol point).rhs? = r.rhs?.map (Reduction.outwardRhs tol
      (point.map fun x => (Reduction.roundCoeffs r).activity x)) :=
  rhs?_roundSides ..

/-- What a point that does not violate a row satisfies. -/
theorem violatesRow_eq_false_iff {tol : Rat} {x : List Rat} {r : Row Rat} :
    Solution.violatesRow tol x r = false ↔
      (∀ l ∈ r.lhs?, l ≤ r.activity x + tol) ∧ ∀ u ∈ r.rhs?, r.activity x ≤ u + tol := by
  have below (l : Rat) : -tol ≤ r.activity x - l ↔ l ≤ r.activity x + tol := by grind
  have above (u : Rat) : r.activity x - u ≤ tol ↔ r.activity x ≤ u + tol := by grind
  unfold Solution.violatesRow lhs? rhs? Within.atLeast Within.atMost
  cases r.flags.lhsInf <;> cases r.flags.rhsInf <;> simp [below, above]

/-! ### What a column is worth -/

/-- The contribution of a list of coefficients at a point. -/
def dot (x : List Rat) : List (Nat × Rat) → Rat
  | [] => 0
  | e :: l => e.2 * x.getD e.1 0 + dot x l

/-- The activity is the sum over the coefficients. -/
theorem activity_eq_dot (x : List Rat) (r : Row Rat) : r.activity x = dot x r.coeffs := by
  have sum (l : List (Nat × Rat)) (a : Rat) :
      l.foldl (fun sum e => sum + e.2 * x.getD e.1 0) a = a + dot x l := by
    induction l generalizing a with
    | nil => exact (Rat.add_zero a).symm
    | cons e l ih =>
      rw [List.foldl_cons, ih, dot, Rat.add_assoc]
  exact (sum r.coeffs 0).trans (Rat.zero_add _)

/-- What column `j` contributes to the row when it has the value `x`. -/
def worth (j : Nat) (x : Rat) (r : Row Rat) : Rat :=
  ((r.coeff? j).map (· * x)).getD 0

/-- Taking zero away leaves a side as it is. -/
theorem map_sub_zero (side : Option Rat) : side.map (· - 0) = side := by
  have same : (fun a : Rat => a - 0) = id := funext fun a => by grind
  rw [same, Option.map_id, id]

/-- Putting a value in takes what it is worth from the finite left-hand side. -/
theorem lhs?_putIn (j : Nat) (x : Rat) (r : Row Rat) :
    (r.putIn j x).lhs? = r.lhs?.map (· - r.worth j x) := by
  unfold putIn worth
  cases r.coeff? j with
  | some a => exact lhs?_shift ..
  | none => exact (map_sub_zero _).symm

/-- Putting a value in takes what it is worth from the finite right-hand side. -/
theorem rhs?_putIn (j : Nat) (x : Rat) (r : Row Rat) :
    (r.putIn j x).rhs? = r.rhs?.map (· - r.worth j x) := by
  unfold putIn worth
  cases r.coeff? j with
  | some a => exact rhs?_shift ..
  | none => exact (map_sub_zero _).symm

/-- Without the entry of a column a sum loses what this column is worth. -/
theorem dot_drop {l : List (Nat × Rat)} (sorted : Keyed.Sorted Keyed.natBefore l) (j : Nat)
    (x : List Rat) :
    dot x (Keyed.drop j l) = dot x l - ((l.lookup j).map (· * x.getD j 0)).getD 0 := by
  induction l with
  | nil => exact (by decide +kernel : (0 : Rat) = 0 - 0)
  | cons e l ih =>
    obtain ⟨first, rest⟩ := Keyed.sorted_cons.1 sorted
    have later := ih rest
    obtain ⟨k, a⟩ := e
    unfold Keyed.drop at later ⊢
    rw [List.filter_cons, List.lookup_cons]
    by_cases column : j = k
    · subst column
      rw [Keyed.isOrder_natBefore.lookup_eq_none first] at later
      simp only [beq_self_eq_true, Bool.not_true, Bool.false_eq_true, if_false, later, dot,
        Option.map_none, Option.map_some, Option.getD_none, Option.getD_some]
      grind
    · have other : (j == k) = false := by simp [column]
      have other' : (k == j) = false := by simp [Ne.symm column]
      simp only [other, other', Bool.not_false, if_true, dot, later]
      grind

/-- **Putting in a value for a column takes what the column is worth at the point off the
activity**, whatever the value is. -/
theorem activity_putIn {r : Row Rat} (h : r.Canonical) (j : Nat) (v : Rat) (x : List Rat) :
    (r.putIn j v).activity x = r.activity x - r.worth j (x.getD j 0) := by
  rw [activity_eq_dot, activity_eq_dot]
  unfold putIn worth
  cases entry : r.coeff? j with
  | some a =>
    have dropped : ((r.shift (a * v)).setCoeff j 0).coeffs = Keyed.drop j r.coeffs :=
      congrArg (Keyed.drop j) (coeffs_shift ..)
    dsimp only
    rw [dropped, dot_drop h.sorted, show r.coeffs.lookup j = some a from entry]
  | none =>
    have nothing (a : Rat) : a = a - 0 := by grind
    exact nothing _

/-- Only the coefficients count for the activity. -/
theorem activity_congr {r r' : Row Rat} (same : r'.coeffs = r.coeffs) (x : List Rat) :
    r'.activity x = r.activity x := by
  unfold activity
  rw [same]

/-- Stored zeros contribute nothing. -/
theorem dot_dropZeros (x : List Rat) (l : List (Nat × Rat)) :
    dot x (l.filter fun e => !Scalar.isZero e.2) = dot x l := by
  induction l with
  | nil => rfl
  | cons e l ih =>
    rw [List.filter_cons, dot, ← ih]
    by_cases zero : e.2 = 0
    · rw [zero, if_neg (by decide)]
      grind
    · have kept : (!Scalar.isZero e.2) = true := by
        unfold Scalar.isZero
        rw [Bool.not_eq_true', beq_eq_false_iff_ne]
        exact zero
      rw [if_pos kept]
      rfl

/-- Zeros play no part in the activity. -/
theorem activity_dropZeros (x : List Rat) (r : Row Rat) :
    r.dropZeros.activity x = r.activity x := by
  rw [activity_eq_dot, activity_eq_dot]
  exact dot_dropZeros x r.coeffs

/-- For exact numbers the nearest whole number is the rounded one. -/
theorem nearest_eq_round (a : Rat) : nearest a = Scalar.round a := by
  unfold nearest
  split
  · rename_i same
    exact (eq_of_beq same).symm
  · rfl

/-- The activity of a rounded row is that of its rounded coefficients. -/
theorem activity_makeIntegral (tol : Rat) (point : Option (List Rat)) (r : Row Rat)
    (x : List Rat) :
    (r.makeIntegral tol point).activity x = (Reduction.roundCoeffs r).activity x := by
  have entries : r.roundEntries = (Reduction.roundCoeffs r).dropZeros := by
    unfold roundEntries Reduction.roundCoeffs
    simp only [nearest_eq_round]
  have coeffs : (r.makeIntegral tol point).coeffs = r.roundEntries.coeffs := coeffs_roundSides ..
  rw [activity_congr coeffs x, entries, activity_dropZeros]

/-! ### What stays -/

/-- Putting a value in leaves the mark of a redundant row alone. -/
theorem isRedundant_putIn (j : Nat) (x : α) (r : Row α) :
    (r.putIn j x).isRedundant = r.isRedundant := by
  unfold putIn
  split
  · exact isRedundant_shift ..
  · rfl

/-- Putting a value in leaves the name of a row alone. -/
theorem name_putIn (j : Nat) (x : α) (r : Row α) : (r.putIn j x).name = r.name := by
  unfold putIn shift
  dsimp only
  split
  · split <;> split <;> rfl
  · rfl

end Row
end MipShrink
