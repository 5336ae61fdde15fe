/-
# The weight of a program

The weight counts what there is left to simplify: columns that are not fixed, costs that are not
zero or not whole, domains with more than one value and their bounds that are not whole, rows that
are not redundant, and coefficients.

No change of an element makes the weight larger (`ModuleKind.weight_le_of_step`), and six of the
modules make it smaller with every change (`ModuleKind.weight_lt_of_step`): all except `side`,
`consround` and `setting`.
-/

import Mathlib.Algebra.Order.BigOperators.Group.List
import Mathlib.Algebra.Order.Ring.Nat
import MipShrink.Proofs.Reduction.Steps
import MipShrink.Proofs.Tolerance.Exact

namespace MipShrink

open Rational

/-! ### Sums over lists -/

/-- A sum does not grow if the changed summand does not. -/
theorem sum_map_modify_le {β : Type} {w : β → Nat} {f : β → β} {l : List β} {i : Nat}
    (le : ∀ a, l[i]? = some a → w (f a) ≤ w a) : ((l.modify i f).map w).sum ≤ (l.map w).sum := by
  induction l generalizing i with
  | nil =>
    exact Nat.le_of_eq (by rw [List.modify_nil])
  | cons a l ih =>
    cases i with
    | zero =>
      have first : w (f a) ≤ w a := le a rfl
      simp only [List.modify_zero_cons, List.map_cons, List.sum_cons]
      omega
    | succ i =>
      have rest : ((l.modify i f).map w).sum ≤ (l.map w).sum := ih fun b found => le b found
      simp only [List.modify_succ_cons, List.map_cons, List.sum_cons]
      omega

/-- A sum becomes smaller if the changed summand does. -/
theorem sum_map_modify_lt {β : Type} {w : β → Nat} {f : β → β} {l : List β} {i : Nat} {a : β}
    (found : l[i]? = some a) (lt : w (f a) < w a) :
    ((l.modify i f).map w).sum < (l.map w).sum := by
  induction l generalizing i with
  | nil => simp at found
  | cons b l ih =>
    cases i with
    | zero =>
      obtain rfl : b = a := Option.some.inj found
      simp only [List.modify_zero_cons, List.map_cons, List.sum_cons]
      omega
    | succ i =>
      have rest : ((l.modify i f).map w).sum < (l.map w).sum := ih found
      simp only [List.modify_succ_cons, List.map_cons, List.sum_cons]
      omega

/-! ### Columns -/

namespace Column

/-- What there is left of a domain: nothing if it is a single value, and else the domain itself and
its finite bounds that are not whole. -/
def domainWeight (tol : Rat) (c : Column Rat) : Nat :=
  if c.isCollapsed tol then 0
  else 1 + (!c.flags.lbInf && !whole c.lower).toNat + (!c.flags.ubInf && !whole c.upper).toNat

/-- What there is left of the cost. -/
def costWeight (c : Column Rat) : Nat :=
  (decide (c.cost ≠ 0)).toNat + (!whole c.cost).toNat

/-- What there is left of a column: the column itself, its cost and its domain. -/
def weight (tol : Rat) (c : Column Rat) : Nat :=
  (!c.flags.fixed).toNat + c.costWeight + c.domainWeight tol

variable {tol : Rat} {c : Column Rat}

/-- A domain with a single value has collapsed. -/
theorem isCollapsed_collapse (nonneg : 0 ≤ tol) (x : Rat) (c : Column Rat) :
    (c.collapse x).isCollapsed tol = true :=
  same_self nonneg x

/-- A domain with a single value weighs nothing. -/
theorem domainWeight_collapse (nonneg : 0 ≤ tol) (x : Rat) (c : Column Rat) :
    (c.collapse x).domainWeight tol = 0 :=
  if_pos (isCollapsed_collapse nonneg x c)

/-- A domain with room to move is not a single value. -/
theorem domainWeight_of_isOpen (nonneg : 0 ≤ tol) (h : c.isOpen tol = true) :
    0 < c.domainWeight tol := by
  have wide : c.isCollapsed tol = false := by
    unfold isOpen at h
    unfold isCollapsed
    simp only [Bool.and_eq_true, Bool.or_eq_true] at h
    rcases h.2 with (lower | upper) | below
    · simp [lower]
    · simp [upper]
    · simp [not_same_of_below nonneg below]
  unfold domainWeight
  rw [if_neg (by simp [wide])]
  omega

/-- Collapsing a domain with room to move. -/
theorem weight_collapse_lt (nonneg : 0 ≤ tol) (h : c.isOpen tol = true) (x : Rat) :
    (c.collapse x).weight tol < c.weight tol := by
  have after := domainWeight_collapse nonneg x c
  have before := domainWeight_of_isOpen nonneg h
  have fixed : (c.collapse x).flags.fixed = c.flags.fixed := rfl
  have cost : (c.collapse x).costWeight = c.costWeight := rfl
  unfold weight
  rw [fixed, cost, after]
  omega

/-- No cost weighs nothing. -/
theorem costWeight_zero : (c.setCost 0).costWeight = 0 := by
  show (decide ((0 : Rat) ≠ 0)).toNat + (!whole 0).toNat = 0
  rw [whole_zero]
  rfl

/-- Removing a cost that does not vanish. -/
theorem weight_setCost_lt (nonneg : 0 ≤ tol) (h : Within.vanishes tol c.cost = false) :
    (c.setCost 0).weight tol < c.weight tol := by
  have before : 0 < c.costWeight := by
    have nonzero := ne_zero_of_not_vanishes nonneg h
    unfold costWeight
    rw [decide_eq_true nonzero]
    exact Nat.add_pos_left Nat.one_pos _
  have domain : (c.setCost 0).domainWeight tol = c.domainWeight tol := rfl
  have fixed : (c.setCost 0).flags.fixed = c.flags.fixed := rfl
  unfold weight
  rw [costWeight_zero, domain, fixed]
  omega

/-- Fixing a column leaves nothing to simplify. -/
theorem weight_fixColumn_lt (nonneg : 0 ≤ tol) (h : c.isRemoved = false) (x : Rat) :
    (Reduction.fixColumn x c).weight tol < c.weight tol := by
  have fixed : c.flags.fixed = false := by
    unfold isRemoved at h
    exact (Bool.or_eq_false_iff.1 h).1
  have after : (Reduction.fixColumn x c).weight tol = 0 := by
    have cost : (Reduction.fixColumn x c).costWeight = 0 := costWeight_zero
    have domain : (Reduction.fixColumn x c).domainWeight tol = 0 := domainWeight_collapse nonneg x c
    unfold weight
    rw [cost, domain]
    rfl
  rw [after]
  unfold weight
  rw [fixed]
  exact Nat.add_pos_left (Nat.add_pos_left Nat.one_pos _) _

/-- A rounded cost does not weigh more. -/
theorem costWeight_round_le : (c.setCost (Scalar.round c.cost)).costWeight ≤ c.costWeight := by
  unfold costWeight
  show (decide (Scalar.round c.cost ≠ 0)).toNat + (!whole (Scalar.round c.cost)).toNat ≤ _
  rw [whole_round]
  by_cases zero : c.cost = 0
  · have rounded : Scalar.round c.cost = (0 : Rat) := by
      rw [zero]
      exact round_of_whole whole_zero
    rw [decide_eq_false (not_not_intro rounded)]
    exact Nat.zero_le _
  · have one : (decide (c.cost ≠ 0)).toNat = 1 := by rw [decide_eq_true zero]; rfl
    have le := Bool.toNat_le (decide (Scalar.round c.cost ≠ 0))
    have zero' : (!true).toNat = 0 := rfl
    omega

/-- A cost that is not whole weighs less when it is rounded. -/
theorem costWeight_round_lt (h : whole c.cost = false) :
    (c.setCost (Scalar.round c.cost)).costWeight < c.costWeight := by
  have nonzero : c.cost ≠ 0 := by
    intro zero
    rw [zero, whole_zero] at h
    exact absurd h Bool.noConfusion
  unfold costWeight
  show (decide (Scalar.round c.cost ≠ 0)).toNat + (!whole (Scalar.round c.cost)).toNat < _
  rw [whole_round, h, decide_eq_true nonzero]
  have le := Bool.toNat_le (decide (Scalar.round c.cost ≠ 0))
  have zero' : (!true).toNat = 0 := rfl
  have one : (!false).toNat = 1 := rfl
  have one' : true.toNat = 1 := rfl
  omega

/-- The domain is not a single value, and its bounds that are not whole count. -/
theorem domainWeight_of_not_isCollapsed (h : c.isCollapsed tol = false) : c.domainWeight tol =
    1 + (!c.flags.lbInf && !whole c.lower).toNat + (!c.flags.ubInf && !whole c.upper).toNat :=
  if_neg (by simp [h])

/-- A rounded bound is whole. -/
theorem whole_lower_roundBounds (tol : Rat) (c : Column Rat) :
    (!(Reduction.roundBounds tol c).flags.lbInf &&
      !whole (Reduction.roundBounds tol c).lower) = false := by
  obtain ⟨name, cost, lower, upper, ⟨lbInf, ubInf, _, _, _, _⟩⟩ := c
  unfold Reduction.roundBounds
  cases lbInf with
  | true => cases ubInf <;> rfl
  | false =>
    have floor := whole_floor tol lower
    cases ubInf
    all_goals
      show (true && !whole (Within.floor tol lower)) = false
      rw [floor]
      rfl

/-- A rounded upper bound is whole if it is finite. -/
theorem whole_upper_roundBounds (tol : Rat) (c : Column Rat) :
    (!(Reduction.roundBounds tol c).flags.ubInf &&
      !whole (Reduction.roundBounds tol c).upper) = false := by
  obtain ⟨name, cost, lower, upper, ⟨lbInf, ubInf, _, _, _, _⟩⟩ := c
  unfold Reduction.roundBounds
  cases ubInf with
  | true => cases lbInf <;> rfl
  | false =>
    have ceil := whole_ceil tol upper
    cases lbInf
    all_goals
      show (true && !whole (Within.ceil tol upper)) = false
      rw [ceil]
      rfl

/-- A domain with rounded bounds weighs one at most. -/
theorem domainWeight_roundBounds_le (tol tol' : Rat) (c : Column Rat) :
    (Reduction.roundBounds tol' c).domainWeight tol ≤ 1 := by
  unfold domainWeight
  split
  · exact Nat.zero_le _
  · refine Nat.le_of_eq ?_
    rw [whole_lower_roundBounds, whole_upper_roundBounds, Bool.toNat_false]

/-- Rounding the bounds leaves the mark of a fixed column alone. -/
theorem fixed_roundBounds (tol : Rat) (c : Column Rat) :
    (Reduction.roundBounds tol c).flags.fixed = c.flags.fixed := by
  unfold Reduction.roundBounds
  dsimp only
  split <;> split <;> rfl

/-- Rounding the bounds leaves the weight of the cost alone. -/
theorem costWeight_roundBounds (tol : Rat) (c : Column Rat) :
    (Reduction.roundBounds tol c).costWeight = c.costWeight := by
  unfold Reduction.roundBounds
  dsimp only
  split <;> split <;> rfl

/-- A bound that is not integral counts besides the domain. -/
theorem domainWeight_of_hasFractionalBound (nonneg : 0 ≤ tol)
    (h : Reduction.hasFractionalBound tol c = true) : 1 < c.domainWeight tol := by
  unfold Reduction.hasFractionalBound at h
  simp only [Bool.and_eq_true, Bool.or_eq_true, Bool.not_eq_true'] at h
  obtain ⟨wide, lower | upper⟩ := h
  · rw [domainWeight_of_not_isCollapsed wide, lower.1, whole_of_not_integral nonneg lower.2]
    show 1 < 1 + 1 + _
    omega
  · rw [domainWeight_of_not_isCollapsed wide, upper.1, whole_of_not_integral nonneg upper.2]
    show 1 < 1 + _ + 1
    omega

/-- Making a column integral that is not. -/
theorem weight_roundColumn_lt {t : Tolerance Rat} (nonneg : t.Nonneg)
    (h : (!Within.integral t.admissibility c.cost ||
      Reduction.hasFractionalBound t.admissibility c) = true) :
    (Reduction.roundColumn t c).weight t.admissibility < c.weight t.admissibility := by
  have costLe := costWeight_round_le (c := c)
  have domain : (c.setCost (Scalar.round c.cost)).domainWeight t.admissibility =
      c.domainWeight t.admissibility := rfl
  have fixed : (c.setCost (Scalar.round c.cost)).flags.fixed = c.flags.fixed := rfl
  have costLt (fractional : Within.integral t.admissibility c.cost = false) :=
    costWeight_round_lt (whole_of_not_integral nonneg.admissibility fractional)
  have collapsed : (c.setCost (Scalar.round c.cost)).isCollapsed t.admissibility =
      c.isCollapsed t.admissibility := rfl
  simp only [Bool.or_eq_true, Bool.not_eq_true'] at h
  unfold Reduction.roundColumn
  dsimp only
  rw [collapsed]
  split
  · -- A collapsed domain is left alone, so there only the cost can have been fractional.
    rename_i single
    rcases h with cost | bound
    · have lt := costLt cost
      unfold weight
      rw [domain, fixed]
      omega
    · unfold Reduction.hasFractionalBound at bound
      rw [single] at bound
      exact absurd bound Bool.noConfusion
  · rename_i wide
    have before := domainWeight_of_not_isCollapsed (Bool.eq_false_iff.2 wide)
    have after := domainWeight_roundBounds_le t.admissibility t.feasibility
      (c.setCost (Scalar.round c.cost))
    unfold weight
    rw [fixed_roundBounds, costWeight_roundBounds, fixed]
    rcases h with cost | bound
    · have lt := costLt cost
      omega
    · have two := domainWeight_of_hasFractionalBound nonneg.admissibility bound
      omega

end Column

/-! ### Rows -/

namespace Row

/-- What there is left of a row: the row itself and its coefficients. -/
def weight {α : Type} (r : Row α) : Nat :=
  (!r.isRedundant).toNat + r.coeffs.length

variable {α : Type} [Scalar α] {r : Row α}

/-- Shifting leaves the mark of a row alone. -/
@[simp] theorem isRedundant_shift (x : α) (r : Row α) :
    (r.shift x).isRedundant = r.isRedundant := by
  unfold shift
  dsimp only
  split <;> split <;> rfl

/-- Rounding the sides leaves the mark of a row alone. -/
@[simp] theorem isRedundant_roundSides (tol : α) (activity : Option α) (r : Row α) :
    (Reduction.roundSides tol activity r).isRedundant = r.isRedundant := by
  unfold Reduction.roundSides
  dsimp only
  split <;> split <;> rfl

/-- Shifting leaves the weight of a row alone. -/
theorem weight_shift (x : α) (r : Row α) : (r.shift x).weight = r.weight := by
  unfold weight
  rw [isRedundant_shift, coeffs_shift]

omit [Scalar α] in
/-- A row weighs less when it is marked as redundant. -/
theorem weight_markRedundant_lt (h : r.isRedundant = false) :
    (r.assignFlag .redundant true).weight < r.weight := by
  have after : (r.assignFlag .redundant true).weight = 0 + r.coeffs.length := rfl
  have before : r.weight = 1 + r.coeffs.length := by
    unfold weight
    rw [h]
    rfl
  omega

/-- Rounding coefficients loses those that become zero. -/
theorem weight_makeIntegral_le (tol : α) (point : Option (List α)) (r : Row α) :
    (r.makeIntegral tol point).weight ≤ r.weight := by
  have redundant : (r.makeIntegral tol point).isRedundant = r.isRedundant :=
    isRedundant_roundSides ..
  have coeffs : (r.makeIntegral tol point).coeffs = r.roundEntries.coeffs :=
    coeffs_roundSides ..
  have length : r.roundEntries.coeffs.length ≤ r.coeffs.length := by
    refine Nat.le_trans (List.length_filter_le ..) ?_
    exact Nat.le_of_eq (List.length_map _)
  unfold weight
  rw [redundant, coeffs]
  omega

end Row

namespace Row

variable {r : Row Rat}

/-- Without a coefficient a row weighs what the others do. -/
theorem weight_setCoeff_zero (j : Nat) (r : Row Rat) :
    (r.setCoeff j 0).weight = (!r.isRedundant).toNat + (Keyed.drop j r.coeffs).length := rfl

/-- A row does not weigh more without a coefficient. -/
theorem weight_setCoeff_zero_le (j : Nat) (r : Row Rat) : (r.setCoeff j 0).weight ≤ r.weight := by
  have length : (Keyed.drop j r.coeffs).length ≤ r.coeffs.length := List.length_filter_le ..
  rw [weight_setCoeff_zero]
  exact Nat.add_le_add_left length _

/-- A row weighs less without a coefficient that it has. -/
theorem weight_setCoeff_zero_lt {j : Nat} {a : Rat} (h : (j, a) ∈ r.coeffs) :
    (r.setCoeff j 0).weight < r.weight := by
  have length : (Keyed.drop j r.coeffs).length < r.coeffs.length :=
    List.length_filter_lt_length_iff_exists.2 ⟨(j, a), h, by simp⟩
  rw [weight_setCoeff_zero]
  exact Nat.add_lt_add_left length _

/-- A row does not weigh more when a value is put in. -/
theorem weight_putIn_le (j : Nat) (x : Rat) (r : Row Rat) : (r.putIn j x).weight ≤ r.weight := by
  unfold putIn
  split
  · exact Nat.le_trans (weight_setCoeff_zero_le j _) (Nat.le_of_eq (weight_shift _ r))
  · exact Nat.le_refl _

/-- A row weighs less when a value is put in for a column that it has. -/
theorem weight_putIn_lt (canonical : r.Canonical) {j : Nat} (h : (r.coeff? j).isSome = true)
    (x : Rat) : (r.putIn j x).weight < r.weight := by
  obtain ⟨a, entry⟩ := Option.isSome_iff_exists.1 h
  have mem : (j, a) ∈ (r.shift (a * x)).coeffs := by
    rw [coeffs_shift]
    exact canonical.coeff?_eq_some_iff.1 entry
  unfold putIn
  rw [entry]
  exact Nat.lt_of_lt_of_eq (weight_setCoeff_zero_lt mem) (weight_shift _ r)

end Row

/-! ### Programs -/

namespace Problem

/-- What there is left to simplify. -/
def weight (tol : Rat) (p : Problem Rat) : Nat :=
  (p.columns.map (Column.weight tol)).sum + (p.rows.map Row.weight).sum

variable {tol : Rat} {p : Problem Rat} {i j : Nat}

/-- A program weighs less if one of its columns does. -/
theorem weight_mapColumn_lt {f : Column Rat → Column Rat} {c : Column Rat}
    (column : p.columns[j]? = some c) (lt : (f c).weight tol < c.weight tol) :
    (p.mapColumn j f).weight tol < p.weight tol :=
  Nat.add_lt_add_right (sum_map_modify_lt column lt) _

/-- A program weighs less if one of its rows does. -/
theorem weight_mapRow_lt {f : Row Rat → Row Rat} {r : Row Rat} (row : p.rows[i]? = some r)
    (lt : (f r).weight < r.weight) : (p.mapRow i f).weight tol < p.weight tol :=
  Nat.add_lt_add_left (sum_map_modify_lt row lt) _

/-- A program does not weigh more if its changed row does not. -/
theorem weight_mapRow_le {f : Row Rat → Row Rat}
    (le : ∀ r, p.rows[i]? = some r → (f r).weight ≤ r.weight) :
    (p.mapRow i f).weight tol ≤ p.weight tol :=
  Nat.add_le_add_left (sum_map_modify_le le) _

/-- A program weighs less when a column is eliminated that was not removed. -/
theorem weight_eliminate_lt (nonneg : 0 ≤ tol) {c : Column Rat} (column : p.columns[j]? = some c)
    (used : c.isRemoved = false) : (p.eliminate j).weight tol < p.weight tol := by
  unfold eliminate
  rw [column]
  have columns := sum_map_modify_lt column
    (Column.weight_fixColumn_lt nonneg used (Reduction.singleValue c))
  refine Nat.add_lt_add_of_lt_of_le columns ?_
  rw [List.map_map]
  exact List.sum_le_sum fun r _ => Row.weight_putIn_le j (Reduction.singleValue c) r

end Problem

/-! ### Modules -/

namespace ModuleKind

variable {target : Option Settings} {s : Scope Rat} {start : Problem Rat} {x y : Instance Rat}

/-- Does every change of an element make the program lighter? -/
def lightens : ModuleKind → Bool
  | side | consround | setting => false
  | _ => true

/-- **Six of the modules make the program lighter with every change.** -/
theorem weight_lt_of_step {k : ModuleKind} (lighter : k.lightens = true)
    (nonneg : s.tolerance.Nonneg) (canonical : x.problem.Canonical)
    (step : (k.direct target s).Step start x y) :
    y.problem.weight s.tolerance.admissibility < x.problem.weight s.tolerance.admissibility := by
  have nonneg' := nonneg.admissibility
  cases k with
  | constraint =>
    obtain ⟨i, admissible, rfl⟩ := step
    obtain ⟨used, -⟩ := Bool.and_eq_true_iff.1 admissible
    obtain ⟨r, row, kept⟩ := (Option.any_eq_true _ _).1 used
    rw [Bool.not_eq_true'] at kept
    exact Problem.weight_mapRow_lt row (Row.weight_markRedundant_lt kept)
  | collapse =>
    obtain ⟨j, admissible, rfl⟩ := step
    obtain ⟨c, column, isOpen⟩ := (Option.any_eq_true _ _).1 admissible
    exact Problem.weight_mapColumn_lt column (Column.weight_collapse_lt nonneg' isOpen _)
  | objective =>
    obtain ⟨j, admissible, rfl⟩ := step
    obtain ⟨c, column, costly⟩ := (Option.any_eq_true _ _).1 admissible
    obtain ⟨-, present⟩ := Bool.and_eq_true_iff.1 costly
    rw [Bool.not_eq_true'] at present
    exact Problem.weight_mapColumn_lt column (Column.weight_setCost_lt nonneg' present)
  | fixing =>
    obtain ⟨j, admissible, rfl⟩ := step
    obtain ⟨c, column, single⟩ := (Option.any_eq_true _ _).1 admissible
    obtain ⟨used, -⟩ := Bool.and_eq_true_iff.1 single
    rw [Bool.not_eq_true'] at used
    exact Problem.weight_eliminate_lt nonneg' column used
  | coefficient =>
    obtain ⟨e, admissible, rfl⟩ := step
    obtain ⟨entry, -⟩ := Bool.and_eq_true_iff.1 admissible
    obtain ⟨r, row, kept⟩ := (Option.any_eq_true _ _).1 entry
    obtain ⟨-, present⟩ := Bool.and_eq_true_iff.1 kept
    exact Problem.weight_mapRow_lt row (Row.weight_putIn_lt (canonical.row row) present _)
  | varround =>
    obtain ⟨j, admissible, rfl⟩ := step
    obtain ⟨c, column, fractional⟩ := (Option.any_eq_true _ _).1 admissible
    obtain ⟨-, fractional⟩ := Bool.and_eq_true_iff.1 fractional
    exact Problem.weight_mapColumn_lt column (Column.weight_roundColumn_lt nonneg fractional)
  -- The other three are not among the modules that make a program lighter.
  | side => cases lighter
  | consround => cases lighter
  | setting => cases lighter

/-- **No module makes the program heavier.** -/
theorem weight_le_of_step (k : ModuleKind) (nonneg : s.tolerance.Nonneg)
    (canonical : x.problem.Canonical) (step : (k.direct target s).Step start x y) :
    y.problem.weight s.tolerance.admissibility ≤ x.problem.weight s.tolerance.admissibility := by
  cases lighter : k.lightens with
  | true => exact Nat.le_of_lt (weight_lt_of_step lighter nonneg canonical step)
  | false =>
    cases k with
    | side =>
      obtain ⟨i, -, rfl⟩ := step
      exact Problem.weight_mapRow_le fun r _ => Nat.le_refl r.weight
    | consround =>
      obtain ⟨i, -, rfl⟩ := step
      exact Problem.weight_mapRow_le fun r _ => Row.weight_makeIntegral_le _ _ r
    | setting =>
      obtain ⟨e, -, rfl⟩ := step
      cases target <;> exact Nat.le_refl _
    | constraint => cases lighter
    | collapse => cases lighter
    | objective => cases lighter
    | fixing => cases lighter
    | coefficient => cases lighter
    | varround => cases lighter

end ModuleKind
end MipShrink
