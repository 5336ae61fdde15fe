/-
# The reference stays feasible

A reference point guides the reductions: domains and rows are put at its values, and the values of
columns that disappear are its values.  So it has to stay feasible while the program shrinks.  It
does (`Run.feasible_throughout`), if at the beginning it satisfies everything exactly
(`Problem.SolvedBy`) and no two numbers that are told apart are too close (`Problem.Separated`): a
domain is a single value or wider than the admissibility tolerance, and a coefficient is whole or
not taken for an integer.

That the point is feasible up to the feasibility tolerance is not enough to go on from, because the
roundings forgive this tolerance each time.  What every change keeps is `Problem.Admits`:

| of | kept |
| --- | --- |
| a finite bound | it holds exactly, or it is whole and holds up to the tolerance |
| a domain | it is the value of the point, or wider than the admissibility tolerance |
| a side of a row that counts | it holds up to the tolerance |
| a coefficient | it is whole or not taken for an integer |

Whole bounds are left where they are by the roundings, so that the tolerance does not add up.
-/

import MipShrink.Proofs.Reduction.Bounds
import MipShrink.Proofs.Throughout.Representation
import MipShrink.Proofs.Tolerance.Rounding

namespace MipShrink

open Rational

/-- The admissibility tolerance is below one and leaves room for two feasibility tolerances. -/
structure Tolerance.Graded (t : Tolerance Rat) : Prop where
  nonneg : t.Nonneg
  double : 2 * t.feasibility ≤ t.admissibility
  small : t.admissibility < 1

variable {t : Tolerance Rat}

/-! ### Columns -/

namespace Column

/-- The value satisfies the bounds and is whole if it has to be. -/
structure SolvedBy (v : Rat) (c : Column Rat) : Prop where
  lower : ∀ l ∈ c.lower?, l ≤ v
  upper : ∀ u ∈ c.upper?, v ≤ u
  integral : c.isIntegral = true → whole v = true

/-- The parts of being solved by a value, side by side. -/
theorem solvedBy_iff (v : Rat) (c : Column Rat) : c.SolvedBy v ↔
    (∀ l ∈ c.lower?, l ≤ v) ∧ (∀ u ∈ c.upper?, v ≤ u) ∧ (c.isIntegral = true → whole v = true) :=
  ⟨fun h => ⟨h.lower, h.upper, h.integral⟩, fun h => ⟨h.1, h.2.1, h.2.2⟩⟩

instance (v : Rat) (c : Column Rat) : Decidable (c.SolvedBy v) :=
  decidable_of_iff' _ (solvedBy_iff v c)

/-- The domain is a single value or wider than the admissibility tolerance. -/
def Separated (t : Tolerance Rat) (c : Column Rat) : Prop :=
  ∀ l ∈ c.lower?, ∀ u ∈ c.upper?, l = u ∨ t.admissibility < u - l

instance (t : Tolerance Rat) (c : Column Rat) : Decidable (c.Separated t) :=
  inferInstanceAs (Decidable (∀ l ∈ c.lower?, ∀ u ∈ c.upper?, l = u ∨ t.admissibility < u - l))

/-- What is kept of a column to which the reference gives the value `v`. -/
structure Admits (t : Tolerance Rat) (v : Rat) (c : Column Rat) : Prop where
  lower : ∀ l ∈ c.lower?, l ≤ v ∨ whole l = true ∧ l ≤ v + t.feasibility
  upper : ∀ u ∈ c.upper?, v ≤ u ∨ whole u = true ∧ v ≤ u + t.feasibility
  width : ∀ l ∈ c.lower?, ∀ u ∈ c.upper?, l = v ∧ u = v ∨ t.admissibility < u - l
  integral : c.isIntegral = true → whole v = true

variable {v : Rat} {c : Column Rat}

/-- A column that is solved admits the value, if its bounds are separated. -/
theorem SolvedBy.admits (h : c.SolvedBy v) (separated : c.Separated t) : c.Admits t v where
  lower l left := .inl (h.lower l left)
  upper u right := .inl (h.upper u right)
  width l left u right := by
    refine (separated l left u right).imp_left fun same => ?_
    have below := h.lower l left
    have above := h.upper u right
    grind
  integral := h.integral

/-- Rounding the bounds leaves a column integral or not. -/
theorem isIntegral_roundBounds (tol : Rat) (c : Column Rat) :
    (Reduction.roundBounds tol c).isIntegral = c.isIntegral := by
  unfold Reduction.roundBounds
  dsimp only
  split <;> split <;> rfl

namespace Admits

/-- A column that is put at the value of the reference. -/
theorem of_single (integral : c.isIntegral = true → whole v = true) (lower : c.lower? = some v)
    (upper : c.upper? = some v) : c.Admits t v where
  lower l left := by
    obtain rfl := Option.some.inj (lower.symm.trans left)
    exact .inl Rat.le_refl
  upper u right := by
    obtain rfl := Option.some.inj (upper.symm.trans right)
    exact .inl Rat.le_refl
  width l left u right :=
    .inl ⟨Option.some.inj (left.symm.trans lower), Option.some.inj (right.symm.trans upper)⟩
  integral := integral

/-- A domain admits the value to which it collapses. -/
theorem collapse (h : c.Admits t v) : (c.collapse v).Admits t v :=
  of_single h.integral rfl rfl

/-- A column admits the value at which it is fixed. -/
theorem fixColumn (h : c.Admits t v) : (Reduction.fixColumn v c).Admits t v :=
  of_single h.integral rfl rfl

/-- The cost does not matter for the values that a column admits. -/
theorem setCost (h : c.Admits t v) (x : Rat) : (c.setCost x).Admits t v :=
  ⟨h.lower, h.upper, h.width, h.integral⟩

/-- A domain that is taken for a single value is the value of the reference. -/
theorem lower?_of_isCollapsed (h : c.Admits t v)
    (collapsed : c.isCollapsed t.admissibility = true) : c.lower? = some v := by
  obtain ⟨l, u, lower, upper, same⟩ := isCollapsed_iff.1 collapsed
  rcases h.width l lower u upper with ⟨here, -⟩ | wide
  · rw [lower, here]
  · obtain ⟨-, close⟩ := same_iff.1 same
    exact absurd wide (Rat.not_lt.2 close)

/-- A domain that is not taken for a single value is wide. -/
theorem wide_of_not_isCollapsed (h : c.Admits t v) (graded : t.Graded)
    (open' : c.isCollapsed t.admissibility = false) {l u : Rat} (lower : l ∈ c.lower?)
    (upper : u ∈ c.upper?) : t.admissibility < u - l := by
  refine (h.width l lower u upper).resolve_left fun single => ?_
  have same : Within.same t.admissibility l u = true := by
    rw [single.1, single.2]
    exact same_self graded.nonneg.admissibility v
  rw [isCollapsed_iff.2 ⟨l, u, lower, upper, same⟩] at open'
  exact absurd open' Bool.noConfusion

/-- Rounding the bounds outward keeps the value admitted. -/
theorem roundBounds (h : c.Admits t v) (graded : t.Graded)
    (open' : c.isCollapsed t.admissibility = false) :
    (Reduction.roundBounds t.feasibility c).Admits t v := by
  have nonneg := graded.nonneg.feasibility
  have double := graded.double
  have small := graded.small
  have tiny : t.feasibility < 1 := by grind
  constructor
  case lower =>
    rw [lower?_roundBounds]
    intro l' left
    obtain ⟨l, finite, rfl⟩ := Option.map_eq_some_iff.1 left
    rcases h.lower l finite with exact | ⟨integer, near⟩
    · have below := floor_le t.feasibility l
      exact .inr ⟨whole_floor .., by grind⟩
    · rw [floor_of_whole nonneg tiny integer]
      exact .inr ⟨integer, near⟩
  case upper =>
    rw [upper?_roundBounds]
    intro u' right
    obtain ⟨u, finite, rfl⟩ := Option.map_eq_some_iff.1 right
    rcases h.upper u finite with exact | ⟨integer, near⟩
    · have above := le_ceil t.feasibility u
      exact .inr ⟨whole_ceil .., by grind⟩
    · rw [ceil_of_whole nonneg tiny integer]
      exact .inr ⟨integer, near⟩
  case width =>
    rw [lower?_roundBounds, upper?_roundBounds]
    intro l' left u' right
    obtain ⟨l, finite, rfl⟩ := Option.map_eq_some_iff.1 left
    obtain ⟨u, finite', rfl⟩ := Option.map_eq_some_iff.1 right
    -- A domain that is not collapsed is so wide that its rounded ends stay apart.
    have wide := h.wide_of_not_isCollapsed graded open' finite finite'
    have apart : 2 * t.feasibility < u - l := by grind
    have step := floor_add_one_le_ceil apart
    exact .inr (by grind)
  case integral =>
    rw [isIntegral_roundBounds]
    exact h.integral

/-- Making a column integral keeps the value admitted. -/
theorem roundColumn (h : c.Admits t v) (graded : t.Graded) :
    (Reduction.roundColumn t c).Admits t v := by
  have rounded : (c.setCost (Scalar.round c.cost)).Admits t v := h.setCost _
  unfold Reduction.roundColumn
  dsimp only
  split
  · exact rounded
  · rename_i open'
    exact rounded.roundBounds graded (Bool.eq_false_iff.2 open')

/-- A column whose value is admitted is not violated. -/
theorem violatesColumn_eq_false (h : c.Admits t v) (graded : t.Graded) :
    Solution.violatesColumn t.feasibility v c = false := by
  have nonneg := graded.nonneg.feasibility
  refine violatesColumn_eq_false_iff.2 ⟨fun l left => ?_, fun u right => ?_, fun integer => ?_⟩
  · rcases h.lower l left with exact | ⟨-, near⟩ <;> grind
  · rcases h.upper u right with exact | ⟨-, near⟩ <;> grind
  · exact integral_of_whole nonneg (h.integral integer)

end Admits
end Column

/-! ### Rows -/

namespace Row

/-- The point satisfies the sides. -/
structure SolvedBy (x : List Rat) (r : Row Rat) : Prop where
  lhs : ∀ l ∈ r.lhs?, l ≤ r.activity x
  rhs : ∀ u ∈ r.rhs?, r.activity x ≤ u

/-- The parts of being solved by a point, side by side. -/
theorem solvedBy_iff (x : List Rat) (r : Row Rat) : r.SolvedBy x ↔
    (∀ l ∈ r.lhs?, l ≤ r.activity x) ∧ ∀ u ∈ r.rhs?, r.activity x ≤ u :=
  ⟨fun h => ⟨h.lhs, h.rhs⟩, fun h => ⟨h.1, h.2⟩⟩

instance (x : List Rat) (r : Row Rat) : Decidable (r.SolvedBy x) :=
  decidable_of_iff' _ (solvedBy_iff x r)

/-- The coefficients are whole or not taken for integers. -/
def Separated (t : Tolerance Rat) (r : Row Rat) : Prop :=
  ∀ e ∈ r.coeffs, whole e.2 = true ∨ Within.integral t.epsilon e.2 = false

instance (t : Tolerance Rat) (r : Row Rat) : Decidable (r.Separated t) :=
  inferInstanceAs
    (Decidable (∀ e ∈ r.coeffs, whole e.2 = true ∨ Within.integral t.epsilon e.2 = false))

/-- What is kept of a row under the reference point. -/
structure Admits (t : Tolerance Rat) (x : List Rat) (r : Row Rat) : Prop where
  lhs : r.isRedundant = false → ∀ l ∈ r.lhs?, l ≤ r.activity x + t.feasibility
  rhs : r.isRedundant = false → ∀ u ∈ r.rhs?, r.activity x ≤ u + t.feasibility
  separated : r.Separated t

variable {x : List Rat} {r : Row Rat}

/-- **At a point that gives whole values to integral columns a row becomes an equation at its
activity**: rounding leaves it alone, because it is only done when everything is whole. -/
theorem sideValue_eq_activity {s : Scope Rat} {p : Problem Rat}
    (separated : r.Separated s.tolerance) (point : s.solution.point? p.ncols = some x)
    (values : ∀ j, p.columnHas j Column.isIntegral = true → whole (x.getD j 0) = true) :
    Reduction.sideValue s p r = r.activity x := by
  unfold Reduction.sideValue
  rw [point]
  dsimp only
  split
  · rename_i integral
    have all : ∀ e ∈ r.coeffs, p.columnHas e.1 Column.isIntegral = true ∧
        Within.integral s.tolerance.epsilon e.2 = true := fun e mem =>
      Bool.and_eq_true_iff.1 (List.all_eq_true.1 integral e mem)
    refine round_of_whole (whole_activity (fun e mem => ?_) fun e mem => values _ (all e mem).1)
    refine (separated e mem).resolve_right fun fractional => ?_
    rw [(all e mem).2] at fractional
    exact absurd fractional Bool.noConfusion
  · rfl

namespace Admits

/-- A redundant row admits the point as well. -/
theorem markRedundant (h : r.Admits t x) : (r.assignFlag .redundant true).Admits t x where
  lhs used := absurd used Bool.noConfusion
  rhs used := absurd used Bool.noConfusion
  separated := h.separated

/-- A row admits the point when a value of it is put in. -/
theorem putIn (h : r.Admits t x) (canonical : r.Canonical) (j : Nat) :
    (r.putIn j (x.getD j 0)).Admits t x where
  lhs used l' left := by
    rw [isRedundant_putIn] at used
    rw [lhs?_putIn] at left
    obtain ⟨l, finite, rfl⟩ := Option.map_eq_some_iff.1 left
    have near := h.lhs used l finite
    rw [activity_putIn canonical]
    grind
  rhs used u' right := by
    rw [isRedundant_putIn] at used
    rw [rhs?_putIn] at right
    obtain ⟨u, finite, rfl⟩ := Option.map_eq_some_iff.1 right
    have near := h.rhs used u finite
    rw [activity_putIn canonical]
    grind
  separated e mem := h.separated e (mem_putIn mem).1

/-- An equation at the activity. -/
theorem equate (h : r.Admits t x) (graded : t.Graded) {s : Scope Rat} {p : Problem Rat}
    (value : Reduction.sideValue s p r = r.activity x) : (Reduction.equate s p r).Admits t x := by
  have nonneg := graded.nonneg.feasibility
  have activity : (Reduction.equate s p r).activity x = r.activity x := rfl
  constructor
  case lhs =>
    intro _ l left
    obtain rfl : Reduction.sideValue s p r = l := Option.some.inj left
    rw [activity, value]
    grind
  case rhs =>
    intro _ u right
    obtain rfl : Reduction.sideValue s p r = u := Option.some.inj right
    rw [activity, value]
    grind
  case separated => exact h.separated

/-- The sides of a rounded row are outside of its activity, whatever they were before. -/
theorem makeIntegral (t : Tolerance Rat) (x : List Rat) (r : Row Rat) :
    (r.makeIntegral t.feasibility (some x)).Admits t x := by
  constructor
  case lhs =>
    intro _ l' left
    rw [lhs?_makeIntegral] at left
    obtain ⟨l, -, rfl⟩ := Option.map_eq_some_iff.1 left
    rw [activity_makeIntegral]
    have below := floor_le t.feasibility ((Reduction.roundCoeffs r).activity x)
    unfold Reduction.outwardLhs Scalar.least
    dsimp only [Option.map_some]
    split <;> grind
  case rhs =>
    intro _ u' right
    rw [rhs?_makeIntegral] at right
    obtain ⟨u, -, rfl⟩ := Option.map_eq_some_iff.1 right
    rw [activity_makeIntegral]
    have above := le_ceil t.feasibility ((Reduction.roundCoeffs r).activity x)
    unfold Reduction.outwardRhs Scalar.greatest
    dsimp only [Option.map_some]
    split <;> grind
  case separated =>
    intro e mem
    have exact := (exact_iff.1 (exact_makeIntegral t.feasibility (some x) r)).2.2
    exact .inl (exact e mem)

/-- A row that is admitted and counts is not violated. -/
theorem violatesRow_eq_false (h : r.Admits t x) (used : r.isRedundant = false) :
    Solution.violatesRow t.feasibility x r = false :=
  violatesRow_eq_false_iff.2 ⟨h.lhs used, h.rhs used⟩

end Admits
end Row

/-! ### Programs -/

namespace Problem

/-- The point satisfies everything that counts exactly, and is whole where it has to be. -/
structure SolvedBy (x : List Rat) (p : Problem Rat) : Prop where
  columns : ∀ e ∈ p.columns.zipIdx, e.1.SolvedBy (x.getD e.2 0)
  rows : ∀ r ∈ p.rows, r.isRedundant = false → r.SolvedBy x

/-- The parts of being solved by a point, side by side. -/
theorem solvedBy_iff (x : List Rat) (p : Problem Rat) : p.SolvedBy x ↔
    (∀ e ∈ p.columns.zipIdx, e.1.SolvedBy (x.getD e.2 0)) ∧
      ∀ r ∈ p.rows, r.isRedundant = false → r.SolvedBy x :=
  ⟨fun h => ⟨h.columns, h.rows⟩, fun h => ⟨h.1, h.2⟩⟩

instance (x : List Rat) (p : Problem Rat) : Decidable (p.SolvedBy x) :=
  decidable_of_iff' _ (solvedBy_iff x p)

/-- Numbers that are told apart are not too close. -/
structure Separated (t : Tolerance Rat) (p : Problem Rat) : Prop where
  columns : ∀ c ∈ p.columns, c.Separated t
  rows : ∀ r ∈ p.rows, r.Separated t

/-- The parts of being separated, side by side. -/
theorem separated_iff (t : Tolerance Rat) (p : Problem Rat) : p.Separated t ↔
    (∀ c ∈ p.columns, c.Separated t) ∧ ∀ r ∈ p.rows, r.Separated t :=
  ⟨fun h => ⟨h.columns, h.rows⟩, fun h => ⟨h.1, h.2⟩⟩

instance (t : Tolerance Rat) (p : Problem Rat) : Decidable (p.Separated t) :=
  decidable_of_iff' _ (separated_iff t p)

/-- What every change keeps under the reference point. -/
structure Admits (t : Tolerance Rat) (x : List Rat) (p : Problem Rat) : Prop where
  complete : x.length = p.ncols
  columns : ∀ (j : Nat) (c : Column Rat), p.columns[j]? = some c → c.Admits t (x.getD j 0)
  rows : ∀ r ∈ p.rows, r.Admits t x

variable {x : List Rat} {p : Problem Rat}

/-- A program that is solved admits the point, if its bounds and sides are separated. -/
theorem SolvedBy.admits (h : p.SolvedBy x) (graded : t.Graded) (complete : x.length = p.ncols)
    (separated : p.Separated t) : p.Admits t x where
  complete := complete
  columns j c place :=
    (h.columns (c, j) (List.mem_zipIdx_iff_getElem?.2 place)).admits
      (separated.columns c (List.mem_of_getElem? place))
  rows r mem := by
    have nonneg := graded.nonneg.feasibility
    refine ⟨fun used l left => ?_, fun used u right => ?_, separated.rows r mem⟩
    · have exact := (h.rows r mem used).lhs l left
      grind
    · have exact := (h.rows r mem used).rhs u right
      grind

namespace Admits

/-- The columns that have to be integral have whole values. -/
theorem whole_of_columnHas (h : p.Admits t x) (j : Nat)
    (integral : p.columnHas j Column.isIntegral = true) : whole (x.getD j 0) = true := by
  obtain ⟨c, place, integral⟩ := (Option.any_eq_true _ _).1 integral
  exact (h.columns j c place).integral integral

/-- A program admits the point if the changed row does. -/
theorem mapRow (h : p.Admits t x) (i : Nat) {f : Row Rat → Row Rat}
    (row : ∀ r, p.rows[i]? = some r → r.Admits t x → (f r).Admits t x) :
    (p.mapRow i f).Admits t x where
  complete := h.complete
  columns := h.columns
  rows := forall_mem_modify h.rows fun r place =>
    row r place (h.rows r (List.mem_of_getElem? place))

/-- The columns admit the point if the changed column does. -/
theorem columns_modify (h : p.Admits t x) (j : Nat) {f : Column Rat → Column Rat}
    (column : ∀ c, c.Admits t (x.getD j 0) → (f c).Admits t (x.getD j 0)) :
    ∀ (k : Nat) (c : Column Rat), (p.columns.modify j f)[k]? = some c →
      c.Admits t (x.getD k 0) := by
  intro k c' place'
  rw [List.getElem?_modify] at place'
  obtain ⟨c, place, rfl⟩ := Option.map_eq_some_iff.1 place'
  have before := h.columns k c place
  split
  · rename_i here
    subst here
    exact column c before
  · exact before

/-- A program admits the point if the changed column does. -/
theorem mapColumn (h : p.Admits t x) (j : Nat) {f : Column Rat → Column Rat}
    (column : ∀ c, c.Admits t (x.getD j 0) → (f c).Admits t (x.getD j 0)) :
    (p.mapColumn j f).Admits t x where
  complete := h.complete.trans (ncols_mapColumn j f p).symm
  columns := h.columns_modify j column
  rows := h.rows

/-- A column that is taken out has the value of the reference. -/
theorem eliminate (h : p.Admits t x) (canonical : p.Canonical) {j : Nat} {c : Column Rat}
    (place : p.columns[j]? = some c) (collapsed : c.isCollapsed t.admissibility = true) :
    (p.eliminate j).Admits t x := by
  have before := h.columns j c place
  have lower := before.lower?_of_isCollapsed collapsed
  have value : Reduction.singleValue c = x.getD j 0 := by
    have stored : c.lower = x.getD j 0 := by
      unfold Column.lower? at lower
      split at lower
      · cases lower
      · exact Option.some.inj lower
    unfold Reduction.singleValue
    rw [stored]
    split
    · rename_i integral
      exact round_of_whole (before.integral integral)
    · rfl
  unfold Problem.eliminate
  rw [place]
  dsimp only
  rw [value]
  constructor
  case complete => exact h.complete.trans (List.length_modify ..).symm
  case columns => exact h.columns_modify j fun c admits => admits.fixColumn
  case rows =>
    intro r' mem
    obtain ⟨r, before, rfl⟩ := List.mem_map.1 mem
    exact (h.rows r before).putIn (canonical.rows r before) j

/-- **A point that is admitted violates nothing.** -/
theorem violations_eq_nil (h : p.Admits t x) (graded : t.Graded) {s : Solution Rat}
    (point : s.point? p.ncols = some x) : s.violations t.feasibility p = [] := by
  unfold Solution.violations
  rw [point]
  dsimp only
  rw [List.append_eq_nil_iff, List.map_eq_nil_iff, List.map_eq_nil_iff, List.filter_eq_nil_iff,
    List.filter_eq_nil_iff]
  constructor
  · intro e mem violates
    obtain ⟨j, place⟩ := List.mem_iff_getElem?.1 mem
    obtain ⟨value, column⟩ := List.getElem?_zip_eq_some.1 place
    have admits := h.columns j e.2 column
    rw [List.getD_eq_getElem?_getD, value, Option.getD_some] at admits
    rw [admits.violatesColumn_eq_false graded] at violates
    exact absurd violates Bool.noConfusion
  · intro r mem violates
    obtain ⟨used, violates⟩ := Bool.and_eq_true_iff.1 violates
    rw [Bool.not_eq_true'] at used
    rw [(h.rows r mem).violatesRow_eq_false used] at violates
    exact absurd violates Bool.noConfusion

end Admits
end Problem

/-! ### Runs -/

/-- A feasible reference with a value for each column is a point. -/
theorem Solution.point?_eq_some {s : Solution Rat} (feasible : s.status = .feasible) {n : Nat}
    (complete : s.primal.length = n) : s.point? n = some s.primal := by
  unfold point? isFeasible
  rw [feasible, complete, beq_self_eq_true, beq_self_eq_true]
  rfl

/-- With a point a column is moved to the value of this point. -/
theorem Scope.valueOf_eq {s : Scope Rat} {p : Problem Rat} {x : List Rat}
    (admits : p.Admits t x) (point : s.solution.point? p.ncols = some x) (j : Nat) :
    s.valueOf j p = x.getD j 0 := by
  unfold valueOf
  rw [point]
  dsimp only
  split
  · rename_i integral
    exact round_of_whole (admits.whole_of_columnHas j integral)
  · rfl

/-- **Every change of an element keeps what is kept under the reference point.** -/
theorem ModuleKind.admits_of_step (k : ModuleKind) {target : Option Settings} {s : Scope Rat}
    {start : Problem Rat} {y z : Instance Rat} (graded : s.tolerance.Graded)
    (feasible : s.solution.status = .feasible) (canonical : y.problem.Canonical)
    (h : y.problem.Admits s.tolerance s.solution.primal)
    (step : (k.direct target s).Step start y z) :
    z.problem.Admits s.tolerance s.solution.primal := by
  have point := Solution.point?_eq_some feasible h.complete
  cases k with
  | constraint =>
    obtain ⟨i, -, rfl⟩ := step
    exact h.mapRow i fun _ _ => .markRedundant
  | collapse =>
    obtain ⟨j, -, rfl⟩ := step
    refine h.mapColumn j fun c admits => ?_
    have value : s.valueOf j (Draft.ofInstance y).problem = _ := Scope.valueOf_eq h point j
    rw [value]
    exact admits.collapse
  | objective =>
    obtain ⟨j, -, rfl⟩ := step
    exact h.mapColumn j fun _ admits => admits.setCost 0
  | side =>
    obtain ⟨i, -, rfl⟩ := step
    refine h.mapRow i fun r _ admits => admits.equate graded ?_
    exact Row.sideValue_eq_activity admits.separated point h.whole_of_columnHas
  | fixing =>
    obtain ⟨j, admissible, rfl⟩ := step
    obtain ⟨c, place, single⟩ := (Option.any_eq_true _ _).1 admissible
    exact h.eliminate canonical place (Bool.and_eq_true_iff.1 single).2
  | coefficient =>
    obtain ⟨e, -, rfl⟩ := step
    refine h.mapRow e.1 fun r place admits => ?_
    rw [Scope.valueOf_eq h point]
    exact admits.putIn (canonical.row place) e.2
  | varround =>
    obtain ⟨j, -, rfl⟩ := step
    exact h.mapColumn j fun _ admits => admits.roundColumn graded
  | consround =>
    obtain ⟨i, -, rfl⟩ := step
    refine h.mapRow i fun r _ _ => ?_
    rw [point]
    exact .makeIntegral ..
  | setting =>
    obtain ⟨e, -, rfl⟩ := step
    cases target <;> exact h

/-- No change of an element loses a feasible reference. -/
theorem Scope.keeps_admits {s : Scope Rat} (graded : s.tolerance.Graded)
    (feasible : s.solution.status = .feasible) (target : Option Settings) :
    s.Keeps target fun x => x.problem.Admits s.tolerance s.solution.primal :=
  fun k _ _ _ canonical h step => k.admits_of_step graded feasible canonical h step

namespace Run

/-- **The reference stays feasible throughout a run.**  It stays a point, with a value for each
column, and violates nothing in the program of any instance that the oracle is asked about or that a
call leaves behind. -/
theorem feasible_throughout {ω : Type} {i : Instance Rat} {params : Parameters}
    (canonical : i.problem.Canonical)
    (double : 2 * (params.tolerance : Tolerance Rat).feasibility ≤ params.tolerance.admissibility)
    (small : (params.tolerance : Tolerance Rat).admissibility < 1)
    (feasible : i.solution.status = .feasible)
    (complete : i.solution.primal.length = i.problem.ncols)
    (solved : i.problem.SolvedBy i.solution.primal)
    (separated : i.problem.Separated params.tolerance) (o : Oracle Rat ω)
    (target : Option Settings) (s : RunState) (session : Session Rat ω) :
    Throughout (fun x => i.solution.point? x.problem.ncols = some i.solution.primal ∧
      i.solution.violations params.tolerance.feasibility x.problem = [])
      o params target s i session := by
  have graded : (params.tolerance : Tolerance Rat).Graded :=
    ⟨Tolerance.nonneg_tolerance params, double, small⟩
  have keeps := Scope.keeps_admits (s := Scope.ofRun params i) graded feasible target
  have begun := solved.admits graded complete separated
  refine (holds_throughout o s session canonical keeps begun).imp fun x upholds => ?_
  have point := Solution.point?_eq_some feasible upholds.holds.complete
  exact ⟨point, upholds.holds.violations_eq_nil graded point⟩

/-- Two columns, one of them integral, in a row that the reference point satisfies with its
right-hand side. -/
def tilted : Instance Rat :=
  { settings := {}
    problem :=
      { name := "tilted", sense := .minimize, offset := 0
        columns :=
          [{ name := "x", cost := 1, lower := 1 / 2, upper := 7 / 2, flags := {} },
            { name := "y", cost := 0, lower := 0, upper := 4, flags := { integral := true } }]
        rows :=
          [{ name := "r", coeffs := [(0, 1 / 3), (1, 2)], lhs := 1, rhs := 9 / 2, flags := {} }] }
    solution := { status := .feasible, primal := [3 / 2, 2], ray := [] } }

/-- The defect shows as long as the row has its coefficients and the first domain has room. -/
def showsFirstDomain (i : Instance Rat) : Answer :=
  let kept := (i.problem.rowHas 0 fun r => !r.isRedundant && r.coeffs.length == 2) &&
    i.problem.columnHas 0 fun c => !c.isCollapsed 0
  { retcode := ⟨if kept then 1 else 0⟩, status := .unknown, effort := 1 }

/-- The first domain is rounded outward, the second one and the row are put at the values of the
reference, and the reference is feasible all the time. -/
theorem feasible_throughout_tilted :
    let o := Oracle.ofFunction showsFirstDomain
    let final :=
      (reduce o .standard none (.start .standard) tilted (.start () .empty)).2.inst.problem
    (final.columns.map fun c => (c.lower?, c.upper?)) = [(some 0, some 4), (some 2, some 2)] ∧
      (final.rows.map fun r => (r.lhs?, r.rhs?)) = [(some (9 / 2), some (9 / 2))] ∧
      Throughout (fun x => tilted.solution.point? x.problem.ncols = some [3 / 2, 2] ∧
        tilted.solution.violations Parameters.standard.tolerance.feasibility x.problem = [])
        o .standard none (.start .standard) tilted (.start () .empty) :=
  ⟨by decide +kernel, by decide +kernel,
    feasible_throughout (by decide +kernel) (by decide +kernel) (by decide +kernel) rfl rfl
      (by decide +kernel) (by decide +kernel) _ none _ _⟩

end Run
end MipShrink
