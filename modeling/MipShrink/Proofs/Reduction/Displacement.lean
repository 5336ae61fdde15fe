/-
# What fixing a column does to the reference

A column is fixed if its domain is a single value up to the admissibility tolerance, which is
coarser than the feasibility tolerance, and the value is then put in everywhere.  A reference point
that has another value in the domain is *displaced*: its value of the column differs from the fixed
one, and against the sides of each row its activity moves by the difference times the coefficient.

The column is violated afterwards if the difference is beyond the feasibility tolerance, and a row
if its activity moves out of its sides by more than this tolerance (`Reduction.violations_fixing`).
Small as the difference is, nothing bounds the coefficients.
-/

import MipShrink.Proofs.Problem.Compression
import MipShrink.Proofs.Throughout.Feasibility

namespace MipShrink

open Rational

/-- The one place at which something can be selected. -/
theorem filter_eq_of_unique {β : Type} {g : β → Bool} {l : List β} {j : Nat} {a : β}
    (place : l[j]? = some a) (others : ∀ k b, k ≠ j → l[k]? = some b → g b = false) :
    l.filter g = if g a then [a] else [] := by
  induction l generalizing j with
  | nil => simp at place
  | cons b l ih =>
    cases j with
    | zero =>
      obtain rfl : b = a := Option.some.inj place
      have rest : l.filter g = [] := by
        refine List.filter_eq_nil_iff.2 fun c mem => ?_
        obtain ⟨k, found⟩ := List.getElem?_of_mem mem
        exact Bool.eq_false_iff.1 (others (k + 1) c (Nat.succ_ne_zero k) found)
      rw [List.filter_cons, rest]
    | succ j =>
      have passed : g b = false := others 0 b (Nat.succ_ne_zero j).symm rfl
      have later := ih place fun k c ne found =>
        others (k + 1) c (fun same => ne (Nat.succ.inj same)) found
      rw [List.filter_cons, passed, later]
      rfl

namespace Rational

/-- Rounding moves a number by one half at most. -/
theorem round_near (a : Rat) : a - 1 / 2 ≤ Scalar.round a ∧ Scalar.round a ≤ a + 1 / 2 := by
  show a - 1 / 2 ≤ Rational.round a ∧ Rational.round a ≤ a + 1 / 2
  unfold Rational.round
  split
  · have least : a - 1 / 2 ≤ ((a - 1 / 2).ceil : Rat) := Rat.le_ceil
    have small : ((a - 1 / 2).ceil : Rat) < a - 1 / 2 + 1 := Rat.ceil_lt
    exact ⟨least, by grind⟩
  · have greatest : ((a + 1 / 2).floor : Rat) ≤ a + 1 / 2 := Rat.floor_le _
    have large : a + 1 / 2 < ((a + 1 / 2).floor + 1 : Int) := Rat.lt_floor_add_one _
    rw [Rat.intCast_add, Rat.intCast_one] at large
    exact ⟨by grind, greatest⟩

/-- A number that is less than one half away from a whole one is rounded to it. -/
theorem round_of_near {a b : Rat} (integer : whole b = true) (below : b - 1 / 2 < a)
    (above : a < b + 1 / 2) : Scalar.round a = b := by
  obtain ⟨least, greatest⟩ := round_near a
  refine Rat.le_antisymm (le_of_lt_add_one (whole_round a) integer ?_)
    (le_of_lt_add_one integer (whole_round a) ?_)
  · grind
  · grind

end Rational

/-! ### Columns -/

namespace Column

variable {c : Column Rat} {tol v w : Rat}

/-- A column that is solved by a value is not violated by it. -/
theorem SolvedBy.violatesColumn_eq_false (h : c.SolvedBy v) (nonneg : 0 ≤ tol) :
    Solution.violatesColumn tol v c = false := by
  refine violatesColumn_eq_false_iff.2 ⟨fun l left => ?_, fun u right => ?_, fun integer => ?_⟩
  · have le := h.lower l left
    grind
  · have le := h.upper u right
    grind
  · exact integral_of_whole nonneg (h.integral integer)

/-- A column that was fixed is violated by a value that is not the fixed one up to the tolerance. -/
theorem violatesColumn_fixColumn (nonneg : 0 ≤ tol)
    (integral : c.isIntegral = true → whole w = true) :
    Solution.violatesColumn tol w (Reduction.fixColumn v c) = !Within.same tol w v := by
  have satisfied : Solution.violatesColumn tol w (Reduction.fixColumn v c) = false ↔
      Within.same tol w v = true := by
    rw [Column.violatesColumn_eq_false_iff, same_iff]
    constructor
    · rintro ⟨below, above, -⟩
      have below := below v rfl
      have above := above v rfl
      exact ⟨by grind, by grind⟩
    · rintro ⟨above, below⟩
      refine ⟨fun l left => ?_, fun u right => ?_, fun integer => ?_⟩
      · have value : v = l := Option.some.inj left
        grind
      · have value : v = u := Option.some.inj right
        grind
      · exact integral_of_whole nonneg (integral integer)
  cases same : Within.same tol w v with
  | true => exact satisfied.2 same
  | false =>
    rw [same, ← not_iff_not, Bool.not_eq_false] at satisfied
    exact satisfied.2 Bool.false_ne_true

/-- The two ends of a domain that is taken for a single value. -/
theorem ends_of_isCollapsed (h : c.isCollapsed tol = true) : c.lower? = some c.lower ∧
    c.upper? = some c.upper ∧ Within.same tol c.lower c.upper = true := by
  obtain ⟨name, cost, lower, upper, ⟨lbInf, ubInf, _, _, _, _⟩⟩ := c
  cases lbInf with
  | true => cases h
  | false =>
    cases ubInf with
    | true => cases h
    | false => exact ⟨rfl, rfl, h⟩

/-- A value of a domain that is taken for a single one is at most the tolerance above this one. -/
theorem SolvedBy.near_singleValue (h : c.SolvedBy v) (single : c.isCollapsed tol = true)
    (fractional : c.isIntegral = false) :
    0 ≤ v - Reduction.singleValue c ∧ v - Reduction.singleValue c ≤ tol := by
  obtain ⟨lower, upper, same⟩ := ends_of_isCollapsed single
  have above := h.lower _ lower
  have below := h.upper _ upper
  have near := (same_iff.1 same).2
  unfold Reduction.singleValue
  rw [fractional, if_neg Bool.false_ne_true]
  exact ⟨by grind, by grind⟩

/-- If the bounds are equal, or a whole value is near enough to be rounded to, it is this one. -/
theorem SolvedBy.singleValue_eq (h : c.SolvedBy v) (single : c.isCollapsed tol = true)
    (exact : c.lower = c.upper ∨ c.isIntegral = true ∧ tol < 1 / 2) :
    Reduction.singleValue c = v := by
  obtain ⟨lower, upper, same⟩ := ends_of_isCollapsed single
  have above := h.lower _ lower
  have below := h.upper _ upper
  unfold Reduction.singleValue
  rcases exact with equal | ⟨integer, small⟩
  · have value : c.lower = v := by grind
    split
    · rename_i integer
      rw [value]
      exact round_of_whole (h.integral integer)
    · exact value
  · have near := (same_iff.1 same).2
    rw [if_pos integer]
    exact round_of_near (h.integral integer) (by grind) (by grind)

end Column

/-! ### Rows -/

namespace Row

variable {r : Row Rat}

/-- Is the row violated when its activity at the point falls by `shift` against its sides? -/
def tips (tol shift : Rat) (x : List Rat) (r : Row Rat) : Bool :=
  (r.lhs?.any fun l => decide (r.activity x - l + tol < shift)) ||
    r.rhs?.any fun u => decide (shift < r.activity x - u - tol)

/-- What a difference is worth is the difference of what its parts are worth. -/
theorem worth_sub (j : Nat) (v w : Rat) (r : Row Rat) :
    r.worth j (v - w) = r.worth j v - r.worth j w := by
  unfold worth
  cases r.coeff? j with
  | none => exact (by decide +kernel : (0 : Rat) = 0 - 0)
  | some a => exact (by grind : a * (v - w) = a * v - a * w)

/-- Zero is worth nothing. -/
theorem worth_zero (j : Nat) (r : Row Rat) : r.worth j 0 = 0 := by
  unfold worth
  cases r.coeff? j with
  | none => rfl
  | some a => exact Rat.mul_zero a

/-- **A row in which a value is put in that the point does not have.** -/
theorem violatesRow_putIn (canonical : r.Canonical) (tol : Rat) (x : List Rat) (j : Nat) (v : Rat) :
    Solution.violatesRow tol x (r.putIn j v) = r.tips tol (r.worth j (x.getD j 0 - v)) x := by
  rw [violatesRow_eq_room, lhs?_putIn, rhs?_putIn, activity_putIn canonical, worth_sub]
  unfold tips
  rw [Option.map_map, Option.map_map, Option.any_map, Option.any_map]
  refine congr (congrArg or (congrArg (Option.any · r.lhs?) (funext fun l => ?_)))
    (congrArg (Option.any · r.rhs?) (funext fun u => ?_))
  · simp only [Function.comp]
    rw [Bool.eq_iff_iff]
    simp only [Bool.not_eq_true', decide_eq_false_iff_not, decide_eq_true_iff]
    grind
  · simp only [Function.comp]
    rw [Bool.eq_iff_iff]
    simp only [Bool.not_eq_true', decide_eq_false_iff_not, decide_eq_true_iff]
    grind

/-- A row that the point satisfies is not tipped when nothing moves. -/
theorem SolvedBy.tips_zero {x : List Rat} {tol : Rat} (h : r.SolvedBy x) (nonneg : 0 ≤ tol) :
    r.tips tol 0 x = false := by
  unfold tips
  rw [Bool.or_eq_false_iff, Option.any_eq_false, Option.any_eq_false]
  refine ⟨fun l left => ?_, fun u right => ?_⟩
  · have le := h.lhs l left
    exact decide_eq_false (by grind)
  · have le := h.rhs u right
    exact decide_eq_false (by grind)

end Row

/-! ### Programs -/

namespace Problem

variable {p : Problem Rat} {x : List Rat} {tol : Rat} {j : Nat} {c : Column Rat}

/-- Of the columns only the fixed one can be violated. -/
theorem filter_columns_modify (nonneg : 0 ≤ tol) (complete : x.length = p.ncols)
    (solved : p.SolvedBy x) (place : p.columns[j]? = some c) (v : Rat) :
    (((x.zip (p.columns.modify j (Reduction.fixColumn v))).filter fun e =>
        Solution.violatesColumn tol e.1 e.2).map fun e => e.2.name) =
      if Within.same tol (x.getD j 0) v then [] else [c.name] := by
  have value {k : Nat} {a : Rat} (found : x[k]? = some a) : x.getD k 0 = a := by
    rw [List.getD_eq_getElem?_getD, found, Option.getD_some]
  have solves {k : Nat} {d : Column Rat} (found : p.columns[k]? = some d) :
      d.SolvedBy (x.getD k 0) :=
    solved.columns (d, k) (List.mem_zipIdx_iff_getElem?.2 found)
  have inRange : j < x.length := complete ▸ (List.getElem?_eq_some_iff.1 place).1
  have own : x[j]? = some (x.getD j 0) := by
    rw [List.getD_eq_getElem?_getD, List.getElem?_eq_getElem inRange, Option.getD_some]
  have fixed : (p.columns.modify j (Reduction.fixColumn v))[j]? =
      some (Reduction.fixColumn v c) := by
    rw [List.getElem?_modify_eq, place]
    rfl
  -- the point solves all other columns, so that only the pair at place `j` can be selected
  have pair : (x.zip (p.columns.modify j (Reduction.fixColumn v)))[j]? =
      some (x.getD j 0, Reduction.fixColumn v c) := List.getElem?_zip_eq_some.2 ⟨own, fixed⟩
  rw [filter_eq_of_unique pair fun k e ne found => ?_]
  · rw [Column.violatesColumn_fixColumn nonneg (solves place).integral]
    cases Within.same tol (x.getD j 0) v <;> rfl
  · obtain ⟨here, column⟩ := List.getElem?_zip_eq_some.1 found
    rw [List.getElem?_modify_ne _ _ (Ne.symm ne)] at column
    have solves := solves column
    rw [value here] at solves
    exact solves.violatesColumn_eq_false nonneg

/-- The rows that are tipped are those that are violated afterwards. -/
theorem filter_rows_putIn (canonical : p.Canonical) (tol : Rat) (x : List Rat) (j : Nat) (v : Rat) :
    ((p.rows.map (Row.putIn j v)).filter fun r =>
        !r.isRedundant && Solution.violatesRow tol x r).map Row.name =
      (p.rows.filter fun r =>
        !r.isRedundant && r.tips tol (r.worth j (x.getD j 0 - v)) x).map Row.name := by
  have names : Row.name ∘ Row.putIn j v = Row.name := funext fun r => Row.name_putIn j v r
  rw [List.filter_map, List.map_map, names]
  refine congrArg (List.map Row.name) (List.filter_congr fun r mem => ?_)
  simp only [Function.comp, Row.isRedundant_putIn, Row.violatesRow_putIn (canonical.rows r mem)]

/-- **What a point violates after a column was eliminated**, if it satisfied the program before. -/
theorem violations_eliminate (nonneg : 0 ≤ tol) (canonical : p.Canonical) {s : Solution Rat}
    (point : s.point? p.ncols = some x) (solved : p.SolvedBy x) (place : p.columns[j]? = some c) :
    s.violations tol (p.eliminate j) =
      (if Within.same tol (x.getD j 0) (Reduction.singleValue c) then [] else [c.name]) ++
        (p.rows.filter fun r => !r.isRedundant &&
          r.tips tol (r.worth j (x.getD j 0 - Reduction.singleValue c)) x).map Row.name := by
  have ncols : (p.eliminate j).ncols = p.ncols := by
    unfold eliminate
    rw [place]
    exact List.length_modify ..
  unfold Solution.violations
  rw [ncols, point]
  unfold eliminate
  rw [place]
  exact congr (congrArg HAppend.hAppend
    (filter_columns_modify nonneg (Solution.length_of_point? point) solved place _))
    (filter_rows_putIn canonical tol x j _)

/-- A point that has the fixed value is not displaced, and violates nothing. -/
theorem violations_eliminate_eq_nil (nonneg : 0 ≤ tol) (canonical : p.Canonical) {s : Solution Rat}
    (point : s.point? p.ncols = some x) (solved : p.SolvedBy x) (place : p.columns[j]? = some c)
    (value : Reduction.singleValue c = x.getD j 0) : s.violations tol (p.eliminate j) = [] := by
  rw [violations_eliminate nonneg canonical point solved place, value, same_self nonneg,
    if_pos rfl, List.nil_append, List.map_eq_nil_iff, List.filter_eq_nil_iff]
  intro r mem violated
  obtain ⟨used, tipped⟩ := Bool.and_eq_true_iff.1 violated
  rw [Bool.not_eq_true'] at used
  rw [Rat.sub_self, Row.worth_zero, (solved.rows r mem used).tips_zero nonneg] at tipped
  cases tipped

end Problem

/-! ### The reduction -/

namespace Reduction

/-- Fixing a column and flushing eliminates it. -/
theorem problem_flush_fixing (s : Scope Rat) {i : Instance Rat} (canonical : i.problem.Canonical)
    (j : Nat) :
    ((fixing s).apply j (Draft.ofInstance i)).flush.problem = i.problem.eliminate j := by
  have idle : (Draft.ofInstance i).pending = [] := rfl
  exact congrArg Instance.problem ((buffers_fixing s).apply i.solution
    (Draft.sound_of_pending_eq_nil canonical idle) (Draft.fresh_of_pending_eq_nil idle j))

/-- **Fixing a column may displace the reference.**  Let a reference point satisfy a program
exactly, and let `delta` be the difference of its value for an admissible column from the value at
which the column is fixed.  Afterwards the point violates the column if `delta` is beyond the
feasibility tolerance, and those rows of which the activity moves out of the sides by more than this
tolerance when it falls by the coefficient times `delta`; and it violates nothing else.

If the column is not integral, then `delta` is at most the admissibility tolerance.  If its bounds
are equal, or if it is integral and the admissibility tolerance is below one half, then `delta` is
zero, and nothing is violated. -/
theorem violations_fixing {s : Scope Rat} (nonneg : s.tolerance.Nonneg) {i : Instance Rat}
    (canonical : i.problem.Canonical) {x : List Rat}
    (point : i.solution.point? i.problem.ncols = some x) (solved : i.problem.SolvedBy x) {j : Nat}
    {c : Column Rat} (place : i.problem.columns[j]? = some c)
    (admissible : (fixing s).admissible i.problem (Draft.ofInstance i) j = true) :
    let tol := s.tolerance.feasibility
    let p := ((fixing s).apply j (Draft.ofInstance i)).flush.problem
    let delta := x.getD j 0 - singleValue c
    i.solution.violations tol p =
        (if Within.same tol (x.getD j 0) (singleValue c) then [] else [c.name]) ++
          (i.problem.rows.filter fun r =>
            !r.isRedundant && r.tips tol (r.worth j delta) x).map Row.name ∧
      (c.isIntegral = false → 0 ≤ delta ∧ delta ≤ s.tolerance.admissibility) ∧
      (c.lower = c.upper ∨ c.isIntegral = true ∧ s.tolerance.admissibility < 1 / 2 →
        i.solution.violations tol p = []) := by
  intro tol p delta
  have single : c.isCollapsed s.tolerance.admissibility = true := by
    obtain ⟨c', place', tested⟩ := (Option.any_eq_true _ _).1 admissible
    obtain rfl := Option.some.inj (place.symm.trans place')
    exact (Bool.and_eq_true_iff.1 tested).2
  have own : c.SolvedBy (x.getD j 0) :=
    solved.columns (c, j) (List.mem_zipIdx_iff_getElem?.2 place)
  have eliminated : p = i.problem.eliminate j := problem_flush_fixing s canonical j
  rw [eliminated]
  exact ⟨Problem.violations_eliminate nonneg.feasibility canonical point solved place,
    own.near_singleValue single,
    fun exact => Problem.violations_eliminate_eq_nil nonneg.feasibility canonical point solved place
      (own.singleValue_eq single exact)⟩

/-- A column that is wider than the feasibility tolerance and no wider than the admissibility
tolerance, with its upper bound as reference and a large coefficient, and an integral column of
which one bound is just not whole. -/
def narrow : Instance Rat :=
  { settings := {}
    problem :=
      { name := "narrow", sense := .minimize, offset := 0
        columns :=
          [{ name := "x", cost := 0, lower := 0, upper := 1 / 20000, flags := {} },
            { name := "y", cost := 0, lower := 19999 / 20000, upper := 1
              flags := { integral := true } }]
        rows :=
          [{ name := "r", coeffs := [(0, 1000), (1, 1)], lhs := 21 / 20, rhs := 0
             flags := { rhsInf := true } }] }
    solution := { status := .feasible, primal := [1 / 20000, 1], ray := [] } }

/-- The integral column is fixed at the value of the reference, which stays feasible. -/
theorem violations_fixing_narrow :
    let s : Scope Rat := Scope.ofRun .standard narrow
    let tol := s.tolerance.feasibility
    let p := ((fixing s).apply 1 (Draft.ofInstance narrow)).flush.problem
    narrow.solution.point? narrow.problem.ncols = some [1 / 20000, 1] ∧
      narrow.problem.SolvedBy [1 / 20000, 1] ∧
      (fixing s).admissible narrow.problem (Draft.ofInstance narrow) 1 = true ∧
      narrow.solution.violations tol p = [] := by
  intro s tol p
  have canonical : narrow.problem.Canonical := by decide +kernel
  have solved : narrow.problem.SolvedBy [1 / 20000, 1] := by decide +kernel
  have admissible : (fixing s).admissible narrow.problem (Draft.ofInstance narrow) 1 = true := by
    decide +kernel
  have fixed := violations_fixing (s := s) (Tolerance.nonneg_tolerance .standard) canonical rfl
    solved rfl admissible
  exact ⟨rfl, solved, admissible, fixed.2.2 (.inr ⟨rfl, by decide +kernel⟩)⟩

/-- **A reference may be lost.**  The other column is fixed at zero, and the reference violates both
this column and the row. -/
theorem violations_fixing_displaced :
    let s : Scope Rat := Scope.ofRun .standard narrow
    let tol := s.tolerance.feasibility
    let p := ((fixing s).apply 0 (Draft.ofInstance narrow)).flush.problem
    narrow.solution.point? narrow.problem.ncols = some [1 / 20000, 1] ∧
      narrow.problem.SolvedBy [1 / 20000, 1] ∧
      (fixing s).admissible narrow.problem (Draft.ofInstance narrow) 0 = true ∧
      narrow.solution.violations tol narrow.problem = [] ∧
      narrow.solution.violations tol p = ["x", "r"] := by
  decide +kernel

end Reduction
end MipShrink
