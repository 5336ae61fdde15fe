/-
# Implied sides are exact

The range of a row sums up what its columns contribute at the ends of their domains, and only
counts the ends that are infinite.  The sides that it implies are those that every point within the
finite bounds satisfies up to the tolerance, no more and no less (`Problem.impliesSides_iff`).

*Sound*, for every program: with each coefficient the range goes on enclosing the sum
(`RowActivity.Encloses.add`).

*Complete*, if no domain is empty and the row stores no zero and no column twice: the smallest value
of the sum is attained at a corner of the box, and if there is none, a point that goes to infinity
along one column falls below any bound (`Problem.exists_dot_eq`, `Problem.exists_dot_lt`).  The
largest value is the smallest one of the row with all signs changed.
-/

import MipShrink.Proofs.Reduction.Bounds
import MipShrink.Proofs.Throughout.Consistency

namespace MipShrink

/-! ### Boxes -/

namespace Column

/-- The bound at which a coefficient contributes the least. -/
def lowEnd (a : Rat) (c : Column Rat) : Option Rat :=
  if 0 < a then c.lower? else c.upper?

/-- The bound at which a coefficient contributes the most. -/
def highEnd (a : Rat) (c : Column Rat) : Option Rat :=
  if 0 < a then c.upper? else c.lower?

variable {c : Column Rat} {a v w : Rat}

/-- What is the most for a coefficient is the least for its negation. -/
theorem highEnd_eq (nonzero : a ≠ 0) (c : Column Rat) : c.highEnd a = c.lowEnd (-a) := by
  unfold highEnd lowEnd
  by_cases positive : 0 < a
  · rw [if_pos positive, if_neg (by grind)]
  · rw [if_neg positive, if_pos (by grind)]

/-- No value within the bounds contributes less than the low end. -/
theorem Contains.mul_lowEnd_le (h : c.Contains v) (finite : c.lowEnd a = some w) :
    a * w ≤ a * v := by
  unfold lowEnd at finite
  split at finite
  · exact Rat.mul_le_mul_of_nonneg_left (h.lower w finite) (by grind)
  · have flipped : -a * v ≤ -a * w := Rat.mul_le_mul_of_nonneg_left (h.upper w finite) (by grind)
    grind

/-- No value within the bounds contributes more than the high end. -/
theorem Contains.le_mul_highEnd (h : c.Contains v) (finite : c.highEnd a = some w) :
    a * v ≤ a * w := by
  unfold highEnd at finite
  split at finite
  · exact Rat.mul_le_mul_of_nonneg_left (h.upper w finite) (by grind)
  · have flipped : -a * w ≤ -a * v := Rat.mul_le_mul_of_nonneg_left (h.lower w finite) (by grind)
    grind

/-- If the bounds are in order, the lower one is within them. -/
theorem Consistent.contains_lower (h : c.Consistent) (finite : c.lower? = some w) :
    c.Contains w where
  lower l left := by
    obtain rfl := Option.some.inj (finite.symm.trans left)
    exact Rat.le_refl
  upper u right := h w finite u right

/-- If the bounds are in order, the upper one is within them. -/
theorem Consistent.contains_upper (h : c.Consistent) (finite : c.upper? = some w) :
    c.Contains w where
  lower l left := h l left w finite
  upper u right := by
    obtain rfl := Option.some.inj (finite.symm.trans right)
    exact Rat.le_refl

/-- If the bounds are in order, the low end is within them. -/
theorem Consistent.contains_lowEnd (h : c.Consistent) (finite : c.lowEnd a = some w) :
    c.Contains w := by
  unfold lowEnd at finite
  split at finite
  · exact h.contains_lower finite
  · exact h.contains_upper finite

/-- A domain whose bounds are in order is not empty. -/
theorem Consistent.exists_contains (h : c.Consistent) : ∃ v, c.Contains v := by
  obtain ⟨v, lower, upper⟩ := Ordered.exists_between h
  exact ⟨v, lower, upper⟩

/-- A column without lower bound takes values however small. -/
theorem exists_contains_le (infinite : c.lower? = none) (b : Rat) : ∃ v, c.Contains v ∧ v ≤ b := by
  have lower {v : Rat} : ∀ l ∈ c.lower?, l ≤ v := by simp [infinite]
  cases upper : c.upper? with
  | none => exact ⟨b, ⟨lower, by simp [upper]⟩, Rat.le_refl⟩
  | some u =>
    rcases (Rat.le_total : u ≤ b ∨ b ≤ u) with le | le
    · exact ⟨u, ⟨lower, by simp [upper]⟩, le⟩
    · exact ⟨b, ⟨lower, by simpa [upper] using le⟩, Rat.le_refl⟩

/-- A column without upper bound takes values however large. -/
theorem exists_contains_ge (infinite : c.upper? = none) (b : Rat) : ∃ v, c.Contains v ∧ b ≤ v := by
  have upper {v : Rat} : ∀ u ∈ c.upper?, v ≤ u := by simp [infinite]
  cases lower : c.lower? with
  | none => exact ⟨b, ⟨by simp [lower], upper⟩, Rat.le_refl⟩
  | some l =>
    rcases (Rat.le_total : b ≤ l ∨ l ≤ b) with le | le
    · exact ⟨l, ⟨by simp [lower], upper⟩, le⟩
    · exact ⟨b, ⟨by simpa [lower] using le, upper⟩, Rat.le_refl⟩

/-- A contribution without a least end falls below any bound. -/
theorem exists_contains_mul_lt (nonzero : a ≠ 0) (infinite : c.lowEnd a = none) (b : Rat) :
    ∃ v, c.Contains v ∧ a * v < b := by
  have quotient : a * (b / a) = b := by grind
  unfold lowEnd at infinite
  split at infinite
  · obtain ⟨v, inside, small⟩ := exists_contains_le infinite (b / a - 1)
    have product : a * v ≤ a * (b / a - 1) := Rat.mul_le_mul_of_nonneg_left small (by grind)
    exact ⟨v, inside, by grind⟩
  · obtain ⟨v, inside, large⟩ := exists_contains_ge infinite (b / a + 1)
    have product : -a * (b / a + 1) ≤ -a * v := Rat.mul_le_mul_of_nonneg_left large (by grind)
    exact ⟨v, inside, by grind⟩

end Column

namespace Row

/-- The activity at the point satisfies the finite sides up to the tolerance. -/
structure HoldsWithin (tol : Rat) (x : List Rat) (r : Row Rat) : Prop where
  lhs : ∀ l ∈ r.lhs?, l - tol ≤ r.activity x
  rhs : ∀ u ∈ r.rhs?, r.activity x ≤ u + tol

/-- A row is satisfied up to the tolerance if each finite side is. -/
theorem holdsWithin_iff (tol : Rat) (x : List Rat) (r : Row Rat) : r.HoldsWithin tol x ↔
    (∀ l ∈ r.lhs?, l - tol ≤ r.activity x) ∧ ∀ u ∈ r.rhs?, r.activity x ≤ u + tol :=
  ⟨fun h => ⟨h.lhs, h.rhs⟩, fun h => ⟨h.1, h.2⟩⟩

instance (tol : Rat) (x : List Rat) (r : Row Rat) : Decidable (r.HoldsWithin tol x) :=
  decidable_of_iff' _ (holdsWithin_iff tol x r)

/-- The coefficients belong to different columns, and none of them is zero. -/
structure Proper (l : List (Nat × Rat)) : Prop where
  distinct : l.Pairwise fun e e' => e.1 ≠ e'.1
  nonzero : ∀ e ∈ l, e.2 ≠ 0

/-- A canonical row stores no zero and no column twice. -/
theorem Canonical.proper {r : Row Rat} (h : r.Canonical) : Proper r.coeffs where
  distinct := h.sorted.keys_ne Keyed.isOrder_natBefore
  nonzero e mem zero := by
    have kept := h.nonzero e mem
    rw [zero] at kept
    exact absurd kept (by decide)

namespace Proper

variable {e : Nat × Rat} {l : List (Nat × Rat)}

/-- The first coefficient is not zero. -/
theorem head (h : Proper (e :: l)) : e.2 ≠ 0 :=
  h.nonzero e List.mem_cons_self

/-- The other coefficients are proper, too. -/
theorem tail (h : Proper (e :: l)) : Proper l where
  distinct := (List.pairwise_cons.1 h.distinct).2
  nonzero e' mem := h.nonzero e' (List.mem_cons_of_mem _ mem)

/-- The column of the first coefficient has no other one. -/
theorem absent (h : Proper (e :: l)) : ∀ e' ∈ l, e'.1 ≠ e.1 :=
  fun e' mem => ((List.pairwise_cons.1 h.distinct).1 e' mem).symm

end Proper

/-- The coefficients with their signs changed. -/
def negated (l : List (Nat × Rat)) : List (Nat × Rat) :=
  l.map fun e => (e.1, -e.2)

/-- Negating the coefficients negates the sum. -/
theorem dot_negated (x : List Rat) (l : List (Nat × Rat)) : dot x (negated l) = -dot x l := by
  induction l with
  | nil => rfl
  | cons e l ih =>
    have cons : negated (e :: l) = (e.1, -e.2) :: negated l := rfl
    rw [cons, dot, dot, ih]
    grind

/-- Negating the coefficients keeps them proper. -/
theorem Proper.negated {l : List (Nat × Rat)} (h : Proper l) : Proper (negated l) where
  distinct := List.pairwise_map.2 h.distinct
  nonzero e mem := by
    obtain ⟨e, before, rfl⟩ := List.mem_map.1 mem
    have nonzero := h.nonzero e before
    grind

/-- Only the values of its own columns count for a sum. -/
theorem dot_set {l : List (Nat × Rat)} {j : Nat} (absent : ∀ e ∈ l, e.1 ≠ j) (x : List Rat)
    (v : Rat) : dot (x.set j v) l = dot x l := by
  induction l with
  | nil => rfl
  | cons e l ih =>
    have other : e.1 ≠ j := absent e List.mem_cons_self
    have same : (x.set j v).getD e.1 0 = x.getD e.1 0 := by
      simp only [List.getD_eq_getElem?_getD, List.getElem?_set_ne other.symm]
    rw [dot, dot, same, ih fun e' mem => absent e' (List.mem_cons_of_mem _ mem)]

end Row

namespace Problem

/-- The point has a value for each column, within the finite bounds. -/
structure Contains (x : List Rat) (p : Problem Rat) : Prop where
  complete : x.length = p.ncols
  columns : ∀ j (c : Column Rat), p.columns[j]? = some c → c.Contains (x.getD j 0)

/-- A point of the box has a value within the bounds of each column. -/
theorem contains_iff (x : List Rat) (p : Problem Rat) : p.Contains x ↔
    x.length = p.ncols ∧ ∀ e ∈ p.columns.zipIdx, e.1.Contains (x.getD e.2 0) :=
  ⟨fun h => ⟨h.complete, fun e mem => h.columns e.2 e.1 (List.mem_zipIdx_iff_getElem?.1 mem)⟩,
    fun h => ⟨h.1, fun j c place => h.2 (c, j) (List.mem_zipIdx_iff_getElem?.2 place)⟩⟩

instance (x : List Rat) (p : Problem Rat) : Decidable (p.Contains x) :=
  decidable_of_iff' _ (contains_iff x p)

variable {p : Problem Rat} {x : List Rat}

/-- Only the columns count for the box. -/
theorem contains_congr {q : Problem Rat} (same : q.columns = p.columns) :
    q.Contains x ↔ p.Contains x := by
  have fields (p : Problem Rat) : p.Contains x ↔ x.length = p.columns.length ∧
      ∀ j (c : Column Rat), p.columns[j]? = some c → c.Contains (x.getD j 0) :=
    ⟨fun h => ⟨h.complete, h.columns⟩, fun h => ⟨h.1, h.2⟩⟩
  rw [fields, fields, same]

/-- One value can be replaced by another one within its bounds. -/
theorem Contains.set (h : p.Contains x) {j : Nat} {c : Column Rat}
    (place : p.columns[j]? = some c) {v : Rat} (inside : c.Contains v) :
    p.Contains (x.set j v) := by
  obtain ⟨below, -⟩ := List.getElem?_eq_some_iff.1 place
  refine ⟨(List.length_set ..).trans h.complete, fun k c' place' => ?_⟩
  rw [List.getD_eq_getElem?_getD, List.getElem?_set]
  split
  · rename_i here
    subst here
    obtain rfl := Option.some.inj (place.symm.trans place')
    have inRange : j < x.length := h.complete ▸ below
    rw [if_pos inRange]
    exact inside
  · rw [← List.getD_eq_getElem?_getD]
    exact h.columns k c' place'

/-- A column that is not there has no value. -/
theorem Contains.getD_eq_zero (h : p.Contains x) {j : Nat} (absent : p.columns[j]? = none) :
    x.getD j 0 = 0 := by
  have outside : x.length ≤ j := h.complete ▸ List.getElem?_eq_none_iff.1 absent
  rw [List.getD_eq_getElem?_getD, List.getElem?_eq_none outside, Option.getD_none]

/-- A box with bounds in order has a point. -/
theorem exists_contains (ordered : ∀ c ∈ p.columns, c.Consistent) : ∃ x, p.Contains x := by
  have pick (c : Column Rat) : ∃ v, c.Consistent → c.Contains v := by
    by_cases h : c.Consistent
    · obtain ⟨v, inside⟩ := h.exists_contains
      exact ⟨v, fun _ => inside⟩
    · exact ⟨0, fun h' => absurd h' h⟩
  choose value inside using pick
  refine ⟨p.columns.map value, List.length_map .., fun j c place => ?_⟩
  rw [List.getD_eq_getElem?_getD, List.getElem?_map, place]
  exact inside c (ordered c (List.mem_of_getElem? place))

end Problem

/-! ### The range encloses every value -/

namespace RowActivity

/-- The lower end of the range, if it is finite. -/
def lowest (r : RowActivity Rat) : Option Rat :=
  if r.infMin = 0 then some r.min else none

/-- The upper end of the range, if it is finite. -/
def highest (r : RowActivity Rat) : Option Rat :=
  if r.infMax = 0 then some r.max else none

/-- The least sum grows by the contribution of the low end, and is infinite if that is. -/
theorem lowest_add (a : Rat) (c : Column Rat) (r : RowActivity Rat) :
    (r.add a c.lower? c.upper?).lowest =
      (c.lowEnd a).bind fun w => r.lowest.map fun m => m + a * w := by
  have positive : Scalar.isPositive a = decide (0 < a) := rfl
  unfold add lowest Column.lowEnd
  rw [positive]
  by_cases sign : 0 < a
  · cases c.lower? <;> cases c.upper? <;> simp [sign]
  · cases c.lower? <;> cases c.upper? <;> simp [sign]

/-- The largest sum grows by the contribution of the high end, and is infinite if that is. -/
theorem highest_add (a : Rat) (c : Column Rat) (r : RowActivity Rat) :
    (r.add a c.lower? c.upper?).highest =
      (c.highEnd a).bind fun w => r.highest.map fun m => m + a * w := by
  have positive : Scalar.isPositive a = decide (0 < a) := rfl
  unfold add highest Column.highEnd
  rw [positive]
  by_cases sign : 0 < a
  · cases c.lower? <;> cases c.upper? <;> simp [sign]
  · cases c.lower? <;> cases c.upper? <;> simp [sign]

/-- The value lies between the ends that are finite. -/
structure Encloses (s : Rat) (r : RowActivity Rat) : Prop where
  lowest : ∀ m ∈ r.lowest, m ≤ s
  highest : ∀ m ∈ r.highest, s ≤ m

/-- The empty range encloses the empty sum. -/
theorem encloses_zero : (zero : RowActivity Rat).Encloses 0 where
  lowest m mem := by
    obtain rfl : 0 = m := Option.some.inj mem
    exact Rat.le_refl
  highest m mem := by
    obtain rfl : 0 = m := Option.some.inj mem
    exact Rat.le_refl

/-- What a column contributes within its bounds stays enclosed. -/
theorem Encloses.add {r : RowActivity Rat} {s : Rat} (h : r.Encloses s) (a : Rat) {v : Rat}
    {c : Column Rat} (inside : c.Contains v) :
    (r.add a c.lower? c.upper?).Encloses (s + a * v) where
  lowest m mem := by
    rw [lowest_add] at mem
    obtain ⟨w, finite, mem⟩ := Option.bind_eq_some_iff.1 mem
    obtain ⟨m, before, rfl⟩ := Option.map_eq_some_iff.1 mem
    have le := h.lowest m before
    have contribution := inside.mul_lowEnd_le finite
    grind
  highest m mem := by
    rw [highest_add] at mem
    obtain ⟨w, finite, mem⟩ := Option.bind_eq_some_iff.1 mem
    obtain ⟨m, before, rfl⟩ := Option.map_eq_some_iff.1 mem
    have le := h.highest m before
    have contribution := inside.le_mul_highEnd finite
    grind

/-- The implied sides are those beyond a finite end of the range. -/
theorem impliesSides_iff_ends (tol : Rat) (row : Row Rat) (r : RowActivity Rat) :
    r.impliesSides tol row = true ↔ (∀ l ∈ row.lhs?, ∃ m ∈ r.lowest, l - tol ≤ m) ∧
      ∀ u ∈ row.rhs?, ∃ m ∈ r.highest, m ≤ u + tol := by
  have left (m l : Rat) : Within.atLeast tol m l = true ↔ l - tol ≤ m := by
    unfold Within.atLeast
    rw [decide_eq_true_iff]
    grind
  have right (m u : Rat) : Within.atMost tol m u = true ↔ m ≤ u + tol := by
    unfold Within.atMost
    rw [decide_eq_true_iff]
    grind
  unfold impliesSides lowest highest Row.lhs? Row.rhs?
  rw [Bool.and_eq_true_iff]
  refine and_congr ?_ ?_
  · cases row.flags.lhsInf <;> by_cases finite : r.infMin = 0 <;> simp [finite, left]
  · cases row.flags.rhsInf <;> by_cases finite : r.infMax = 0 <;> simp [finite, right]

end RowActivity

namespace Problem

variable {p : Problem Rat} {x : List Rat}

/-- The range of a row after one more coefficient. -/
def enter (p : Problem Rat) (r : RowActivity Rat) (e : Nat × Rat) : RowActivity Rat :=
  match p.columns[e.1]? with
  | some c => r.add e.2 c.lower? c.upper?
  | none => r

/-- The range of a row enters its coefficients one by one. -/
theorem rowRange_eq_foldl (row : Row Rat) (p : Problem Rat) :
    p.rowRange row = row.coeffs.foldl p.enter .zero := by
  unfold rowRange
  congr 1
  funext r e
  unfold enter
  cases p.columns[e.1]? <;> rfl

/-- Entering a coefficient encloses the sum with its contribution. -/
theorem encloses_enter (inside : p.Contains x) {r : RowActivity Rat} {s : Rat} (h : r.Encloses s)
    (e : Nat × Rat) : (p.enter r e).Encloses (s + e.2 * x.getD e.1 0) := by
  unfold enter
  cases place : p.columns[e.1]? with
  | some c => exact h.add e.2 (inside.columns e.1 c place)
  | none =>
    rw [inside.getD_eq_zero place, Rat.mul_zero, Rat.add_zero]
    exact h

/-- Entering coefficients encloses the sum with their contributions. -/
theorem encloses_foldl (inside : p.Contains x) (l : List (Nat × Rat)) {r : RowActivity Rat}
    {s : Rat} (h : r.Encloses s) : (l.foldl p.enter r).Encloses (s + Row.dot x l) := by
  induction l generalizing r s with
  | nil =>
    rw [Row.dot, Rat.add_zero]
    exact h
  | cons e l ih =>
    rw [List.foldl_cons, Row.dot, ← Rat.add_assoc]
    exact ih (encloses_enter inside h e)

/-- The range of a row encloses its activity at every point of the box. -/
theorem encloses_rowRange (inside : p.Contains x) (row : Row Rat) :
    (p.rowRange row).Encloses (row.activity x) := by
  have all := encloses_foldl inside row.coeffs RowActivity.encloses_zero
  rwa [Rat.zero_add, ← Row.activity_eq_dot, ← rowRange_eq_foldl] at all

/-- **Implied sides hold**, whatever the program is. -/
theorem holdsWithin_of_impliesSides {tol : Rat} {row : Row Rat}
    (implied : (p.rowRange row).impliesSides tol row = true) (inside : p.Contains x) :
    row.HoldsWithin tol x := by
  obtain ⟨left, right⟩ := (RowActivity.impliesSides_iff_ends ..).1 implied
  have enclosed := encloses_rowRange inside row
  constructor
  case lhs =>
    intro l side
    obtain ⟨m, finite, le⟩ := left l side
    exact Rat.le_trans le (enclosed.lowest m finite)
  case rhs =>
    intro u side
    obtain ⟨m, finite, le⟩ := right u side
    exact Rat.le_trans (enclosed.highest m finite) le

/-! ### The ends of the range are attained or out of reach -/

/-- The sum of what the coefficients contribute at the given ends, if all of these are finite. -/
def sumEnds (ends : Rat → Column Rat → Option Rat) (p : Problem Rat) :
    List (Nat × Rat) → Option Rat
  | [] => some 0
  | e :: l =>
    match p.columns[e.1]? with
    | some c => (ends e.2 c).bind fun w => (p.sumEnds ends l).map fun m => e.2 * w + m
    | none => p.sumEnds ends l

variable {ends : Rat → Column Rat → Option Rat} {l : List (Nat × Rat)} {e : Nat × Rat}
  {c : Column Rat}

/-- The sum of the ends begins with the end of the first column. -/
theorem sumEnds_cons (place : p.columns[e.1]? = some c) : p.sumEnds ends (e :: l) =
    (ends e.2 c).bind fun w => (p.sumEnds ends l).map fun m => e.2 * w + m := by
  rw [sumEnds, place]

/-- A coefficient of a column that is not there adds nothing to the sum of the ends. -/
theorem sumEnds_cons_of_absent (absent : p.columns[e.1]? = none) :
    p.sumEnds ends (e :: l) = p.sumEnds ends l := by
  rw [sumEnds, absent]

/-- What a range tells of one end after coefficients were entered is the sum of these ends. -/
theorem get_foldl_enter {get : RowActivity Rat → Option Rat}
    (add : ∀ a (c : Column Rat) r, get (r.add a c.lower? c.upper?) =
      (ends a c).bind fun w => (get r).map fun m => m + a * w)
    (l : List (Nat × Rat)) (r : RowActivity Rat) :
    get (l.foldl p.enter r) = (get r).bind fun m => (p.sumEnds ends l).map fun s => m + s := by
  induction l generalizing r with
  | nil =>
    have nothing (m : Rat) : m + 0 = m := Rat.add_zero m
    cases before : get r <;> simp [sumEnds, before, nothing]
  | cons e l ih =>
    rw [List.foldl_cons, ih, enter]
    cases place : p.columns[e.1]? with
    | none => rw [sumEnds_cons_of_absent place]
    | some c =>
      dsimp only
      rw [add, sumEnds_cons place]
      cases ends e.2 c <;> cases get r <;> cases p.sumEnds ends l <;> simp [Rat.add_assoc]

/-- The least value of a range is the sum of the low ends. -/
theorem lowest_rowRange (row : Row Rat) (p : Problem Rat) :
    (p.rowRange row).lowest = p.sumEnds Column.lowEnd row.coeffs := by
  have start : (RowActivity.zero : RowActivity Rat).lowest = some 0 := rfl
  rw [rowRange_eq_foldl, get_foldl_enter RowActivity.lowest_add, start]
  simp only [Option.bind_some, Rat.zero_add, Option.map_id_fun', id]

/-- The largest value of a range is the sum of the high ends. -/
theorem highest_rowRange (row : Row Rat) (p : Problem Rat) :
    (p.rowRange row).highest = p.sumEnds Column.highEnd row.coeffs := by
  have start : (RowActivity.zero : RowActivity Rat).highest = some 0 := rfl
  rw [rowRange_eq_foldl, get_foldl_enter RowActivity.highest_add, start]
  simp only [Option.bind_some, Rat.zero_add, Option.map_id_fun', id]

/-- The most that a sum can be is the least with all signs changed. -/
theorem sumEnds_highEnd (proper : Row.Proper l) :
    p.sumEnds Column.highEnd l = (p.sumEnds Column.lowEnd (Row.negated l)).map fun m => -m := by
  induction l with
  | nil => rfl
  | cons e l ih =>
    have cons : Row.negated (e :: l) = (e.1, -e.2) :: Row.negated l := rfl
    rw [cons]
    cases place : p.columns[e.1]? with
    | none =>
      rw [sumEnds_cons_of_absent place, sumEnds_cons_of_absent (e := (e.1, -e.2)) place]
      exact ih proper.tail
    | some c =>
      rw [sumEnds_cons place, sumEnds_cons (e := (e.1, -e.2)) place, ih proper.tail,
        Column.highEnd_eq proper.head]
      cases c.lowEnd (-e.2) with
      | none => rfl
      | some w =>
        have sign (m : Rat) : e.2 * w + -m = -(-e.2 * w + m) := by grind
        simp [Function.comp_def, sign]

/-- A coefficient of a column that is not there adds nothing to the sum. -/
theorem Contains.dot_cons_of_absent (h : p.Contains x) (absent : p.columns[e.1]? = none) :
    Row.dot x (e :: l) = Row.dot x l := by
  rw [Row.dot, h.getD_eq_zero absent, Rat.mul_zero, Rat.zero_add]

/-- A sum can be given one more contribution, with any value within the bounds of its column. -/
theorem Contains.exists_dot_cons (h : p.Contains x) (place : p.columns[e.1]? = some c)
    (proper : Row.Proper (e :: l)) {v : Rat} (inside : c.Contains v) :
    ∃ x', p.Contains x' ∧ Row.dot x' (e :: l) = e.2 * v + Row.dot x l := by
  refine ⟨x.set e.1 v, h.set place inside, ?_⟩
  have below : e.1 < x.length := h.complete ▸ (List.getElem?_eq_some_iff.1 place).1
  have value : (x.set e.1 v).getD e.1 0 = v := by
    rw [List.getD_eq_getElem?_getD, List.getElem?_set_self below, Option.getD_some]
  rw [Row.dot, value, Row.dot_set proper.absent]

/-- **A least sum that is finite is attained**, at a corner of the box. -/
theorem exists_dot_eq (ordered : ∀ c ∈ p.columns, c.Consistent) (proper : Row.Proper l) {m : Rat}
    (finite : p.sumEnds Column.lowEnd l = some m) : ∃ x, p.Contains x ∧ Row.dot x l = m := by
  induction l generalizing m with
  | nil =>
    obtain ⟨x, inside⟩ := exists_contains ordered
    exact ⟨x, inside, Option.some.inj finite⟩
  | cons e l ih =>
    cases place : p.columns[e.1]? with
    | none =>
      rw [sumEnds_cons_of_absent place] at finite
      obtain ⟨x, inside, sum⟩ := ih proper.tail finite
      exact ⟨x, inside, (inside.dot_cons_of_absent place).trans sum⟩
    | some c =>
      rw [sumEnds_cons place] at finite
      obtain ⟨w, atEnd, later⟩ := Option.bind_eq_some_iff.1 finite
      obtain ⟨m', least, rfl⟩ := Option.map_eq_some_iff.1 later
      obtain ⟨x, inside, rfl⟩ := ih proper.tail least
      have corner := (ordered c (List.mem_of_getElem? place)).contains_lowEnd atEnd
      exact inside.exists_dot_cons place proper corner

/-- **A sum without least value falls below any number.**  The point goes to infinity along the
first column whose contribution has no least end. -/
theorem exists_dot_lt (ordered : ∀ c ∈ p.columns, c.Consistent) (proper : Row.Proper l)
    (infinite : p.sumEnds Column.lowEnd l = none) (b : Rat) :
    ∃ x, p.Contains x ∧ Row.dot x l < b := by
  induction l generalizing b with
  | nil => exact absurd infinite (Option.some_ne_none 0)
  | cons e l ih =>
    cases place : p.columns[e.1]? with
    | none =>
      rw [sumEnds_cons_of_absent place] at infinite
      obtain ⟨x, inside, below⟩ := ih proper.tail infinite b
      exact ⟨x, inside, (inside.dot_cons_of_absent place).symm ▸ below⟩
    | some c =>
      rw [sumEnds_cons place] at infinite
      cases atEnd : c.lowEnd e.2 with
      | none =>
        obtain ⟨x, inside⟩ := exists_contains ordered
        obtain ⟨v, inDomain, below⟩ :=
          Column.exists_contains_mul_lt proper.head atEnd (b - Row.dot x l)
        obtain ⟨x', inside', sum⟩ := inside.exists_dot_cons place proper inDomain
        exact ⟨x', inside', by grind⟩
      | some w =>
        rw [atEnd, Option.bind_some, Option.map_eq_none_iff] at infinite
        obtain ⟨x, inside, below⟩ := ih proper.tail infinite (b - e.2 * w)
        have corner := (ordered c (List.mem_of_getElem? place)).contains_lowEnd atEnd
        obtain ⟨x', inside', sum⟩ := inside.exists_dot_cons place proper corner
        exact ⟨x', inside', by grind⟩

/-- A number below the sum at every point of the box is below its least value. -/
theorem exists_le_of_forall_le_dot (ordered : ∀ c ∈ p.columns, c.Consistent)
    (proper : Row.Proper l) {b : Rat} (bound : ∀ x, p.Contains x → b ≤ Row.dot x l) :
    ∃ m ∈ p.sumEnds Column.lowEnd l, b ≤ m := by
  cases least : p.sumEnds Column.lowEnd l with
  | some m =>
    obtain ⟨x, inside, rfl⟩ := exists_dot_eq ordered proper least
    exact ⟨Row.dot x l, rfl, bound x inside⟩
  | none =>
    obtain ⟨x, inside, below⟩ := exists_dot_lt ordered proper least b
    exact absurd (bound x inside) (Rat.not_le.2 below)

/-- A number above the sum at every point of the box is above its greatest value. -/
theorem exists_ge_of_forall_dot_le (ordered : ∀ c ∈ p.columns, c.Consistent)
    (proper : Row.Proper l) {b : Rat} (bound : ∀ x, p.Contains x → Row.dot x l ≤ b) :
    ∃ m ∈ p.sumEnds Column.highEnd l, m ≤ b := by
  have bound' : ∀ x, p.Contains x → -b ≤ Row.dot x (Row.negated l) := by
    intro x inside
    rw [Row.dot_negated]
    exact Rat.neg_le_neg (bound x inside)
  obtain ⟨m, least, le⟩ := exists_le_of_forall_le_dot ordered proper.negated bound'
  refine ⟨-m, ?_, by grind⟩
  rw [sumEnds_highEnd proper]
  exact Option.map_eq_some_iff.2 ⟨m, least, rfl⟩

/-- **Implied sides are exact.**  Without empty domains, and for rows as they are stored, every row
has a range, and is found to be implied exactly if all points within the finite bounds satisfy both
of its sides up to the tolerance. -/
theorem impliesSides_iff (canonical : p.Canonical) (ordered : ∀ c ∈ p.columns, c.Consistent)
    (tol : Rat) {i : Nat} {row : Row Rat} (place : p.rows[i]? = some row) :
    ∃ range, p.activities[i]? = some range ∧
      (range.impliesSides tol row = true ↔ ∀ x, p.Contains x → row.HoldsWithin tol x) := by
  have found : p.activities[i]? = some (p.rowRange row) := by
    unfold activities
    rw [List.getElem?_map, place]
    rfl
  have proper := (canonical.row place).proper
  refine ⟨p.rowRange row, found, fun implied x inside => holdsWithin_of_impliesSides implied inside,
    fun holds => (RowActivity.impliesSides_iff_ends ..).2 ⟨fun l side => ?_, fun u side => ?_⟩⟩
  · rw [lowest_rowRange]
    refine exists_le_of_forall_le_dot ordered proper fun x inside => ?_
    rw [← Row.activity_eq_dot]
    exact (holds x inside).lhs l side
  · rw [highest_rowRange]
    refine exists_ge_of_forall_dot_le ordered proper fun x inside => ?_
    rw [← Row.activity_eq_dot]
    exact (holds x inside).rhs u side

/-- A row with coefficients of both signs and a left-hand side. -/
def wedge : Row Rat :=
  { name := "r", coeffs := [(0, 3), (1, -2), (2, 1)], lhs := -3, rhs := 0
    flags := { rhsInf := true } }

/-- A row with two sides. -/
def slope : Row Rat :=
  { name := "s", coeffs := [(0, 1), (1, 1)], lhs := -100, rhs := 5, flags := {} }

/-- A column that is bounded on both sides, and two that are bounded on one side. -/
def leaning : Problem Rat :=
  { name := "leaning", sense := .minimize, offset := 0
    columns :=
      [{ name := "x", cost := 0, lower := 1, upper := 2, flags := {} },
        { name := "y", cost := 0, lower := 0, upper := 3, flags := { lbInf := true } },
        { name := "z", cost := 0, lower := -1, upper := 0, flags := { ubInf := true } }]
    rows := [wedge, slope] }

/-- The least value of the first row is attained at `(1, 3, -1)` and misses its left-hand side by
one, so that the row is implied up to one and not up to one half.  The second one keeps its
right-hand side everywhere, but falls below its left-hand side along the second column. -/
theorem impliesSides_iff_leaning :
    leaning.Canonical ∧ (∀ c ∈ leaning.columns, c.Consistent) ∧
      leaning.rows[0]? = some wedge ∧ leaning.rows[1]? = some slope ∧
      (∀ x, leaning.Contains x → wedge.HoldsWithin 1 x) ∧
      (¬∀ x, leaning.Contains x → wedge.HoldsWithin (1 / 2) x) ∧
      ¬∀ x, leaning.Contains x → slope.HoldsWithin 1 x := by
  have canonical : leaning.Canonical := by decide +kernel
  have ordered : ∀ c ∈ leaning.columns, c.Consistent := by decide +kernel
  have first : leaning.rows[0]? = some wedge := rfl
  have second : leaning.rows[1]? = some slope := rfl
  refine ⟨canonical, ordered, first, second, ?_, ?_, ?_⟩
  · obtain ⟨range, found, same⟩ := impliesSides_iff canonical ordered 1 first
    have implied : leaning.activities[0]?.any (·.impliesSides 1 wedge) = true := by decide +kernel
    rw [found] at implied
    exact same.1 implied
  · obtain ⟨range, found, same⟩ := impliesSides_iff canonical ordered (1 / 2) first
    have missed : leaning.activities[0]?.any (·.impliesSides (1 / 2) wedge) = false := by
      decide +kernel
    rw [found] at missed
    exact fun holds => Bool.false_ne_true (missed.symm.trans (same.2 holds))
  · obtain ⟨range, found, same⟩ := impliesSides_iff canonical ordered 1 second
    have missed : leaning.activities[1]?.any (·.impliesSides 1 slope) = false := by decide +kernel
    rw [found] at missed
    exact fun holds => Bool.false_ne_true (missed.symm.trans (same.2 holds))

end Problem
end MipShrink
