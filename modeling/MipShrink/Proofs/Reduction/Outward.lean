/-
# Rounding rows and columns

`varround` and `consround` make a column or a row integral, and neither of them takes anything away
from what is allowed beyond the feasibility tolerance `tol`:

| number | becomes a whole number |
| --- | --- |
| cost, coefficient `a` | between `a - 1/2` and `a + 1/2` |
| lower bound `l` | above `l + tol - 1` and at most `l + tol` |
| upper bound `u` | at least `u - tol` and below `u - tol + 1` |
| left-hand side `l` | at most `l + tol` |
| right-hand side `u` | at least `u - tol` |

What is infinite stays infinite, and a coefficient that becomes zero is not stored any more.  The
sides have no bound on the other end, because they also make room for a feasible reference: its
activity under the new coefficients, wherever it lies, is within them up to the tolerance.
-/

import MipShrink.Proofs.Reduction.Displacement
import MipShrink.Proofs.Throughout.Frame

namespace MipShrink

open Rational

/-- A change of an element that is there puts another one in its place. -/
theorem modify_eq_set {β : Type} {l : List β} {k : Nat} {a : β} (place : l[k]? = some a)
    (f : β → β) : l.modify k f = l.set k (f a) := by
  rw [List.modify_eq_set_getElem?, place]
  rfl

/-- A function that relates every element to its image does so in an option. -/
theorem rel_map {β : Type} {R : β → β → Prop} {f : β → β} (rel : ∀ a, R a (f a))
    (o : Option β) : Option.Rel R o (o.map f) := by
  cases o with
  | none => exact .none
  | some a => exact .some (rel a)

/-- What is related to an option is related to its element. -/
theorem mem_of_rel {β : Type} {R : β → β → Prop} {o o' : Option β} (h : Option.Rel R o o') {b : β}
    (mem : b ∈ o') : ∃ a ∈ o, R a b := by
  cases h with
  | none => cases mem
  | some rel =>
    obtain rfl := Option.some.inj mem
    exact ⟨_, rfl, rel⟩

/-! ### Columns -/

namespace Column

variable {c : Column Rat} {t : Tolerance Rat} {tol v : Rat}

/-- A value is between the finite bounds up to a tolerance. -/
def NearlyContains (tol v : Rat) (c : Column Rat) : Prop :=
  (∀ l ∈ c.lower?, l ≤ v + tol) ∧ ∀ u ∈ c.upper?, v - tol ≤ u

/-- The bounds of `c'` are those of `c`, rounded outward. -/
structure Widened (tol : Rat) (c c' : Column Rat) : Prop where
  lower : Option.Rel (fun l l' => whole l' = true ∧ l + tol - 1 < l' ∧ l' ≤ l + tol)
    c.lower? c'.lower?
  upper : Option.Rel (fun u u' => whole u' = true ∧ u - tol ≤ u' ∧ u' < u - tol + 1)
    c.upper? c'.upper?
  /-- No whole value is lost. -/
  wholes : ∀ v, whole v = true → c.Contains v → c'.Contains v
  /-- Other values are lost by the tolerance only. -/
  values : ∀ v, c.Contains v → c'.NearlyContains tol v

/-- The column `c'` is what rounding makes of the column `c`. -/
structure Rounded (t : Tolerance Rat) (c c' : Column Rat) : Prop where
  name : c'.name = c.name
  flags : c'.flags = c.flags
  cost : whole c'.cost = true ∧ c.cost - 1 / 2 ≤ c'.cost ∧ c'.cost ≤ c.cost + 1 / 2
  /-- A domain that is taken for a single value stays. -/
  single : c.isCollapsed t.admissibility = true → c'.lower = c.lower ∧ c'.upper = c.upper
  widened : c.isCollapsed t.admissibility = false → c.Widened t.feasibility c'

/-- **Rounding the bounds widens the domain.** -/
theorem widened_roundBounds (small : tol < 1) (c : Column Rat) :
    c.Widened tol (Reduction.roundBounds tol c) := by
  have lower : Option.Rel (fun l l' => whole l' = true ∧ l + tol - 1 < l' ∧ l' ≤ l + tol) c.lower?
      (Reduction.roundBounds tol c).lower? := by
    rw [lower?_roundBounds]
    exact rel_map (fun l => ⟨whole_floor tol l, lt_floor tol l, floor_le tol l⟩) _
  have upper : Option.Rel (fun u u' => whole u' = true ∧ u - tol ≤ u' ∧ u' < u - tol + 1) c.upper?
      (Reduction.roundBounds tol c).upper? := by
    rw [upper?_roundBounds]
    exact rel_map (fun u => ⟨whole_ceil tol u, le_ceil tol u, ceil_lt tol u⟩) _
  refine ⟨lower, upper, fun v integer inside => ⟨fun l' left => ?_, fun u' right => ?_⟩,
    fun v inside => ⟨fun l' left => ?_, fun u' right => ?_⟩⟩
  · obtain ⟨l, bound, integer', -, le⟩ := mem_of_rel lower left
    have above := inside.lower l bound
    exact le_of_lt_add_one integer' integer (by grind)
  · obtain ⟨u, bound, integer', le, -⟩ := mem_of_rel upper right
    have below := inside.upper u bound
    exact le_of_lt_add_one integer integer' (by grind)
  · obtain ⟨l, bound, -, -, le⟩ := mem_of_rel lower left
    have above := inside.lower l bound
    grind
  · obtain ⟨u, bound, -, le, -⟩ := mem_of_rel upper right
    have below := inside.upper u bound
    grind

/-- Only the numbers of the bounds are new. -/
theorem roundBounds_keeps (tol : Rat) (c : Column Rat) :
    (Reduction.roundBounds tol c).name = c.name ∧ (Reduction.roundBounds tol c).flags = c.flags ∧
      (Reduction.roundBounds tol c).cost = c.cost := by
  obtain ⟨name, cost, lower, upper, ⟨lbInf, ubInf, _, _, _, _⟩⟩ := c
  cases lbInf <;> cases ubInf <;> exact ⟨rfl, rfl, rfl⟩

/-- Making a column integral rounds it. -/
theorem rounded_roundColumn (small : t.feasibility < 1) (c : Column Rat) :
    c.Rounded t (Reduction.roundColumn t c) := by
  have near := round_near c.cost
  have integer := whole_round c.cost
  have same : (c.setCost (Scalar.round c.cost)).isCollapsed t.admissibility =
      c.isCollapsed t.admissibility := rfl
  unfold Reduction.roundColumn
  dsimp only
  rw [same]
  cases single : c.isCollapsed t.admissibility with
  | true =>
    exact
      { name := rfl
        flags := rfl
        cost := ⟨integer, near⟩
        single := fun _ => ⟨rfl, rfl⟩
        widened := fun open' => absurd (single.symm.trans open') Bool.noConfusion }
  | false =>
    have wide := widened_roundBounds small (c.setCost (Scalar.round c.cost))
    obtain ⟨name, flags, cost⟩ :=
      roundBounds_keeps t.feasibility (c.setCost (Scalar.round c.cost))
    -- the cost plays no part in the domain
    have domain {v : Rat} (inside : c.Contains v) : (c.setCost (Scalar.round c.cost)).Contains v :=
      ⟨inside.lower, inside.upper⟩
    rw [if_neg Bool.false_ne_true]
    exact
      { name := name
        flags := flags
        cost := by
          rw [cost]
          exact ⟨integer, near⟩
        single := fun single' => absurd (single.symm.trans single') Bool.noConfusion
        widened := fun _ => ⟨wide.lower, wide.upper, fun v integer inside =>
          wide.wholes v integer (domain inside), fun v inside => wide.values v (domain inside)⟩ }

end Column

/-! ### Rows -/

namespace Row

variable {r : Row Rat} {tol : Rat}

/-- The row `r'` is what rounding makes of the row `r`. -/
structure Rounded (tol : Rat) (r r' : Row Rat) : Prop where
  name : r'.name = r.name
  redundant : r'.isRedundant = r.isRedundant
  canonical : r'.Canonical
  coeffs : ∀ e ∈ r'.coeffs, whole e.2 = true ∧ e.2 ≠ 0
  /-- What is not stored counts as zero. -/
  near : ∀ j, (r.coeff? j).getD 0 - 1 / 2 ≤ (r'.coeff? j).getD 0 ∧
    (r'.coeff? j).getD 0 ≤ (r.coeff? j).getD 0 + 1 / 2
  lhs : Option.Rel (fun l l' => whole l' = true ∧ l' ≤ l + tol) r.lhs? r'.lhs?
  rhs : Option.Rel (fun u u' => whole u' = true ∧ u - tol ≤ u') r.rhs? r'.rhs?

/-- The new left-hand side is below the old one and the activity, up to the tolerance. -/
theorem outwardLhs_le (tol : Rat) (activity : Option Rat) (l : Rat) :
    Reduction.outwardLhs tol activity l ≤ l + tol ∧
      ∀ a ∈ activity, Reduction.outwardLhs tol activity l ≤ a + tol := by
  have side := floor_le tol l
  cases activity with
  | none => exact ⟨side, fun a mem => nomatch mem⟩
  | some a =>
    have room := floor_le tol a
    unfold Reduction.outwardLhs Scalar.least
    dsimp only
    refine ⟨?_, fun a' mem => ?_⟩
    · split <;> grind
    · obtain rfl := Option.some.inj mem
      split <;> grind

/-- The new right-hand side is above the old one and the activity, up to the tolerance. -/
theorem le_outwardRhs (tol : Rat) (activity : Option Rat) (u : Rat) :
    u - tol ≤ Reduction.outwardRhs tol activity u ∧
      ∀ a ∈ activity, a - tol ≤ Reduction.outwardRhs tol activity u := by
  have side := le_ceil tol u
  cases activity with
  | none => exact ⟨side, fun a mem => nomatch mem⟩
  | some a =>
    have room := le_ceil tol a
    unfold Reduction.outwardRhs Scalar.greatest
    dsimp only
    refine ⟨?_, fun a' mem => ?_⟩
    · split <;> grind
    · obtain rfl := Option.some.inj mem
      split <;> grind

/-- The rounded coefficient is what the old one is rounded to, also where it is not stored. -/
theorem coeff_roundEntries (canonical : r.Canonical) (j : Nat) :
    (r.roundEntries.coeff? j).getD 0 = Scalar.round ((r.coeff? j).getD 0) := by
  rw [Reduction.coeff?_roundEntries canonical]
  cases r.coeff? j with
  | none => exact (round_of_whole whole_zero).symm
  | some a =>
    rw [Option.bind_some, nearest_eq_round, Option.getD_some]
    unfold stored
    split
    · rename_i zero
      exact (eq_of_beq zero).symm
    · rfl

/-- Making a row integral rounds it. -/
theorem rounded_makeIntegral (canonical : r.Canonical) (tol : Rat) (point : Option (List Rat)) :
    r.Rounded tol (r.makeIntegral tol point) where
  name := ((framed_roundEntries r).trans (framed_roundSides ..)).name
  redundant := isRedundant_makeIntegral ..
  canonical := (Reduction.canonical_roundEntries canonical).of_coeffs_eq (coeffs_roundSides ..)
  coeffs e mem := by
    have same : (r.makeIntegral tol point).coeffs = r.roundEntries.coeffs := coeffs_roundSides ..
    rw [same] at mem
    have nonzero := (Reduction.canonical_roundEntries canonical).nonzero e mem
    exact ⟨whole_of_mem_roundEntries r e mem, beq_eq_false_iff_ne.1 nonzero⟩
  near j := by
    have same : (r.makeIntegral tol point).coeff? j = r.roundEntries.coeff? j :=
      congrArg (List.lookup j) (coeffs_roundSides ..)
    rw [same, coeff_roundEntries canonical]
    exact round_near _
  lhs := by
    rw [lhs?_makeIntegral]
    exact rel_map (fun l => ⟨whole_outwardLhs .., (outwardLhs_le ..).1⟩) _
  rhs := by
    rw [rhs?_makeIntegral]
    exact rel_map (fun u => ⟨whole_outwardRhs .., (le_outwardRhs ..).1⟩) _

/-- **The sides of a rounded row leave room for the point**, whatever its activity was before. -/
theorem room_makeIntegral (tol : Rat) (x : List Rat) (r : Row Rat) :
    (∀ l ∈ (r.makeIntegral tol (some x)).lhs?, l ≤ (r.makeIntegral tol (some x)).activity x + tol) ∧
      ∀ u ∈ (r.makeIntegral tol (some x)).rhs?,
        (r.makeIntegral tol (some x)).activity x - tol ≤ u := by
  rw [activity_makeIntegral, lhs?_makeIntegral, rhs?_makeIntegral]
  refine ⟨fun l' left => ?_, fun u' right => ?_⟩
  · obtain ⟨l, -, rfl⟩ := Option.map_eq_some_iff.1 left
    exact (outwardLhs_le ..).2 _ rfl
  · obtain ⟨u, -, rfl⟩ := Option.map_eq_some_iff.1 right
    exact (le_outwardRhs ..).2 _ rfl

end Row

/-! ### The reductions -/

namespace Reduction

/-- **Making a column integral widens its domain.**  An admissible column is there, and it is
replaced by one with a whole cost, at most one half away, and with the same name and attributes.
Bounds that are taken for a single value stay.  Other finite bounds become whole numbers outward,
so that no whole value is lost, and no value by more than the feasibility tolerance.  Everything
else of the draft is as before. -/
theorem varround_outward {s : Scope Rat} (small : s.tolerance.feasibility < 1)
    {start : Problem Rat} {d : Draft Rat} {j : Nat}
    (admissible : (varround s).admissible start d j = true) :
    ∃ c c', d.problem.columns[j]? = some c ∧ c.Rounded s.tolerance c' ∧
      (varround s).apply j d =
        d.mapProblem fun p => { p with columns := p.columns.set j c' } := by
  obtain ⟨c, place, -⟩ := (Option.any_eq_true _ _).1 admissible
  refine ⟨c, roundColumn s.tolerance c, place, Column.rounded_roundColumn small c, ?_⟩
  show d.mapProblem (Problem.mapColumn j (roundColumn s.tolerance)) = _
  unfold Draft.mapProblem Problem.mapColumn
  rw [modify_eq_set place]

/-- Rounding a row and flushing makes it integral. -/
theorem flush_consround (s : Scope Rat) {i : Instance Rat} (canonical : i.problem.Canonical)
    (k : Nat) :
    ((consround s).apply k (Draft.ofInstance i)).flush = (Draft.ofInstance i).mapProblem fun p =>
      p.mapRow k (Row.makeIntegral s.tolerance.feasibility (s.solution.point? p.ncols)) := by
  have idle : (Draft.ofInstance i).pending = [] := rfl
  have settled := (buffers_consround s).apply i.solution
    (Draft.sound_of_pending_eq_nil canonical idle) (Draft.fresh_of_pending_eq_nil idle k)
  have problem : ((consround s).apply k (Draft.ofInstance i)).flush.problem =
      i.problem.mapRow k (Row.makeIntegral s.tolerance.feasibility
        (s.solution.point? i.problem.ncols)) := congrArg Instance.problem settled
  have settings : ((consround s).apply k (Draft.ofInstance i)).flush.settings = i.settings :=
    congrArg Instance.settings settled
  have pending := Draft.pending_flush ((consround s).apply k (Draft.ofInstance i))
  generalize ((consround s).apply k (Draft.ofInstance i)).flush = d at problem settings pending
  cases d
  subst problem settings pending
  rfl

/-- **Making a row integral widens its sides.**  An admissible row is there.  Its coefficients
become the whole numbers closest to them, and those that become zero go; its finite sides become
whole numbers that are tighter by the feasibility tolerance at most.  Nothing else changes when the
coefficients are written.  If there is a feasible reference, then it satisfies the new row up to the
tolerance, also if it did not satisfy the old one. -/
theorem consround_outward {s : Scope Rat} {i : Instance Rat} (canonical : i.problem.Canonical)
    {start : Problem Rat} {k : Nat}
    (admissible : (consround s).admissible start (Draft.ofInstance i) k = true) :
    let tol := s.tolerance.feasibility
    ∃ r r', i.problem.rows[k]? = some r ∧ r.Rounded tol r' ∧
      ((consround s).apply k (Draft.ofInstance i)).flush =
        (Draft.ofInstance i).mapProblem (fun p => { p with rows := p.rows.set k r' }) ∧
      (s.solution.status = .feasible → s.solution.primal.length = i.problem.ncols →
        (∀ l ∈ r'.lhs?, l ≤ r'.activity s.solution.primal + tol) ∧
          ∀ u ∈ r'.rhs?, r'.activity s.solution.primal - tol ≤ u) := by
  intro tol
  obtain ⟨r, place, -⟩ := (Option.any_eq_true _ _).1 admissible
  refine ⟨r, r.makeIntegral tol (s.solution.point? i.problem.ncols), place,
    Row.rounded_makeIntegral (canonical.row place) .., ?_, fun feasible complete => ?_⟩
  · rw [flush_consround s canonical]
    unfold Draft.mapProblem Problem.mapRow
    exact congrArg (fun rows => { Draft.ofInstance i with
      problem := { i.problem with rows := rows } }) (modify_eq_set place _)
  · rw [Solution.point?_eq_some feasible complete]
    exact Row.room_makeIntegral ..

/-- A column and a row with fractions everywhere, and a reference that the row forbids. -/
def ragged : Instance Rat :=
  { settings := {}
    problem :=
      { name := "ragged", sense := .minimize, offset := 0
        columns :=
          [{ name := "x", cost := 5 / 2, lower := 3 / 10, upper := 47 / 10, flags := {} },
            { name := "y", cost := 0, lower := 0, upper := 1, flags := {} }]
        rows :=
          [{ name := "r", coeffs := [(0, 7 / 5), (1, 3 / 10)], lhs := 3 / 5, rhs := 5 / 2
             flags := {} }] }
    solution := { status := .feasible, primal := [9 / 2, 1], ray := [] } }

/-- The column becomes `[0, 5]` with cost three. -/
theorem varround_outward_ragged :
    let s : Scope Rat := Scope.ofRun .standard ragged
    let d : Draft Rat := Draft.ofInstance ragged
    s.tolerance.feasibility < 1 ∧ (varround s).admissible ragged.problem d 0 = true ∧
      ∃ c c', ragged.problem.columns[0]? = some c ∧ c.Rounded s.tolerance c' ∧
        (varround s).apply 0 d =
          d.mapProblem fun p => { p with columns := p.columns.set 0 c' } := by
  intro s d
  have small : s.tolerance.feasibility < 1 := by decide +kernel
  have admissible : (varround s).admissible ragged.problem d 0 = true := by decide +kernel
  exact ⟨small, admissible, varround_outward small admissible⟩

/-- The row becomes `x` between zero and five: the second coefficient goes, and the right-hand side
makes room for the reference. -/
theorem consround_outward_ragged :
    let s : Scope Rat := Scope.ofRun .standard ragged
    let tol := s.tolerance.feasibility
    ragged.problem.Canonical ∧
      (consround s).admissible ragged.problem (Draft.ofInstance ragged) 0 = true ∧
      ∃ r r', ragged.problem.rows[0]? = some r ∧ r.Rounded tol r' ∧
        ((consround s).apply 0 (Draft.ofInstance ragged)).flush =
          (Draft.ofInstance ragged).mapProblem (fun p => { p with rows := p.rows.set 0 r' }) ∧
        (∀ l ∈ r'.lhs?, l ≤ r'.activity [9 / 2, 1] + tol) ∧
          ∀ u ∈ r'.rhs?, r'.activity [9 / 2, 1] - tol ≤ u := by
  intro s tol
  have canonical : ragged.problem.Canonical := by decide +kernel
  have admissible : (consround s).admissible ragged.problem (Draft.ofInstance ragged) 0 = true := by
    decide +kernel
  obtain ⟨r, r', place, rounded, written, room⟩ := consround_outward canonical admissible
  exact ⟨canonical, admissible, r, r', place, rounded, written, room rfl rfl⟩

example :
    let s : Scope Rat := Scope.ofRun .standard ragged
    let p := ((consround s).apply 0 ((varround s).apply 0 (Draft.ofInstance ragged))).flush.problem
    p.columns.map (fun c => (c.cost, c.lower, c.upper)) = [(3, 0, 5), (0, 0, 1)] ∧
      p.rows.map (fun r => (r.coeffs, r.lhs, r.rhs)) = [([(0, 1)], 0, 5)] := by
  decide +kernel

end Reduction
end MipShrink
