/-
# Without a point a program only loses points

Without a reference point a domain collapses to its value closest to zero, and a row becomes an
equation at the value between its sides that is closest to zero (`closestToZero`).  If the two ends
are in order, this value lies between them (`Ordered.le_closestToZero`,
`Ordered.closestToZero_le`).  So every point of the program that a call of `collapse` or `side`
leaves behind is a point of the program before the call, whatever the oracle answers
(`ModuleKind.call_restricts`).

The points meant here need not be whole.  The value to which an integral column collapses is a bound
as it stands, and leaves nothing of the domain if this bound is not whole
(`Reduction.solvedBy_collapse_iff`).
-/

import MipShrink.Proofs.Reduction.Partition
import MipShrink.Proofs.Reduction.SafeRows
import MipShrink.Proofs.Throughout.Feasibility

namespace MipShrink

open Rational

/-! ### Intervals -/

/-- The value of an interval that is closest to zero. -/
def closestToZero (lower upper : Option Rat) : Rat :=
  ((lower.filter fun l => decide (0 < l)).or (upper.filter fun u => decide (u < 0))).getD 0

/-- It is a positive lower end, or a negative upper end, or else zero. -/
theorem closestToZero_cases (lower upper : Option Rat) :
    (∃ l ∈ lower, 0 < l ∧ closestToZero lower upper = l) ∨
    (∀ l ∈ lower, l ≤ 0) ∧ (∃ u ∈ upper, u < 0 ∧ closestToZero lower upper = u) ∨
    (∀ l ∈ lower, l ≤ 0) ∧ (∀ u ∈ upper, 0 ≤ u) ∧ closestToZero lower upper = 0 := by
  unfold closestToZero
  by_cases positive : ∃ l ∈ lower, 0 < l
  · obtain ⟨l, rfl, positive⟩ := positive
    exact .inl ⟨l, rfl, positive, by simp [Option.filter, positive]⟩
  · have below : ∀ l ∈ lower, l ≤ 0 := fun l left =>
      Rat.not_lt.1 fun above => positive ⟨l, left, above⟩
    have skipped : (lower.filter fun l => decide (0 < l)) = none := by
      rw [Option.filter_eq_none_iff]
      intro l left above
      exact positive ⟨l, left, of_decide_eq_true above⟩
    rw [skipped, Option.none_or]
    by_cases negative : ∃ u ∈ upper, u < 0
    · obtain ⟨u, rfl, negative⟩ := negative
      exact .inr (.inl ⟨below, u, rfl, negative, by simp [Option.filter, negative]⟩)
    · have above : ∀ u ∈ upper, 0 ≤ u := fun u right =>
        Rat.not_lt.1 fun below => negative ⟨u, right, below⟩
      have skipped' : (upper.filter fun u => decide (u < 0)) = none := by
        rw [Option.filter_eq_none_iff]
        intro u right below
        exact negative ⟨u, right, of_decide_eq_true below⟩
      exact .inr (.inr ⟨below, above, by rw [skipped', Option.getD_none]⟩)

namespace Ordered

variable {lower upper : Option Rat}

/-- The value closest to zero is not below the lower end. -/
theorem le_closestToZero (h : Ordered lower upper) {l : Rat} (left : l ∈ lower) :
    l ≤ closestToZero lower upper := by
  rcases closestToZero_cases lower upper with
    ⟨l', left', -, value⟩ | ⟨-, u, right, -, value⟩ | ⟨below, -, value⟩
  · obtain rfl := Option.some.inj (left.symm.trans left')
    grind
  · rw [value]
    exact h l left u right
  · rw [value]
    exact below l left

/-- The value closest to zero is not above the upper end. -/
theorem closestToZero_le (h : Ordered lower upper) {u : Rat} (right : u ∈ upper) :
    closestToZero lower upper ≤ u := by
  rcases closestToZero_cases lower upper with
    ⟨l, left, -, value⟩ | ⟨-, u', right', -, value⟩ | ⟨-, above, value⟩
  · rw [value]
    exact h l left u right
  · obtain rfl := Option.some.inj (right.symm.trans right')
    grind
  · rw [value]
    exact above u right

/-- If the lower end is positive, it is the value closest to zero. -/
theorem closestToZero_of_positive {l : Rat} (left : l ∈ lower) (positive : 0 < l) :
    closestToZero lower upper = l := by
  obtain rfl := left
  simp [closestToZero, Option.filter, positive]

/-- If the upper end is negative, it is the value closest to zero. -/
theorem closestToZero_of_negative (h : Ordered lower upper) {u : Rat} (right : u ∈ upper)
    (negative : u < 0) : closestToZero lower upper = u := by
  rcases closestToZero_cases lower upper with
    ⟨l, left, positive, -⟩ | ⟨-, u', right', -, value⟩ | ⟨-, above, -⟩
  · have le := h l left u right
    grind
  · rw [value]
    exact Option.some.inj (right'.symm.trans right)
  · exact absurd negative (Rat.not_lt.2 (above u right))

/-- It is whole unless it is an end that is not. -/
theorem whole_closestToZero_iff (h : Ordered lower upper) :
    whole (closestToZero lower upper) = true ↔
      ¬((∃ l ∈ lower, 0 < l ∧ whole l = false) ∨ ∃ u ∈ upper, u < 0 ∧ whole u = false) := by
  constructor
  · rintro integer (⟨l, left, positive, fractional⟩ | ⟨u, right, negative, fractional⟩)
    · rw [closestToZero_of_positive left positive, fractional] at integer
      cases integer
    · rw [h.closestToZero_of_negative right negative, fractional] at integer
      cases integer
  · intro none
    rw [← Bool.not_eq_false]
    intro fractional
    rcases closestToZero_cases lower upper with
      ⟨l, left, positive, value⟩ | ⟨-, u, right, negative, value⟩ | ⟨-, -, value⟩
    · exact none (.inl ⟨l, left, positive, value ▸ fractional⟩)
    · exact none (.inr ⟨u, right, negative, value ▸ fractional⟩)
    · rw [value, whole_zero] at fractional
      cases fractional

end Ordered

/-! ### Columns and rows -/

namespace Column

variable {c : Column Rat}

/-- The smallest bound is the value of the domain that is closest to zero. -/
theorem smallestBound_eq (c : Column Rat) : c.smallestBound = closestToZero c.lower? c.upper? := by
  obtain ⟨name, cost, lower, upper, ⟨lbInf, ubInf, _, _, _, _⟩⟩ := c
  have positive : Scalar.isPositive lower = decide (0 < lower) := rfl
  have negative : Scalar.isNegative upper = decide (upper < 0) := rfl
  unfold smallestBound closestToZero lower? upper?
  rw [positive, negative]
  by_cases positive : 0 < lower <;> by_cases negative : upper < 0 <;>
    cases lbInf <;> cases ubInf <;> simp [Option.filter, positive, negative]

/-- An open domain has its bounds in order. -/
theorem consistent_of_isOpen {tol : Rat} (nonneg : 0 ≤ tol) (h : c.isOpen tol = true) :
    c.Consistent := by
  obtain ⟨name, cost, lower, upper, ⟨lbInf, ubInf, _, _, _, _⟩⟩ := c
  intro l left u right
  cases lbInf with
  | true => cases left
  | false =>
    cases ubInf with
    | true => cases right
    | false =>
      obtain rfl := Option.some.inj left
      obtain rfl := Option.some.inj right
      have below : lower - upper < -tol := of_decide_eq_true (Bool.and_eq_true_iff.1 h).2
      grind

/-- The smallest bound is within the bounds. -/
theorem Consistent.contains_smallestBound (h : c.Consistent) : c.Contains c.smallestBound := by
  rw [smallestBound_eq]
  exact ⟨fun _ => Ordered.le_closestToZero h, fun _ => Ordered.closestToZero_le h⟩

/-- A value that a collapsed domain contains is the one to which it has collapsed. -/
theorem Contains.of_collapse {v w : Rat} (inside : (c.collapse v).Contains w) (h : c.Contains v) :
    c.Contains w := by
  have same : v = w := Rat.le_antisymm (inside.lower v rfl) (inside.upper v rfl)
  exact same ▸ h

end Column

namespace Row

variable {r : Row Rat}

/-- The smallest side is the value between the sides that is closest to zero. -/
theorem smallestSide_eq (r : Row Rat) : r.smallestSide = closestToZero r.lhs? r.rhs? := by
  obtain ⟨name, coeffs, lhs, rhs, ⟨lhsInf, rhsInf, _, _⟩⟩ := r
  have positive : Scalar.isPositive lhs = decide (0 < lhs) := rfl
  have negative : Scalar.isNegative rhs = decide (rhs < 0) := rfl
  unfold smallestSide closestToZero lhs? rhs?
  rw [positive, negative]
  by_cases positive : 0 < lhs <;> by_cases negative : rhs < 0 <;> cases lhsInf <;> cases rhsInf <;>
    simp [Option.filter, positive, negative]

/-- A point that satisfies an equation between the sides satisfies the sides. -/
theorem HoldsWithin.of_equation {tol v : Rat} {x : List Rat}
    (holds : ((r.setLhs v).setRhs v).HoldsWithin tol x) (above : ∀ l ∈ r.lhs?, l ≤ v)
    (below : ∀ u ∈ r.rhs?, v ≤ u) : r.HoldsWithin tol x where
  lhs l left := by
    have le := above l left
    have side : v - tol ≤ r.activity x := holds.lhs v rfl
    grind
  rhs u right := by
    have le := below u right
    have side : r.activity x ≤ v + tol := holds.rhs v rfl
    grind

end Row

/-! ### Programs -/

namespace Problem

variable {p q : Problem Rat}

/-- Every point of `q` is one of `p`, whatever the tolerance is. -/
def Restricts (p q : Problem Rat) : Prop :=
  ∀ tol x, q.SatisfiedWithin tol x → p.SatisfiedWithin tol x

/-- Losing points twice is losing points. -/
theorem Restricts.trans {r : Problem Rat} (h : p.Restricts q) (h' : q.Restricts r) :
    p.Restricts r :=
  fun tol x satisfied => h tol x (h' tol x satisfied)

/-- A program only loses points if a column loses values. -/
theorem restricts_mapColumn {j : Nat} {f : Column Rat → Column Rat}
    (narrows : ∀ c v, p.columns[j]? = some c → (f c).Contains v → c.Contains v) :
    p.Restricts (p.mapColumn j f) := by
  intro tol x satisfied
  refine ⟨⟨satisfied.inside.complete.trans (ncols_mapColumn j f p), fun k c place => ?_⟩,
    satisfied.rows⟩
  by_cases here : j = k
  · subst here
    have changed : (p.mapColumn j f).columns[j]? = some (f c) := by
      unfold mapColumn
      rw [List.getElem?_modify_eq, place]
      rfl
    exact narrows c _ place (satisfied.inside.columns j (f c) changed)
  · exact satisfied.inside.columns k c ((columns_mapColumn_of_ne here f p).trans place)

/-- A program only loses points if a row is harder to satisfy. -/
theorem restricts_mapRow {i : Nat} {f : Row Rat → Row Rat}
    (counts : ∀ r, (f r).isRedundant = r.isRedundant)
    (narrows : ∀ r tol x, p.rows[i]? = some r → (f r).HoldsWithin tol x → r.HoldsWithin tol x) :
    p.Restricts (p.mapRow i f) := by
  intro tol x satisfied
  have inside : p.Contains x := (contains_congr (p := p) (q := p.mapRow i f) rfl).1 satisfied.inside
  refine ⟨inside, fun r mem used => ?_⟩
  obtain ⟨k, place⟩ := List.getElem?_of_mem mem
  by_cases here : i = k
  · subst here
    have changed : (p.mapRow i f).rows[i]? = some (f r) := by
      unfold mapRow
      rw [List.getElem?_modify_eq, place]
      rfl
    exact narrows r tol x place
      (satisfied.rows (f r) (List.mem_of_getElem? changed) ((counts r).trans used))
  · have same := (rows_mapRow_of_ne here f p).trans place
    exact satisfied.rows r (List.mem_of_getElem? same) used

end Problem

/-- What a call without a point keeps: its draft has no points that the program before it does not
have, the sides of the rows are in order, and no coefficient waits. -/
structure Draft.Restricts (p : Problem Rat) (d : Draft Rat) : Prop where
  points : p.Restricts d.problem
  ncols : d.problem.ncols = p.ncols
  ordered : ∀ r ∈ d.problem.rows, r.Consistent
  idle : d.pending = []

namespace Reduction

variable {s : Scope Rat} {p : Problem Rat} {d : Draft Rat}

/-- Without a point a row becomes an equation at the value between its sides that is closest to
zero. -/
theorem equate_of_unguided (unguided : s.solution.point? p.ncols = none) (r : Row Rat) :
    equate s p r = (r.setLhs r.smallestSide).setRhs r.smallestSide := by
  unfold equate sideValue
  rw [unguided]

/-- Without a point a column collapses to the value of its domain that is closest to zero. -/
theorem valueOf_of_unguided {j : Nat} {c : Column Rat} (place : p.columns[j]? = some c)
    (unguided : s.solution.point? p.ncols = none) : s.valueOf j p = c.smallestBound := by
  unfold Scope.valueOf
  rw [unguided, place]
  rfl

/-- **Without a point a column is not put outside of its bounds, but an integral column may be put
at a value that is not whole**: at a positive lower bound or a negative upper bound that is not
whole.  It then has no value left, even if the domain had one. -/
theorem solvedBy_collapse_iff (nonneg : 0 ≤ s.tolerance.admissibility) (start : Problem Rat)
    {j : Nat} {c : Column Rat} (place : d.problem.columns[j]? = some c)
    (admissible : (collapse s).admissible start d j = true)
    (unguided : s.solution.point? d.problem.ncols = none) :
    ∃ v, ((collapse s).apply j d).problem.columns[j]? = some (c.collapse v) ∧ c.Contains v ∧
      (c.SolvedBy v ↔ ¬(c.isIntegral = true ∧
        ((∃ l ∈ c.lower?, 0 < l ∧ whole l = false) ∨
          ∃ u ∈ c.upper?, u < 0 ∧ whole u = false))) := by
  have room : c.isOpen s.tolerance.admissibility = true := by
    obtain ⟨c', place', room⟩ := (Option.any_eq_true _ _).1 admissible
    obtain rfl := Option.some.inj (place.symm.trans place')
    exact room
  have ordered := Column.consistent_of_isOpen nonneg room
  have inside := ordered.contains_smallestBound
  have value := Ordered.whole_closestToZero_iff ordered
  rw [← Column.smallestBound_eq] at value
  have collapsed :
      ((collapse s).apply j d).problem.columns[j]? = some (c.collapse c.smallestBound) := by
    show (d.problem.columns.modify j (Column.collapse (s.valueOf j d.problem)))[j]? = _
    rw [List.getElem?_modify_eq, place, valueOf_of_unguided place unguided]
    rfl
  refine ⟨c.smallestBound, collapsed, inside, fun solved fractional => ?_,
    fun integral => ⟨inside.lower, inside.upper, fun integer => ?_⟩⟩
  · exact value.1 (solved.integral fractional.1) fractional.2
  · exact value.2 fun fractional => integral ⟨integer, fractional⟩

/-- The domain `[0, 4]` of an integral column collapses to a value that the column may have. -/
theorem solvedBy_collapse_blend :
    let i : Instance Rat := { settings := {}, problem := .blend, solution := .unknown }
    let s := Scope.ofRun .standard i
    let d := Draft.ofInstance i
    let c : Column Rat :=
      { name := "y", cost := 0, lower := 0, upper := 4, flags := { integral := true } }
    d.problem.columns[1]? = some c ∧ (collapse s).admissible .blend d 1 = true ∧
      s.solution.point? d.problem.ncols = none ∧
      ∃ v, ((collapse s).apply 1 d).problem.columns[1]? = some (c.collapse v) ∧ c.SolvedBy v := by
  intro i s d c
  have nonneg := (Tolerance.nonneg_tolerance .standard).admissibility
  have admissible : (collapse s).admissible .blend d 1 = true := by decide +kernel
  obtain ⟨v, collapsed, -, solved⟩ :=
    solvedBy_collapse_iff (s := s) nonneg .blend (c := c) rfl admissible rfl
  exact ⟨rfl, admissible, rfl, v, collapsed, solved.2 (by decide +kernel)⟩

/-- An integral column between `1/2` and `3/2`. -/
def halves : Column Rat :=
  { name := "x", cost := 0, lower := 1 / 2, upper := 3 / 2, flags := { integral := true } }

/-- **A domain may be lost.**  The only value that the column may have is one, and it collapses to
one half. -/
theorem collapse_halves :
    let p : Problem Rat :=
      { name := "halves", sense := .minimize, offset := 0, columns := [halves], rows := [] }
    let i : Instance Rat := { settings := {}, problem := p, solution := .unknown }
    let s := Scope.ofRun .standard i
    let d := Draft.ofInstance i
    halves.SolvedBy 1 ∧ (collapse s).admissible p d 0 = true ∧ s.solution.point? p.ncols = none ∧
      ((collapse s).apply 0 d).problem.columns = [halves.collapse (1 / 2)] ∧
      ¬halves.SolvedBy (1 / 2) ∧ ∀ v, ¬(halves.collapse (1 / 2)).SolvedBy v := by
  intro p i s d
  have collapsed : s.valueOf 0 p = 1 / 2 := by decide +kernel
  refine ⟨by decide +kernel, by decide +kernel, rfl,
    congrArg (fun v => [halves.collapse v]) collapsed, by decide +kernel, fun v solved => ?_⟩
  have value : 1 / 2 = v := Rat.le_antisymm (solved.lower _ rfl) (solved.upper _ rfl)
  have integral : whole (1 / 2) = true := value ▸ solved.integral rfl
  exact absurd integral (by decide +kernel)

end Reduction

/-! ### Calls -/

namespace Draft.Restricts

variable {s : Scope Rat} {p start : Problem Rat} {d : Draft Rat}

/-- Collapsing a domain without a point loses points only. -/
theorem collapse (h : d.Restricts p) (nonneg : 0 ≤ s.tolerance.admissibility)
    (unguided : s.solution.point? p.ncols = none) {j : Nat}
    (admissible : (Reduction.collapse s).admissible start d j = true) :
    ((Reduction.collapse s).apply j d).Restricts p where
  points := by
    obtain ⟨c, place, room⟩ := (Option.any_eq_true _ _).1 admissible
    have inside := (Column.consistent_of_isOpen nonneg room).contains_smallestBound
    have value := Reduction.valueOf_of_unguided place (h.ncols ▸ unguided)
    refine h.points.trans (Problem.restricts_mapColumn fun c' v place' within => ?_)
    obtain rfl := Option.some.inj (place.symm.trans place')
    rw [value] at within
    exact within.of_collapse inside
  ncols := (Problem.ncols_mapColumn j _ d.problem).trans h.ncols
  ordered := h.ordered
  idle := h.idle

/-- Making a row an equation without a point loses points only. -/
theorem side (h : d.Restricts p) (unguided : s.solution.point? p.ncols = none) (i : Nat) :
    ((Reduction.side s).apply i d).Restricts p where
  points := by
    refine h.points.trans (Problem.restricts_mapRow (fun _ => rfl) fun r tol x place holds => ?_)
    have ordered := h.ordered r (List.mem_of_getElem? place)
    rw [Reduction.equate_of_unguided (h.ncols ▸ unguided), Row.smallestSide_eq] at holds
    exact holds.of_equation (fun _ => ordered.le_closestToZero) fun _ => ordered.closestToZero_le
  ncols := h.ncols
  ordered := forall_mem_modify h.ordered fun _ _ => Ordered.single _
  idle := h.idle

end Draft.Restricts

namespace ModuleKind

/-- **Without a point, `collapse` and `side` only take points away.**  If the sides of the rows are
in order, then each point that satisfies the program after a call satisfies the program before it,
whatever the oracle answers and in however many batches the elements are tried; with the tolerance
zero, it satisfies both exactly. -/
theorem call_restricts {ω : Type} {k : ModuleKind} (kind : k = collapse ∨ k = side)
    (target : Option Settings) (o : Oracle Rat ω) (params : Parameters) (batches : Nat)
    (i : Instance Rat) (memory : ModuleState) (session : Session Rat ω)
    (unguided : i.solution.point? i.problem.ncols = none)
    (ordered : ∀ r ∈ i.problem.rows, r.Consistent) (tol : Rat) (x : List Rat)
    (satisfied : (k.call target o params batches i memory session).inst.problem.SatisfiedWithin
      tol x) : i.problem.SatisfiedWithin tol x := by
  let s : Scope Rat := Scope.ofRun params i
  have nonneg : 0 ≤ s.tolerance.admissibility := (Tolerance.nonneg_tolerance params).admissibility
  have start : (Draft.ofInstance i).Restricts i.problem := ⟨fun _ _ h => h, rfl, ordered, rfl⟩
  have flush (d : Draft Rat) (h : d.Restricts i.problem) : d.flush.Restricts i.problem := by
    rw [Draft.flush_of_pending_eq_nil h.idle]
    exact h
  have kept : ∃ d : Draft Rat, d.Restricts i.problem ∧
      (k.call target o params batches i memory session).inst = d.toInstance i.solution := by
    rcases kind with rfl | rfl
    · exact (Reduction.collapse s).inst_call_upholds o params batches i memory session start
        (fun _ _ h => h.collapse nonneg unguided) flush collapse.name
    · exact (Reduction.side s).inst_call_upholds o params batches i memory session start
        (fun _ u h _ => h.side unguided u) flush side.name
  obtain ⟨d, restricts, inst⟩ := kept
  rw [inst] at satisfied
  exact restricts.points tol x satisfied

/-- Both rows become equations, in two batches, and a point that satisfies these satisfied the rows
before. -/
theorem call_restricts_blend :
    let i : Instance Rat := { settings := {}, problem := .blend, solution := .unknown }
    let o : Oracle Rat Unit := .ofFunction fun _ => ⟨⟨1⟩, .unknown, 1⟩
    let called := side.call none o .standard 2 i .start (.start () .empty)
    let x : List Rat := [2 / 41, 24 / 41]
    called.session.probes = 2 ∧ called.status = .successful ∧
      i.solution.point? i.problem.ncols = none ∧ (∀ r ∈ i.problem.rows, r.Consistent) ∧
      called.inst.problem.SatisfiedWithin 0 x ∧ i.problem.SatisfiedWithin 0 x := by
  intro i o called x
  have ordered : ∀ r ∈ i.problem.rows, r.Consistent := by decide +kernel
  have satisfied : called.inst.problem.SatisfiedWithin 0 x := by decide +kernel
  exact ⟨by decide +kernel, by decide +kernel, rfl, ordered, satisfied,
    call_restricts (.inr rfl) none o .standard 2 i .start (.start () .empty) rfl ordered 0 x
      satisfied⟩

end ModuleKind
end MipShrink
