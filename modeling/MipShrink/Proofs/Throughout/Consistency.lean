/-
# Ordered bounds

A domain whose lower bound lies above its upper bound is empty, and a program with such a domain
cannot be written and read again.  No run makes one: if the finite bounds of every column and the
finite sides of every row are in order at the beginning, they are so in every instance that the
oracle is asked about and after every call (`Run.consistent_throughout`).

A change either puts both ends at one value, or moves both by the same amount, or rounds them
outward.  Only the last needs a condition: the roundings forgive the feasibility tolerance, so that
the two ends of `[1/2, 1/2]` would cross if it were one half.
-/

import MipShrink.Proofs.Reduction.Bounds
import MipShrink.Proofs.Throughout.Invariance
import MipShrink.Proofs.Tolerance.Rounding

namespace MipShrink

open Rational

/-- The two ends of an interval are in order, if both are finite. -/
def Ordered (lower upper : Option Rat) : Prop :=
  ∀ l ∈ lower, ∀ u ∈ upper, l ≤ u

instance (lower upper : Option Rat) : Decidable (Ordered lower upper) :=
  inferInstanceAs (Decidable (∀ l ∈ lower, ∀ u ∈ upper, l ≤ u))

namespace Ordered

variable {lower upper : Option Rat}

/-- A single value is in order. -/
theorem single (x : Rat) : Ordered (some x) (some x) := by
  intro l left u right
  obtain rfl := Option.some.inj left
  obtain rfl := Option.some.inj right
  exact Rat.le_refl

/-- Ends that are moved in order stay in order. -/
theorem map (h : Ordered lower upper) {f g : Rat → Rat} (order : ∀ l u, l ≤ u → f l ≤ g u) :
    Ordered (lower.map f) (upper.map g) := by
  intro l' left u' right
  obtain ⟨l, finite, rfl⟩ := Option.map_eq_some_iff.1 left
  obtain ⟨u, finite', rfl⟩ := Option.map_eq_some_iff.1 right
  exact order l u (h l finite u finite')

/-- Two ends stay in order when both are moved. -/
theorem sub (h : Ordered lower upper) (delta : Rat) :
    Ordered (lower.map (· - delta)) (upper.map (· - delta)) :=
  h.map fun l u le => by grind

/-- Ends that are in order have a number between them. -/
theorem exists_between (h : Ordered lower upper) :
    ∃ v, (∀ l ∈ lower, l ≤ v) ∧ ∀ u ∈ upper, v ≤ u := by
  cases lower with
  | some l =>
    refine ⟨l, fun l' left => ?_, h l rfl⟩
    obtain rfl := Option.some.inj left
    exact Rat.le_refl
  | none =>
    have nothing {v : Rat} : ∀ l ∈ (none : Option Rat), l ≤ v :=
      fun _ left => absurd left (Option.not_mem_none _)
    cases upper with
    | none => exact ⟨0, nothing, fun _ right => absurd right (Option.not_mem_none _)⟩
    | some u =>
      refine ⟨u, nothing, fun u' right => ?_⟩
      obtain rfl := Option.some.inj right
      exact Rat.le_refl

end Ordered

namespace Column

/-- The bounds are in order. -/
def Consistent (c : Column Rat) : Prop :=
  Ordered c.lower? c.upper?

instance (c : Column Rat) : Decidable c.Consistent :=
  inferInstanceAs (Decidable (Ordered _ _))

namespace Consistent

variable {c : Column Rat}

/-- Rounding outward keeps the bounds in order. -/
theorem roundBounds (h : c.Consistent) {tol : Rat} (narrow : tol < 1 / 2) :
    (Reduction.roundBounds tol c).Consistent := by
  unfold Consistent
  rw [lower?_roundBounds, upper?_roundBounds]
  exact Ordered.map h fun _ _ => floor_le_ceil narrow

/-- Making a column integral keeps its bounds in order. -/
theorem roundColumn (h : c.Consistent) {t : Tolerance Rat} (narrow : t.feasibility < 1 / 2) :
    (Reduction.roundColumn t c).Consistent := by
  have rounded : (c.setCost (Scalar.round c.cost)).Consistent := h
  unfold Reduction.roundColumn
  dsimp only
  split
  · exact rounded
  · exact rounded.roundBounds narrow

end Consistent
end Column

namespace Row

/-- The sides are in order. -/
def Consistent (r : Row Rat) : Prop :=
  Ordered r.lhs? r.rhs?

instance (r : Row Rat) : Decidable r.Consistent :=
  inferInstanceAs (Decidable (Ordered _ _))

/-- An activity that widens a rounding widens it on both sides. -/
theorem outwardLhs_le_outwardRhs {tol : Rat} (narrow : tol < 1 / 2) (activity : Option Rat)
    {l u : Rat} (le : l ≤ u) :
    Reduction.outwardLhs tol activity l ≤ Reduction.outwardRhs tol activity u := by
  have rounded := floor_le_ceil narrow le
  unfold Reduction.outwardLhs Reduction.outwardRhs Scalar.least Scalar.greatest
  cases activity with
  | none => exact rounded
  | some a =>
    dsimp only
    split <;> split <;> grind

namespace Consistent

variable {r : Row Rat}

/-- Putting a value in keeps the sides in order. -/
theorem putIn (h : r.Consistent) (j : Nat) (x : Rat) : (r.putIn j x).Consistent := by
  unfold Consistent
  rw [lhs?_putIn, rhs?_putIn]
  exact Ordered.sub h _

/-- Making a row integral keeps its sides in order. -/
theorem makeIntegral (h : r.Consistent) {tol : Rat} (narrow : tol < 1 / 2)
    (point : Option (List Rat)) : (r.makeIntegral tol point).Consistent := by
  unfold Consistent
  rw [lhs?_makeIntegral, rhs?_makeIntegral]
  exact Ordered.map h fun _ _ => outwardLhs_le_outwardRhs narrow _

end Consistent
end Row

namespace Problem

/-- All bounds and all sides are in order. -/
structure Consistent (p : Problem Rat) : Prop where
  columns : ∀ c ∈ p.columns, c.Consistent
  rows : ∀ r ∈ p.rows, r.Consistent

/-- The parts of being consistent, side by side. -/
theorem consistent_iff (p : Problem Rat) : p.Consistent ↔
    (∀ c ∈ p.columns, c.Consistent) ∧ ∀ r ∈ p.rows, r.Consistent :=
  ⟨fun h => ⟨h.columns, h.rows⟩, fun h => ⟨h.1, h.2⟩⟩

instance (p : Problem Rat) : Decidable p.Consistent :=
  decidable_of_iff' _ p.consistent_iff

namespace Consistent

variable {p : Problem Rat}

/-- A program stays consistent if the changed row does. -/
theorem mapRow (h : p.Consistent) (i : Nat) {f : Row Rat → Row Rat}
    (row : ∀ r, r.Consistent → (f r).Consistent) : (p.mapRow i f).Consistent where
  columns := h.columns
  rows := forall_mem_modify h.rows fun r place => row r (h.rows r (List.mem_of_getElem? place))

/-- A program stays consistent if the changed column does. -/
theorem mapColumn (h : p.Consistent) (j : Nat) {f : Column Rat → Column Rat}
    (column : ∀ c, c.Consistent → (f c).Consistent) : (p.mapColumn j f).Consistent where
  columns := forall_mem_modify h.columns fun c place =>
    column c (h.columns c (List.mem_of_getElem? place))
  rows := h.rows

/-- Eliminating a column keeps a program consistent. -/
theorem eliminate (h : p.Consistent) (j : Nat) : (p.eliminate j).Consistent := by
  unfold Problem.eliminate
  split
  · exact h
  · refine ⟨forall_mem_modify h.columns fun c _ => Ordered.single _, fun r' mem => ?_⟩
    obtain ⟨r, before, rfl⟩ := List.mem_map.1 mem
    exact (h.rows r before).putIn j _

end Consistent
end Problem

/-- **Every change of an element leaves the bounds and the sides in order.** -/
theorem ModuleKind.consistent_of_step (k : ModuleKind) {target : Option Settings} {s : Scope Rat}
    {start : Problem Rat} {x y : Instance Rat} (narrow : s.tolerance.feasibility < 1 / 2)
    (h : x.problem.Consistent) (step : (k.direct target s).Step start x y) :
    y.problem.Consistent := by
  cases k with
  | constraint =>
    obtain ⟨i, -, rfl⟩ := step
    exact h.mapRow i fun _ same => same
  | collapse =>
    obtain ⟨j, -, rfl⟩ := step
    exact h.mapColumn j fun _ _ => Ordered.single _
  | objective =>
    obtain ⟨j, -, rfl⟩ := step
    exact h.mapColumn j fun _ same => same
  | side =>
    obtain ⟨i, -, rfl⟩ := step
    exact h.mapRow i fun _ _ => Ordered.single _
  | fixing =>
    obtain ⟨j, -, rfl⟩ := step
    exact h.eliminate j
  | coefficient =>
    obtain ⟨e, -, rfl⟩ := step
    exact h.mapRow e.1 fun _ hr => hr.putIn e.2 _
  | varround =>
    obtain ⟨j, -, rfl⟩ := step
    exact h.mapColumn j fun _ hc => hc.roundColumn narrow
  | consround =>
    obtain ⟨i, -, rfl⟩ := step
    exact h.mapRow i fun _ hr => hr.makeIntegral narrow _
  | setting =>
    obtain ⟨e, -, rfl⟩ := step
    cases target <;> exact h

/-- No change of an element brings bounds or sides out of order. -/
theorem Scope.keeps_consistent {s : Scope Rat} (narrow : s.tolerance.feasibility < 1 / 2)
    (target : Option Settings) : s.Keeps target fun x => x.problem.Consistent :=
  fun k _ _ _ _ h step => k.consistent_of_step narrow h step

namespace Run

/-- **Bounds and sides stay in order throughout a run**, whatever the reference, the settings and
the answers of the oracle, if the feasibility tolerance is below one half. -/
theorem consistent_throughout {ω : Type} {i : Instance Rat} (canonical : i.problem.Canonical)
    (consistent : i.problem.Consistent) {params : Parameters}
    (narrow : (params.tolerance : Tolerance Rat).feasibility < 1 / 2) (o : Oracle Rat ω)
    (target : Option Settings) (s : RunState) (session : Session Rat ω) :
    Throughout (fun x => x.problem.Consistent) o params target s i session := by
  have keeps := Scope.keeps_consistent (s := Scope.ofRun params i) narrow target
  exact (holds_throughout o s session canonical keeps consistent).imp fun _ upholds => upholds.holds

/-- A column and a row with little room between whole numbers. -/
def slim : Instance Rat :=
  { settings := {}
    problem :=
      { name := "slim", sense := .minimize, offset := 0
        columns := [{ name := "x", cost := 1, lower := 1 / 2, upper := 3 / 5, flags := {} }]
        rows := [{ name := "r", coeffs := [(0, 1)], lhs := 1 / 2, rhs := 4 / 7, flags := {} }] }
    solution := .unknown }

/-- The defect shows as long as the row and the column have room and the row its coefficient. -/
def showsRoom (i : Instance Rat) : Answer :=
  let kept := (i.problem.columns.all fun c => !c.isCollapsed 0) &&
    i.problem.rows.all fun r => !r.isRedundant && !r.flags.equation && r.coeffs.length == 1
  { retcode := ⟨if kept then 1 else 0⟩, status := .unknown, effort := 1 }

/-- A column and a row are rounded outward. -/
theorem consistent_throughout_slim :
    let o := Oracle.ofFunction showsRoom
    let final := (reduce o .standard none (.start .standard) slim (.start () .empty)).2.inst.problem
    (final.columns.map fun c => (c.lower?, c.upper?)) = [(some 0, some 1)] ∧
      (final.rows.map fun r => (r.lhs?, r.rhs?)) = [(some 0, some 1)] ∧
      Throughout (fun x => x.problem.Consistent) o .standard none (.start .standard) slim
        (.start () .empty) :=
  ⟨by decide +kernel, by decide +kernel,
    consistent_throughout (by decide +kernel) (by decide +kernel) (by decide +kernel) _ none _ _⟩

end Run
end MipShrink
