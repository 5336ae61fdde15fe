/-
# What a change of an element does

This is the list of all that a module does to an instance when it changes an element.  A row is
marked, becomes an equation, has a value put in for a column, or is made integral
(`Row.Change`); a column collapses, loses its cost, is fixed, or is made integral
(`Column.Change`); the constant of the objective may change.  Only `setting` changes settings, and
it changes nothing else (`ModuleKind.settings_of_step`, `ModuleKind.problem_of_setting`).

What is to be shown of every change needs no look at the nine reductions then: it is shown of a row
and of a column, and `ModuleKind.change_of_step` does the rest.
-/

import Mathlib.Data.List.Forall2
import MipShrink.Proofs.Reduction.Steps

namespace MipShrink

/-- Two lists are related element by element if one of them has a single element changed. -/
theorem forall₂_modify {β : Type} {R : β → β → Prop} (refl : ∀ a, R a a) {f : β → β}
    (changed : ∀ a, R a (f a)) (l : List β) (i : Nat) : List.Forall₂ R l (l.modify i f) := by
  induction l generalizing i with
  | nil =>
    rw [List.modify_nil]
    exact .nil
  | cons a l ih =>
    cases i with
    | zero => exact .cons (changed a) (List.forall₂_same.2 fun b _ => refl b)
    | succ i => exact .cons (refl a) (ih i)

variable {α : Type} [Scalar α]

/-- What a change of an element makes of a row. -/
inductive Row.Change : Row α → Row α → Prop where
  | same (r : Row α) : Change r r
  | drop (r : Row α) : Change r (r.assignFlag .redundant true)
  | equate (x : α) (r : Row α) : Change r ((r.setLhs x).setRhs x)
  | putIn (j : Nat) (x : α) (r : Row α) : Change r (r.putIn j x)
  | round (tol : α) (point : Option (List α)) (r : Row α) : Change r (r.makeIntegral tol point)

/-- What a change of an element makes of a column. -/
inductive Column.Change : Column α → Column α → Prop where
  | same (c : Column α) : Change c c
  | collapse (x : α) (c : Column α) : Change c (c.collapse x)
  | dropCost (c : Column α) : Change c (c.setCost 0)
  | fix (x : α) (c : Column α) : Change c (Reduction.fixColumn x c)
  | round (t : Tolerance α) (c : Column α) : Change c (Reduction.roundColumn t c)

/-- What a change of an element makes of a program. -/
structure Problem.Change (p p' : Problem α) : Prop where
  name : p'.name = p.name
  sense : p'.sense = p.sense
  surplus : p'.surplus = p.surplus
  columns : List.Forall₂ Column.Change p.columns p'.columns
  rows : List.Forall₂ Row.Change p.rows p'.rows

namespace Problem

/-- A program that stays as it is has changed, if trivially. -/
theorem Change.refl (p : Problem α) : p.Change p :=
  ⟨rfl, rfl, rfl, List.forall₂_same.2 fun c _ => .same c, List.forall₂_same.2 fun r _ => .same r⟩

/-- A change of a row is a change of the program. -/
theorem change_mapRow (p : Problem α) (i : Nat) {f : Row α → Row α}
    (changed : ∀ r, Row.Change r (f r)) : p.Change (p.mapRow i f) :=
  { Change.refl p with rows := forall₂_modify Row.Change.same changed p.rows i }

/-- A change of a column is a change of the program. -/
theorem change_mapColumn (p : Problem α) (j : Nat) {f : Column α → Column α}
    (changed : ∀ c, Column.Change c (f c)) : p.Change (p.mapColumn j f) :=
  { Change.refl p with columns := forall₂_modify Column.Change.same changed p.columns j }

/-- Eliminating a column is a change of the program. -/
theorem change_eliminate (p : Problem α) (j : Nat) : p.Change (p.eliminate j) := by
  unfold eliminate
  split
  · exact Change.refl p
  · rename_i c _
    have columns := forall₂_modify Column.Change.same
      (Column.Change.fix (Reduction.singleValue c)) p.columns j
    have rows := List.forall₂_map_right_iff.2
      (List.forall₂_same.2 fun r (_ : r ∈ p.rows) => Row.Change.putIn j (Reduction.singleValue c) r)
    exact ⟨rfl, rfl, rfl, columns, rows⟩

end Problem

namespace ModuleKind

variable {k : ModuleKind} {target : Option Settings} {s : Scope α} {start : Problem α}
  {x y : Instance α}

/-- **What a change of an element makes of the program.** -/
theorem change_of_step (step : (k.direct target s).Step start x y) :
    x.problem.Change y.problem := by
  obtain ⟨u, -, rfl⟩ := step
  cases k with
  | constraint => exact x.problem.change_mapRow u Row.Change.drop
  | collapse => exact x.problem.change_mapColumn u (Column.Change.collapse _)
  | objective => exact x.problem.change_mapColumn u Column.Change.dropCost
  | side => exact x.problem.change_mapRow u fun r => Row.Change.equate _ r
  | fixing => exact x.problem.change_eliminate u
  | coefficient => exact x.problem.change_mapRow u.1 (Row.Change.putIn u.2 _)
  | varround => exact x.problem.change_mapColumn u (Column.Change.round s.tolerance)
  | consround => exact x.problem.change_mapRow u (Row.Change.round _ _)
  | setting =>
    cases target with
    | none => exact Problem.Change.refl _
    | some t => exact Problem.Change.refl _

/-- Only `setting` changes settings. -/
theorem settings_of_step (other : k ≠ .setting) (step : (k.direct target s).Step start x y) :
    y.settings = x.settings := by
  obtain ⟨u, -, rfl⟩ := step
  cases k with
  | setting => exact absurd rfl other
  | constraint => rfl
  | collapse => rfl
  | objective => rfl
  | side => rfl
  | fixing => rfl
  | coefficient => rfl
  | varround => rfl
  | consround => rfl

/-- Changing settings leaves the program alone. -/
theorem problem_of_setting (step : (setting.direct target s).Step start x y) :
    y.problem = x.problem := by
  obtain ⟨e, -, rfl⟩ := step
  cases target with
  | none => rfl
  | some t => rfl

/-- A setting that is changed has the name of the target's and gets its value. -/
theorem copied_of_setting (step : (setting.direct target s).Step start x y) :
    ∃ t e, target = some t ∧ Reduction.differsAt x.settings t e = true ∧
      y.settings = Reduction.copyFrom t e x.settings := by
  obtain ⟨e, admissible, rfl⟩ := step
  cases target with
  | none => cases admissible
  | some t => exact ⟨t, e, rfl, admissible, rfl⟩

end ModuleKind
end MipShrink
