/-
# Reductions of coefficients and settings

* `coefficient` takes a single coefficient out by putting a value in for its column, in its row
  only: the value of the reference point or the bound closest to zero.
* `setting` moves a setting to its value in the target settings.  Settings are paired by their kind
  and place, and have to have the same name.  Without target there is nothing to do.
-/

import MipShrink.Reduction.Basic

namespace MipShrink
namespace Reduction

variable {α : Type} [Scalar α]

/-- There is a value to put in for the column: one of its bounds is finite, or there is a point. -/
def hasValue (s : Scope α) (p : Problem α) (c : Column α) : Bool :=
  (s.solution.point? p.ncols).isSome || !c.flags.lbInf || !c.flags.ubInf

/-- The positions of the coefficients, by rows from the last one up. -/
def positions (p : Problem α) : List (Nat × Nat) :=
  p.rows.zipIdx.reverse.flatMap fun e => e.1.coeffs.map fun c => (e.2, c.1)

/-- Take out coefficients. -/
def coefficient (s : Scope α) : Reduction α (Nat × Nat) :=
  { candidates := fun p _ => positions p
    admissible := fun _ d e =>
      d.problem.rowHas e.1 (fun r => !r.isRedundant && (r.coeff? e.2).isSome) &&
        d.problem.columnHas e.2 fun c => !c.isRemoved && hasValue s d.problem c
    apply := fun e d =>
      match d.problem.matrix.coeff? e.1 e.2 with
      | none => d
      | some a =>
        let x := s.valueOf e.2 d.problem
        (d.change e.1 e.2 0).mapProblem fun p => p.mapRow e.1 (Row.shift (a * x)) }

/-- The kinds and places of all settings. -/
def places (s : Settings) : List (SettingKind × Nat) :=
  SettingKind.all.flatMap fun k => (List.range (s.count k)).map fun i => (k, i)

/-- The settings have the same name and different values at a place. -/
def differsAt (s target : Settings) (e : SettingKind × Nat) : Bool :=
  match s.get? e.1 e.2, target.get? e.1 e.2 with
  | some (name, v), some (name', v') => name == name' && !(v == v')
  | _, _ => false

/-- The settings with the value of the target at a place. -/
def copyFrom (target : Settings) (e : SettingKind × Nat) (s : Settings) : Settings :=
  match target.get? e.1 e.2 with
  | some (_, v) => s.set e.2 v
  | none => s

/-- Move settings towards a target. -/
def setting (target : Option Settings) : Reduction α (SettingKind × Nat) :=
  { candidates := fun _ s => places s
    admissible := fun _ d e => target.any fun t => differsAt d.settings t e
    apply := fun e d =>
      match target with
      | some t => { d with settings := copyFrom t e d.settings }
      | none => d }

end Reduction
end MipShrink
