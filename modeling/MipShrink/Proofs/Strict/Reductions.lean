/-
# Reductions with strict look-ups

The nine reductions once more, with every look-up as it is made in the lists of a program: sides and
attributes by the row, bounds, costs and attributes by the column, coefficients in what is stored of
the matrix (`Storage`), the values of the reference point by the column, and the marks of implied
rows by the row.  None of them is tested before it is made, and any of them can fault.

A strict reduction works its marks and candidates out before the call.  What it looks up later is
looked up in the draft, whose coefficients are those that were stored last.
-/

import MipShrink.Modules
import MipShrink.Proofs.Strict.Faults

namespace MipShrink

variable {α υ : Type}

/-- A reduction whose look-ups have to succeed. -/
structure StrictReduction (α υ : Type) where
  /-- What is known of the rows for the time of a call, and the elements in the order in which they
  are tried. -/
  prepare : Storage α → Problem α → Settings → Except Fault (List Bool × List υ)
  /-- Is the element worth changing? -/
  admissible : List Bool → Storage α → Draft α → υ → Except Fault Bool
  /-- Change an element that is worth changing. -/
  apply : Storage α → υ → Draft α → Except Fault (Draft α)

namespace Strict

variable [Scalar α]

/-- The row at a place, with its stored coefficients. -/
def row (m : Storage α) (i : Nat) (p : Problem α) : Except Fault (Row α) := do
  let r ← get i p.rows
  return { r with coeffs := ← m.readRow i }

/-- The column at a place. -/
def column (j : Nat) (p : Problem α) : Except Fault (Column α) := get j p.columns

/-- The draft with one row changed. -/
def modifyRow (i : Nat) (f : Row α → Row α) (d : Draft α) : Except Fault (Draft α) := do
  let _ ← get i d.problem.rows
  return d.mapProblem fun p => p.mapRow i f

/-- The draft with one column changed. -/
def modifyColumn (j : Nat) (f : Column α → Column α) (d : Draft α) : Except Fault (Draft α) := do
  let _ ← get j d.problem.columns
  return d.mapProblem fun p => p.mapColumn j f

/-- The value of coefficients at a point. -/
def activity (x : List α) (coeffs : List (Nat × α)) : Except Fault α :=
  coeffs.foldlM (fun sum e => do return sum + e.2 * (← get e.1 x)) 0

/-- The value that a column is moved to. -/
def valueOf (s : Scope α) (m : Storage α) (j : Nat) (p : Problem α) : Except Fault α :=
  match s.solution.point? m.ncols with
  | some x => do
    let value ← get j x
    return if (← column j p).isIntegral then Scalar.round value else value
  | none => return (← column j p).smallestBound

/-- The range of a row over the domains of its columns. -/
def rowRange (r : Row α) (p : Problem α) : Except Fault (RowActivity α) :=
  r.coeffs.foldlM
    (fun range e => do
      let c ← column e.1 p
      return range.add e.2 c.lower? c.upper?)
    .zero

/-- The rows that the domains imply. -/
def implied (tol : α) (m : Storage α) (p : Problem α) : Except Fault (List Bool) :=
  (List.range m.nrows).mapM fun i => do
    let r ← row m i p
    return (← rowRange r p).impliesSides tol r

/-- Drop rows. -/
def constraint (s : Scope α) : StrictReduction α Nat :=
  { prepare := fun m p _ => do
      let marks ← if Reduction.keepsReasons s then implied s.tolerance.feasibility m p else pure []
      return (marks, Scope.downFrom m.nrows)
    admissible := fun marks _ d i => do
      if (← get i d.problem.rows).isRedundant then return false
      if Reduction.keepsReasons s then get i marks else return true
    apply := fun _ i d => modifyRow i (Row.assignFlag .redundant true) d }

/-- Collapse domains. -/
def collapse (s : Scope α) : StrictReduction α Nat :=
  { prepare := fun m _ _ => return ([], Scope.downFrom m.ncols)
    admissible := fun _ _ d j => do
      return (← column j d.problem).isOpen s.tolerance.admissibility
    apply := fun m j d => do
      let x ← valueOf s m j d.problem
      modifyColumn j (Column.collapse x) d }

/-- Remove objective terms. -/
def objective (s : Scope α) : StrictReduction α Nat :=
  { prepare := fun m _ _ => return ([], Scope.downFrom m.ncols)
    admissible := fun _ _ d j => do
      let c ← column j d.problem
      return !c.isRemoved && !Within.vanishes s.tolerance.admissibility c.cost
    apply := fun _ j d => modifyColumn j (Column.setCost 0) d }

/-- Every value of the row is integral, and so are its columns. -/
def isRowIntegral (epsilon : α) (r : Row α) (p : Problem α) : Except Fault Bool :=
  r.coeffs.allM fun e => do
    return (← column e.1 p).isIntegral && Within.integral epsilon e.2

/-- The value at which a row becomes an equation. -/
def sideValue (s : Scope α) (m : Storage α) (r : Row α) (p : Problem α) : Except Fault α :=
  match s.solution.point? m.ncols with
  | some x => do
    let value ← activity x r.coeffs
    return if ← isRowIntegral s.tolerance.epsilon r p then Scalar.round value else value
  | none => return r.smallestSide

/-- Turn rows into equations. -/
def side (s : Scope α) : StrictReduction α Nat :=
  { prepare := fun m _ _ => return ([], Scope.downFrom m.nrows)
    admissible := fun _ m d i => do
      let r ← row m i d.problem
      if !r.isRedundant && Reduction.hasFreeSide s.tolerance.admissibility r then
        r.coeffs.anyM fun e => do
          return (← column e.1 d.problem).isOpen s.tolerance.admissibility
      else return false
    apply := fun m i d => do
      let x ← sideValue s m (← row m i d.problem) d.problem
      modifyRow i (fun r => (r.setLhs x).setRhs x) d }

/-- Note that the coefficient of a column in a row disappears, and move what it contributes at the
value `x` out of the sides. -/
def moveEntry (j : Nat) (x : α) (d : Draft α) (e : Nat × α) : Except Fault (Draft α) := do
  return (← modifyRow e.1 (Row.shift (e.2 * x)) d).change e.1 j 0

/-- Take out columns with a single value. -/
def fixing (s : Scope α) : StrictReduction α Nat :=
  { prepare := fun m _ _ => return ([], Scope.downFrom m.ncols)
    admissible := fun _ _ d j => do
      let c ← column j d.problem
      return !c.isRemoved && c.isCollapsed s.tolerance.admissibility
    apply := fun m j d => do
      let c ← column j d.problem
      let x := Reduction.singleValue c
      let d ← modifyColumn j (fun c => (c.collapse x).assignFlag .fixed true) d
      let d ← (← m.readColumn j).foldlM (moveEntry j x) d
      let d ← modifyColumn j (Column.setCost 0) d
      return d.mapProblem fun p => { p with offset := p.offset + c.cost * x } }

/-- Take out coefficients. -/
def coefficient (s : Scope α) : StrictReduction α (Nat × Nat) :=
  { prepare := fun m _ _ => do
      let lines ← (List.range m.nrows).reverse.mapM fun i => do
        return (← m.readRow i).map fun e => (i, e.1)
      return ([], lines.flatten)
    admissible := fun _ m d e => do
      let r ← get e.1 d.problem.rows
      let c ← column e.2 d.problem
      let valued := (s.solution.point? m.ncols).isSome || !c.flags.lbInf || !c.flags.ubInf
      if !r.isRedundant && !c.isRemoved && valued then
        return (← m.readCoeff e.1 e.2).isSome
      else return false
    apply := fun m e d => do
      let x ← valueOf s m e.2 d.problem
      match ← m.readCoeff e.1 e.2 with
      | none => return d
      | some a => moveEntry e.2 x d (e.1, a) }

/-- Make columns integral. -/
def varround (s : Scope α) : StrictReduction α Nat :=
  { prepare := fun m _ _ => return ([], List.range m.ncols)
    admissible := fun _ _ d j => do
      let c ← column j d.problem
      return !c.isRemoved &&
        (!Within.integral s.tolerance.admissibility c.cost ||
          Reduction.hasFractionalBound s.tolerance.admissibility c)
    apply := fun _ j d => modifyColumn j (Reduction.roundColumn s.tolerance) d }

/-- The value of the row with rounded coefficients at the point, if there is one. -/
def roundedActivity (s : Scope α) (m : Storage α) (r : Row α) : Except Fault (Option α) :=
  match s.solution.point? m.ncols with
  | some x => return some (← activity x (Reduction.roundCoeffs r).coeffs)
  | none => return none

/-- Make rows integral. -/
def consround (s : Scope α) : StrictReduction α Nat :=
  { prepare := fun m _ _ => return ([], List.range m.nrows)
    admissible := fun _ m d i => do
      let r ← row m i d.problem
      return !r.isRedundant && Reduction.isFractionalRow s.tolerance.admissibility r
    apply := fun m i d => do
      let r ← row m i d.problem
      let value ← roundedActivity s m r
      modifyRow i (Reduction.roundSides s.tolerance.feasibility value)
        (Reduction.noteRounded i r d) }

/-- Move settings towards a target.  Settings are looked up by the option of finding none. -/
def setting (target : Option Settings) : StrictReduction α (SettingKind × Nat) :=
  let r : Reduction α (SettingKind × Nat) := Reduction.setting target
  { prepare := fun _ p s => return ([], r.candidates p s)
    admissible := fun _ _ d e => return r.admissible d.problem d e
    apply := fun _ e d => return r.apply e d }

end Strict

namespace ModuleKind

variable [Scalar α]

/-- The reduction of a module with strict look-ups. -/
def strict (k : ModuleKind) (target : Option Settings) (s : Scope α) :
    StrictReduction α (k.reduction target s).Element :=
  match k with
  | constraint => Strict.constraint s
  | collapse => Strict.collapse s
  | objective => Strict.objective s
  | side => Strict.side s
  | fixing => Strict.fixing s
  | coefficient => Strict.coefficient s
  | varround => Strict.varround s
  | consround => Strict.consround s
  | setting => Strict.setting target

end ModuleKind
end MipShrink
