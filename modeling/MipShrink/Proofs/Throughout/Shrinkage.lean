/-
# A program only shrinks

The size of a program counts the rows that are not redundant, the columns that are not fixed, the
coefficients, and those among them that are not integral.  With exact numbers no change of an
element makes any of these counts larger: marks stay, coefficients disappear or are rounded, and a
rounded number is integral up to every tolerance that any number meets
(`Rational.integral_nearest`).

So no call of a module makes a count larger, and the sizes that a run reports never go up, from the
one at the start through its rounds to the one in the end (`Run.sizes_descend`).
-/

import Mathlib.Algebra.Order.BigOperators.Group.List
import MipShrink.Proofs.Reduction.Roughness
import MipShrink.Proofs.Throughout.Frame

namespace MipShrink

open Rational

/-! ### Sizes -/

namespace ProblemSize

/-- None of the counts is larger. -/
structure AtMost (a b : ProblemSize) : Prop where
  rows : a.rows ≤ b.rows
  cols : a.cols ≤ b.cols
  nnz : a.nnz ≤ b.nnz
  nonintegral : a.nonintegral ≤ b.nonintegral

variable {a b c : ProblemSize}

/-- No size is larger than itself. -/
theorem AtMost.refl (a : ProblemSize) : a.AtMost a := by
  constructor <;> exact Nat.le_refl _

/-- Being at most as large is transitive. -/
theorem AtMost.trans (h : a.AtMost b) (h' : b.AtMost c) : a.AtMost c where
  rows := Nat.le_trans h.rows h'.rows
  cols := Nat.le_trans h.cols h'.cols
  nnz := Nat.le_trans h.nnz h'.nnz
  nonintegral := Nat.le_trans h.nonintegral h'.nonintegral

instance : Trans (fun a b : ProblemSize => b.AtMost a) (fun a b : ProblemSize => b.AtMost a)
    fun a b : ProblemSize => b.AtMost a :=
  ⟨fun first second => second.trans first⟩

/-- The measure of a program is not larger if its counts are not. -/
theorem AtMost.measure_le (h : a.AtMost b) : a.measure ≤ b.measure := by
  obtain ⟨rows, cols, -, nonintegral⟩ := h
  unfold measure
  omega

end ProblemSize

/-- The sizes that a run reports, in order. -/
def Summary.sizes (s : Summary) : List ProblemSize :=
  s.before :: (s.rounds.map RoundRecord.size ++ [s.after])

/-! ### Counting -/

section Counting

variable {β : Type} {R : β → β → Prop} {l l' : List β}

/-- Fewer of the second elements are counted if the first one counts whenever the second does. -/
theorem countP_le_of_forall₂ {q : β → Bool} (kept : ∀ {a b}, R a b → q b = true → q a = true)
    (related : List.Forall₂ R l l') : l'.countP q ≤ l.countP q := by
  induction related with
  | nil => exact Nat.le_refl _
  | @cons a b l l' first _ ih =>
    by_cases counted : q b = true
    · rw [List.countP_cons_of_pos counted, List.countP_cons_of_pos (kept first counted)]
      exact Nat.succ_le_succ ih
    · rw [List.countP_cons_of_neg counted]
      exact Nat.le_trans ih (List.sublist_cons_self a l).countP_le

/-- A sum is not larger if none of its summands is. -/
theorem sum_map_le_of_forall₂ (f : β → Nat) (le : ∀ {a b}, R a b → f b ≤ f a)
    (related : List.Forall₂ R l l') : (l'.map f).sum ≤ (l.map f).sum := by
  refine List.Forall₂.sum_le_sum ?_
  rw [List.forall₂_map_left_iff, List.forall₂_map_right_iff]
  exact related.flip.imp fun _ _ => le

end Counting

/-! ### Coefficients -/

/-- What is rounded is integral up to a tolerance that some number meets. -/
theorem Rational.integral_nearest {tol a : Rat} (h : Within.integral tol a = true) :
    Within.integral tol (Row.nearest a) = true := by
  have distance : Scalar.abs (a - Scalar.round a) ≤ tol := of_decide_eq_true h
  have nonneg : 0 ≤ tol := by
    rw [abs_eq] at distance
    split at distance <;> grind
  exact integral_of_whole nonneg (Row.whole_nearest a)

namespace Row

/-- The number of coefficients that are not integral. -/
def fractions (tol : Rat) (r : Row Rat) : Nat :=
  r.coeffs.countP fun e => !Within.integral tol e.2

/-- Rounding the coefficients makes no fractions. -/
theorem fractions_roundEntries_le (tol : Rat) (r : Row Rat) :
    r.roundEntries.fractions tol ≤ r.fractions tol := by
  unfold fractions
  calc r.roundEntries.coeffs.countP (fun e => !Within.integral tol e.2)
      ≤ (r.coeffs.map fun e => (e.1, nearest e.2)).countP fun e => !Within.integral tol e.2 :=
        List.Sublist.countP_le List.filter_sublist
    _ = r.coeffs.countP fun e => !Within.integral tol (nearest e.2) := List.countP_map
    _ ≤ r.coeffs.countP fun e => !Within.integral tol e.2 := by
        refine List.countP_mono_left fun e _ fractional => ?_
        rw [Bool.not_eq_true', Bool.eq_false_iff] at fractional ⊢
        exact fun integral => fractional (integral_nearest integral)

/-- The coefficients of a changed row are some of the old ones, or all of them rounded. -/
theorem Change.coeffs_cases {r r' : Row Rat} (change : r.Change r') :
    r'.coeffs.Sublist r.coeffs ∨ r'.coeffs = r.roundEntries.coeffs := by
  cases change with
  | same => exact .inl (List.Sublist.refl _)
  | drop => exact .inl (List.Sublist.refl _)
  | equate x => exact .inl (List.Sublist.refl _)
  | putIn j x =>
    refine .inl ?_
    unfold Row.putIn
    split
    · rename_i a _
      have dropped : ((r.shift (a * x)).setCoeff j 0).coeffs = Keyed.drop j r.coeffs :=
        congrArg (Keyed.drop j) (coeffs_shift ..)
      rw [dropped]
      exact List.filter_sublist
    · exact List.Sublist.refl _
  | round tol point => exact .inr (coeffs_roundSides ..)

/-- Whatever a module does to a row, there are no more coefficients. -/
theorem Change.length_coeffs_le {r r' : Row Rat} (change : r.Change r') :
    r'.coeffs.length ≤ r.coeffs.length := by
  rcases change.coeffs_cases with some | rounded
  · exact some.length_le
  · rw [rounded]
    exact Nat.le_trans (List.length_filter_le ..) (Nat.le_of_eq (List.length_map _))

/-- Whatever a module does to a row, there are no more fractions. -/
theorem Change.fractions_le {r r' : Row Rat} (change : r.Change r') (tol : Rat) :
    r'.fractions tol ≤ r.fractions tol := by
  rcases change.coeffs_cases with some | rounded
  · exact some.countP_le
  · have same : r'.fractions tol = r.roundEntries.fractions tol := by
      unfold fractions
      rw [rounded]
    rw [same]
    exact fractions_roundEntries_le tol r

end Row

/-! ### Programs -/

namespace Problem

/-- **A change of an element makes no count larger.** -/
theorem Change.atMost {p p' : Problem Rat} (change : p.Change p') (t : Tolerance Rat) :
    (p'.size t).AtMost (p.size t) where
  rows := by
    refine countP_le_of_forall₂ (R := Row.Change) (fun {r r'} changed used => ?_) change.rows
    rw [Bool.not_eq_true', Bool.eq_false_iff] at used ⊢
    exact fun marked => used (changed.framed.redundant marked)
  cols := by
    refine countP_le_of_forall₂ (R := Column.Change) (fun {c c'} changed used => ?_) change.columns
    rw [Bool.not_eq_true', Bool.eq_false_iff] at used ⊢
    exact fun marked => used (changed.framed.fixed marked)
  nnz := by
    show (p'.allRows.flatMap Row.coeffs).length ≤ (p.allRows.flatMap Row.coeffs).length
    unfold allRows
    rw [change.surplus, List.flatMap_append, List.flatMap_append, List.length_append,
      List.length_append]
    refine Nat.add_le_add_right ?_ _
    rw [List.length_flatMap, List.length_flatMap]
    exact sum_map_le_of_forall₂ _ Row.Change.length_coeffs_le change.rows
  nonintegral := by
    show (p'.rows.flatMap Row.coeffs).countP _ ≤ (p.rows.flatMap Row.coeffs).countP _
    rw [List.countP_flatMap, List.countP_flatMap]
    exact sum_map_le_of_forall₂ (Row.fractions t.epsilon)
      (fun changed => changed.fractions_le t.epsilon) change.rows

end Problem

/-! ### Runs -/

namespace Machine

variable {σ : Type} {m : Machine σ} {l : Limits} {P : σ → Prop}

/-- A round reports a size that is not larger in any count, and saving keeps it. -/
theorem round_atMost
    (call : ∀ k b w, P w → P (m.call k b w).2 ∧ (m.size (m.call k b w).2).AtMost (m.size w))
    (save : ∀ s w, P w → P (m.save s w) ∧ m.size (m.save s w) = m.size w) (s : RunState) {w : σ}
    (h : P w) : P (m.round l s w).2.2 ∧ (m.round l s w).1.size.AtMost (m.size w) ∧
      m.size (m.round l s w).2.2 = (m.round l s w).1.size := by
  obtain ⟨called, atMost⟩ : P (m.calls l l.maxStages 0 s w).2.2 ∧
      (m.size (m.calls l l.maxStages 0 s w).2.2).AtMost (m.size w) :=
    calls_keeps (P := fun v => P v ∧ (m.size v).AtMost (m.size w))
      (fun k b v ⟨hv, before⟩ => ⟨(call k b v hv).1, (call k b v hv).2.trans before⟩) ⟨h, .refl _⟩
  obtain ⟨saved, same⟩ := save (m.round l s w).2.1 _ called
  exact ⟨saved, atMost, same⟩

/-- **The sizes after the rounds go down.**  The induction is on the rounds that are left. -/
theorem rounds_descend
    (call : ∀ k b w, P w → P (m.call k b w).2 ∧ (m.size (m.call k b w).2).AtMost (m.size w))
    (save : ∀ s w, P w → P (m.save s w) ∧ m.size (m.save s w) = m.size w)
    {left : Nat} {s : RunState} {w : σ} (h : P w) :
    (m.size w :: ((m.rounds l left s w).1.map RoundRecord.size ++
      [m.size (m.rounds l left s w).2.2])).IsChain fun a b => b.AtMost a := by
  induction left generalizing s w with
  | zero => exact .cons_cons (.refl _) (.singleton _)
  | succ left ih =>
    rw [rounds]
    by_cases stage : s.stage < l.maxStages
    · rw [if_pos stage]
      obtain ⟨kept, atMost, reported⟩ := round_atMost (l := l) call save s h
      dsimp only
      split
      · refine .cons_cons atMost (.cons_cons ?_ (.singleton _))
        rw [reported]
        exact .refl _
      · have rest := ih (s := (m.round l s w).2.1) kept
        rw [reported] at rest
        exact .cons_cons atMost rest
    · rw [if_neg stage]
      exact .cons_cons (.refl _) (.singleton _)

/-- **The sizes that a run reports go down.** -/
theorem sizes_run
    (call : ∀ k b w, P w → P (m.call k b w).2 ∧ (m.size (m.call k b w).2).AtMost (m.size w))
    (save : ∀ s w, P w → P (m.save s w) ∧ m.size (m.save s w) = m.size w)
    {p : Parameters} {s : RunState} {w : σ} (h : P (m.opening p w).2)
    (opened : m.size (m.opening p w).2 = m.size w) :
    (m.run p s w).1.sizes.IsChain fun a b => b.AtMost a := by
  show (m.size w :: ((m.body p s (m.opening p w)).1.map RoundRecord.size ++
    [m.size (m.body p s (m.opening p w)).2.2])).IsChain fun a b => b.AtMost a
  rw [← opened]
  unfold body
  split
  · exact .cons_cons (.refl _) (.singleton _)
  · exact rounds_descend call save h

end Machine

namespace Run

variable {ω : Type}

/-- **A run only shrinks its program.**  No call of a module makes a count larger, for whatever
tolerances it is counted, and the sizes that a run reports go down in all their counts and in the
measure, from the size at the start through all rounds to the size in the end. -/
theorem sizes_descend (o : Oracle Rat ω) (params : Parameters) (target : Option Settings)
    (i : Instance Rat) (canonical : i.problem.Canonical) :
    (∀ (k : ModuleKind) (t : Tolerance Rat) (batches : Nat) (memory : ModuleState)
      (session : Session Rat ω),
      ((k.call target o params batches i memory session).inst.problem.size t).AtMost
        (i.problem.size t)) ∧
    ∀ (s : RunState) (session : Session Rat ω),
      (reduce o params target s i session).1.sizes.Pairwise fun a b =>
        b.AtMost a ∧ b.measure ≤ a.measure := by
  have change {k : ModuleKind} {scope : Scope Rat} {start p : Problem Rat} {x y : Instance Rat}
      (t : Tolerance Rat) (before : (x.problem.size t).AtMost (p.size t))
      (step : (k.direct target scope).Step start x y) : (y.problem.size t).AtMost (p.size t) :=
    ((ModuleKind.change_of_step step).atMost t).trans before
  refine ⟨fun k t batches memory session => ?_, fun s session => ?_⟩
  · exact (ModuleKind.call_keeps canonical (P := fun x => (x.problem.size t).AtMost _) (.refl _)
      (fun _ _ _ => change t) o batches memory session).2
  · let m := World.machine o params target (o.clock session.state)
    let P : World Rat ω → Prop := fun w => w.inst.problem.Canonical
    have call : ∀ k b w, P w → P (m.call k b w).2 ∧ (m.size (m.call k b w).2).AtMost (m.size w) :=
      fun k b w before => World.call_keeps before
        (P := fun x => (x.problem.size params.tolerance).AtMost _) (.refl _)
        (fun _ _ _ _ _ => change _) o b
    have save : ∀ s w, P w → P (m.save s w) ∧ m.size (m.save s w) = m.size w := by
      intro s w before
      have same : (m.save s w).inst = w.inst := (w.save_inst params s).1
      exact ⟨by show (m.save s w).inst.problem.Canonical; rwa [same],
        congrArg (fun x : Instance Rat => x.problem.size params.tolerance) same⟩
    have opened : (m.opening params (World.start i session)).2.inst = i :=
      opened_inst o params target i session
    have chain := Machine.sizes_run (m := m) (s := s) call save
      (show P _ by show Problem.Canonical _; rwa [opened])
      (congrArg (fun x : Instance Rat => x.problem.size params.tolerance) opened)
    exact (List.isChain_iff_pairwise.1 chain).imp fun atMost => ⟨atMost, atMost.measure_le⟩

/-- The defect shows as long as the second row has its first coefficient and is no equation.  The
first row is marked, and the second column is fixed, which takes its coefficients out. -/
theorem sizes_descend_blend :
    let i : Instance Rat := { settings := {}, problem := .blend, solution := .unknown }
    let o : Oracle Rat Unit := .ofFunction fun x =>
      let kept := x.problem.rowHas 1 fun r =>
        !r.isRedundant && (r.coeff? 0).isSome && !r.flags.equation
      ⟨⟨if kept then 1 else 0⟩, .unknown, 1⟩
    let summary := (reduce o .standard none (.start .standard) i (.start () .empty)).1
    summary.before = ⟨2, 2, 4, 3⟩ ∧ summary.after = ⟨1, 1, 2, 1⟩ ∧ summary.rounds.length = 5 ∧
      summary.sizes.Pairwise fun a b => b.AtMost a ∧ b.measure ≤ a.measure :=
  ⟨by decide +kernel, by decide +kernel, by decide +kernel,
    (sizes_descend _ .standard none _ Problem.canonical_blend).2 _ _⟩

end Run
end MipShrink
