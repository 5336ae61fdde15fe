/-
# Safe emphasis keeps infeasibility

With an infeasible reference any row could be the reason of the infeasibility, and under safe
emphasis only rows may be dropped that the domains imply.  All of them are judged before the first
one is dropped; dropping one does not change the domains, so that the reason for dropping another
one still holds, and whatever set of rows the oracle lets go, the program has the same points up to
the feasibility tolerance as before (`ModuleKind.constraint_keeps_points`).  This is a property that
each change keeps (`Problem.Sheds.markRedundant`), and hence a call (`Reduction.inst_call_upholds`).

If the oracle always sees the defect, every element that is admissible when it is met is changed for
good (`Reduction.inst_call_of_shows`), and the rows that go are the implied ones.
-/

import MipShrink.Proofs.Problem.ImpliedSides
import MipShrink.Proofs.Run.Commitment

namespace MipShrink

variable {α ω υ : Type}

/-- The oracle sees the defect in every instance. -/
def Oracle.Shows (passCodes : List Int) (o : Oracle α ω) : Prop :=
  ∀ i w, Verdict.classify passCodes (o.ask i w).1.retcode ≠ .okay

section Calls

variable [Scalar α]

/-! ### The instance that a call leaves behind -/

namespace Reduction

/-- The draft with an element changed, if it is admissible. -/
def applyIf (r : Reduction α υ) (start : Problem α) (d : Draft α) (u : υ) : Draft α :=
  if r.admissible start d u then r.apply u d else d

variable (r : Reduction α υ) (o : Oracle α ω) (params : Parameters) (batches : Nat)
  (i : Instance α) (memory : ModuleState) (session : Session α ω)

/-- Before the first success the base is the instance of the call. -/
theorem base_pass_of_failed
    (failed : (r.pass o params batches i memory session).success = false) :
    (r.pass o params batches i memory session).base = .ofInstance i := by
  refine r.pass_keeps o params batches i memory session
    (P := fun p => p.success = false → p.base = .ofInstance i)
    (fun _ => rfl) (fun _ _ _ h => h) (fun p h => ?_) failed
  unfold Pass.probe
  dsimp only
  split
  · exact h
  · exact fun success => absurd success Bool.noConfusion

/-- **A call leaves the draft behind that was accepted last**, whatever its status is. -/
theorem inst_execute : (r.execute o params batches i memory session).inst =
    (r.pass o params batches i memory session).base.toInstance i.solution := by
  unfold execute
  split
  · rename_i nothing
    have empty : r.eligible (Draft.ofInstance i) = [] := List.isEmpty_iff.1 nothing
    unfold pass
    dsimp only
    rw [empty]
    rfl
  · dsimp only
    split
    · rfl
    · rename_i failed
      rw [r.base_pass_of_failed o params batches i memory session (Bool.eq_false_iff.2 failed)]
      rfl

/-- **What every change of an admissible element keeps, a call keeps.**  It has to be kept by
flushing the draft, too. -/
theorem inst_call_upholds {Q : Draft α → Prop} (start : Q (.ofInstance i))
    (apply : ∀ d u, Q d → r.admissible i.problem d u = true → Q (r.apply u d))
    (flush : ∀ d, Q d → Q d.flush) (name : String) :
    ∃ d, Q d ∧ (r.call name o params batches i memory session).inst = d.toInstance i.solution := by
  have kept (memory : ModuleState) : let p := r.pass o params batches i memory session
      Q p.draft ∧ Q p.base := by
    refine r.pass_induction o params batches i memory session (P := fun p => Q p.draft ∧ Q p.base)
      ⟨start, start⟩ (fun p u h admissible => ⟨apply p.draft u h.1 admissible, h.2⟩) fun p h => ?_
    unfold Pass.probe
    dsimp only
    split
    · exact ⟨h.2, h.2⟩
    · exact ⟨flush _ h.1, flush _ h.1⟩
  unfold call
  split
  · exact ⟨_, (kept _).2, r.inst_execute ..⟩
  · exact ⟨.ofInstance i, start, rfl⟩

end Reduction

/-! ### An oracle that always sees the defect -/

namespace Pass

/-- Nothing that is in the draft waits, and it is accepted unless a batch has been begun. -/
structure Holds (d : Draft α) (p : Pass α ω) : Prop where
  draft : p.draft = d
  idle : d.pending = []
  base : p.batch = 0 → p.base = d

variable {c : Setup α ω} {d : Draft α} {p : Pass α ω} {r : Reduction α υ}

/-- A probe in which the defect shows accepts the draft. -/
theorem Holds.probe (shows : c.oracle.Shows c.params.passCodes) (h : p.Holds d) :
    (p.probe c).Holds d ∧ (p.probe c).batch = 0 := by
  have flushed : p.draft.flush = d := by
    rw [h.draft]
    exact Draft.flush_of_pending_eq_nil h.idle
  unfold Pass.probe
  dsimp only
  split
  · rename_i okay
    exact absurd okay (shows _ _)
  · exact ⟨⟨flushed, h.idle, fun _ => flushed⟩, rfl⟩

/-- A step applies its element if it is admissible, and the draft stays accepted. -/
theorem Holds.step (shows : c.oracle.Shows c.params.passCodes)
    (idle : ∀ u d, (r.apply u d).pending = d.pending) (h : p.Holds d) (size : Nat) (u : υ) :
    (p.step r c size u).Holds (r.applyIf c.start d u) := by
  obtain ⟨rfl, waits, base⟩ := h
  unfold Pass.step Reduction.applyIf
  split
  · have changed : Pass.Holds (r.apply u p.draft)
        { p with draft := r.apply u p.draft, batch := p.batch + 1 } :=
      ⟨rfl, (idle u p.draft).trans waits, fun begun => absurd begun (Nat.succ_ne_zero _)⟩
    dsimp only
    split
    · exact (changed.probe shows).1
    · exact changed
  · exact ⟨rfl, waits, base⟩

/-- The steps apply the elements that are admissible when they are met. -/
theorem Holds.foldl (shows : c.oracle.Shows c.params.passCodes)
    (idle : ∀ u d, (r.apply u d).pending = d.pending) (h : p.Holds d) (size : Nat) (us : List υ) :
    (us.foldl (Pass.step r c size) p).Holds (us.foldl (r.applyIf c.start) d) := by
  induction us generalizing p d with
  | nil => exact h
  | cons u us ih => exact ih (h.step shows idle size u)

/-- In the end the draft is what the call leaves. -/
theorem Holds.base_finish (shows : c.oracle.Shows c.params.passCodes) (h : p.Holds d) :
    (p.finish c).base = d := by
  unfold Pass.finish
  split
  · obtain ⟨probed, empty⟩ := h.probe shows
    exact probed.base empty
  · exact h.base (by omega)

end Pass

/-- **If the oracle always sees the defect, a call changes every element that is admissible when it
is met.**  This is said of reductions that change no coefficient. -/
theorem Reduction.inst_call_of_shows {r : Reduction α υ} {o : Oracle α ω} {params : Parameters}
    {name : String} (enabled : params.isEnabled name = true) (shows : o.Shows params.passCodes)
    (idle : ∀ u d, (r.apply u d).pending = d.pending) (batches : Nat) (i : Instance α)
    (memory : ModuleState) (session : Session α ω) :
    (r.call name o params batches i memory session).inst =
      ((r.eligible (.ofInstance i)).foldl (r.applyIf i.problem) (.ofInstance i)).toInstance
        i.solution := by
  let c : Pass.Setup α ω :=
    { oracle := o, params := params, solution := i.solution, start := i.problem }
  let counted := { memory with stats := { memory.stats with calls := memory.stats.calls + 1 } }
  let p : Pass α ω := ⟨.ofInstance i, .ofInstance i, 0, false, counted, session⟩
  have start : p.Holds (.ofInstance i) := ⟨rfl, rfl, fun _ => rfl⟩
  have all := start.foldl (c := c) shows idle
    (batchSize (r.eligible (.ofInstance i)).length batches) (r.eligible (.ofInstance i))
  have called : (r.call name o params batches i memory session).inst =
      (r.execute o params batches i counted session).inst := by
    unfold call
    rw [if_pos enabled]
  rw [called, inst_execute]
  exact congrArg (Draft.toInstance i.solution) (all.base_finish shows)

end Calls

namespace Row

/-- A row that is marked already stays as it is. -/
theorem markRedundant_of_isRedundant {r : Row α} (marked : r.isRedundant = true) :
    r.assignFlag .redundant true = r := by
  obtain ⟨name, coeffs, lhs, rhs, ⟨lhsInf, rhsInf, equation, redundant⟩⟩ := r
  obtain rfl : redundant = true := marked
  rfl

/-- Marking a row twice is marking it once. -/
@[simp] theorem markRedundant_markRedundant (r : Row α) :
    (r.assignFlag .redundant true).assignFlag .redundant true = r.assignFlag .redundant true :=
  rfl

end Row

/-! ### The points of a program -/

namespace Problem

/-- The point lies within the finite bounds, and satisfies every row that counts up to the
tolerance. -/
structure SatisfiedWithin (tol : Rat) (x : List Rat) (p : Problem Rat) : Prop where
  inside : p.Contains x
  rows : ∀ r ∈ p.rows, r.isRedundant = false → r.HoldsWithin tol x

/-- A point satisfies a program if it lies in the box and satisfies the rows that count. -/
theorem satisfiedWithin_iff (tol : Rat) (x : List Rat) (p : Problem Rat) :
    p.SatisfiedWithin tol x ↔
      p.Contains x ∧ ∀ r ∈ p.rows, r.isRedundant = false → r.HoldsWithin tol x :=
  ⟨fun h => ⟨h.inside, h.rows⟩, fun h => ⟨h.1, h.2⟩⟩

instance (tol : Rat) (x : List Rat) (p : Problem Rat) : Decidable (p.SatisfiedWithin tol x) :=
  decidable_of_iff' _ (satisfiedWithin_iff tol x p)

/-- The program `q` is `p` with some rows marked that the domains imply. -/
structure Sheds (tol : Rat) (p q : Problem Rat) : Prop where
  columns : q.columns = p.columns
  rows : ∀ i, q.rows[i]? = p.rows[i]? ∨ p.impliesRow tol i = true ∧
    q.rows[i]? = (p.rows[i]?).map (Row.assignFlag .redundant true)

namespace Sheds

variable {tol : Rat} {p q : Problem Rat}

/-- A program that stays as it is sheds nothing. -/
theorem refl (tol : Rat) (p : Problem Rat) : p.Sheds tol p :=
  ⟨rfl, fun _ => .inl rfl⟩

/-- Implied rows were implied from the start, whichever of them have been marked. -/
theorem markRedundant (h : p.Sheds tol q) {i : Nat} (implied : p.impliesRow tol i = true) :
    p.Sheds tol (q.markRedundant i) where
  columns := h.columns
  rows k := by
    by_cases here : i = k
    · subst here
      refine .inr ⟨implied, ?_⟩
      have marked : (q.markRedundant i).rows[i]? =
          (q.rows[i]?).map (Row.assignFlag .redundant true) := List.getElem?_modify_eq ..
      rw [marked]
      rcases h.rows i with same | ⟨-, before⟩
      · rw [same]
      · rw [before, Option.map_map]
        rfl
    · have same : (q.markRedundant i).rows[k]? = q.rows[k]? := List.getElem?_modify_ne _ _ here
      rw [same]
      exact h.rows k

/-- **A program keeps its points when it sheds rows.**  A point that satisfies the rows that are
left lies within the bounds, and so satisfies the others. -/
theorem satisfiedWithin_iff (h : p.Sheds tol q) (x : List Rat) :
    q.SatisfiedWithin tol x ↔ p.SatisfiedWithin tol x := by
  have box : q.Contains x ↔ p.Contains x := contains_congr h.columns
  constructor
  · intro satisfied
    have inside := box.1 satisfied.inside
    refine ⟨inside, fun r mem used => ?_⟩
    obtain ⟨i, place⟩ := List.getElem?_of_mem mem
    rcases h.rows i with same | ⟨implied, -⟩
    · exact satisfied.rows r (List.mem_of_getElem? (same.trans place)) used
    · have range : (p.rowRange r).impliesSides tol r = true := by
        unfold impliesRow rowHas at implied
        rwa [place] at implied
      exact holdsWithin_of_impliesSides range inside
  · intro satisfied
    refine ⟨box.2 satisfied.inside, fun r mem used => ?_⟩
    obtain ⟨i, place⟩ := List.getElem?_of_mem mem
    rcases h.rows i with same | ⟨-, marked⟩
    · exact satisfied.rows r (List.mem_of_getElem? (same.symm.trans place)) used
    · obtain ⟨r, -, rfl⟩ := Option.map_eq_some_iff.1 (marked.symm.trans place)
      exact absurd used Bool.noConfusion

end Sheds

/-! ### The implied rows -/

/-- The program with all rows marked that the domains imply. -/
def dropImplied (tol : Rat) (p : Problem Rat) : Problem Rat :=
  { p with rows := p.rows.map fun r =>
      if !r.isRedundant && (p.rowRange r).impliesSides tol r then r.assignFlag .redundant true
      else r }

/-- A row that does not count, or is not there, need not be marked. -/
theorem markRedundant_eq_self {i : Nat} {p : Problem α}
    (idle : p.rowHas i (fun r => !r.isRedundant) = false) : p.markRedundant i = p := by
  refine mapRow_eq_self fun r place => Row.markRedundant_of_isRedundant ?_
  unfold rowHas at idle
  rwa [place, Option.any_some, Bool.not_eq_false'] at idle

/-- Only the marked row has another mark. -/
theorem getElem?_markRedundant (i k : Nat) (p : Problem α) : (p.markRedundant i).rows[k]? =
    if k = i then (p.rows[k]?).map (Row.assignFlag .redundant true) else p.rows[k]? := by
  unfold markRedundant mapRow
  rw [List.getElem?_modify]
  by_cases here : i = k
  · simp [here]
  · simp [here, Ne.symm here]

/-- Marking rows one by one marks each of them and changes nothing else. -/
theorem foldl_markRedundant (is : List Nat) (p : Problem α) :
    is.foldl (fun p i => p.markRedundant i) p =
      { p with rows := p.rows.mapIdx fun k r =>
          if k ∈ is then r.assignFlag .redundant true else r } := by
  induction is generalizing p with
  | nil =>
    have rows : (p.rows.mapIdx fun _ r => r) = p.rows := by
      refine List.ext_getElem? fun k => ?_
      simp
    simp only [List.not_mem_nil, if_false, rows]
    rfl
  | cons i is ih =>
    have rows : (p.markRedundant i).rows.mapIdx
          (fun k r => if k ∈ is then r.assignFlag .redundant true else r) =
        p.rows.mapIdx fun k r => if k ∈ i :: is then r.assignFlag .redundant true else r := by
      refine List.ext_getElem? fun k => ?_
      rw [List.getElem?_mapIdx, List.getElem?_mapIdx, getElem?_markRedundant]
      by_cases here : k = i
      · cases p.rows[k]? <;> simp [here]
      · simp [here]
    rw [List.foldl_cons, ih, rows]
    rfl

end Problem

namespace Reduction

variable {s : Scope Rat}

/-- With an infeasible reference under safe emphasis, rows that count may go if they are implied. -/
theorem admissible_constraint (reasons : keepsReasons s = true) (start : Problem Rat)
    (d : Draft Rat) (k : Nat) : (constraint s).admissible start d k =
      (d.problem.rowHas k (fun r => !r.isRedundant) &&
        start.impliesRow s.tolerance.feasibility k) := by
  show (_ && (!keepsReasons s || _)) = _
  rw [reasons]
  rfl

/-- Dropping the implied rows among some rows marks all of these. -/
theorem foldl_applyIf_constraint (reasons : keepsReasons s = true) {start : Problem Rat}
    {is : List Nat} (implied : ∀ i ∈ is, start.impliesRow s.tolerance.feasibility i = true)
    (d : Draft Rat) : is.foldl ((constraint s).applyIf start) d =
      d.mapProblem fun p => is.foldl (fun p i => p.markRedundant i) p := by
  induction is generalizing d with
  | nil => rfl
  | cons i is ih =>
    have first : (constraint s).applyIf start d i = d.mapProblem (Problem.markRedundant i) := by
      unfold applyIf
      rw [admissible_constraint reasons, implied i List.mem_cons_self, Bool.and_true]
      split
      · rfl
      · rename_i idle
        have same := Problem.markRedundant_eq_self (Bool.eq_false_iff.2 idle)
        unfold Draft.mapProblem
        rw [same]
    rw [List.foldl_cons, first, ih fun k mem => implied k (List.mem_cons_of_mem _ mem)]
    rfl

/-- A row may be dropped in the beginning if it counts and is implied. -/
theorem mem_eligible_constraint (reasons : keepsReasons s = true) {d : Draft Rat} {k : Nat}
    {r : Row Rat} (place : d.problem.rows[k]? = some r) : k ∈ (constraint s).eligible d ↔
      (!r.isRedundant && (d.problem.rowRange r).impliesSides s.tolerance.feasibility r) = true := by
  have below : k ∈ (constraint s).candidates d.problem d.settings :=
    Scope.mem_downFrom.2 (List.getElem?_eq_some_iff.1 place).1
  unfold eligible
  rw [List.mem_filter, admissible_constraint reasons, Problem.impliesRow, Problem.rowHas,
    Problem.rowHas, place]
  exact and_iff_right below

/-- Marking all rows that may be dropped in the beginning drops the implied ones. -/
theorem foldl_eligible_constraint (reasons : keepsReasons s = true) (i : Instance Rat) :
    let d := Draft.ofInstance i
    ((constraint s).eligible d).foldl ((constraint s).applyIf i.problem) d =
      d.mapProblem (Problem.dropImplied s.tolerance.feasibility) := by
  intro d
  have implied : ∀ k ∈ (constraint s).eligible d,
      i.problem.impliesRow s.tolerance.feasibility k = true := by
    intro k mem
    have admissible := (List.mem_filter.1 mem).2
    rw [admissible_constraint reasons, Bool.and_eq_true] at admissible
    exact admissible.2
  have rows : (i.problem.rows.mapIdx fun k r =>
        if k ∈ (constraint s).eligible d then r.assignFlag .redundant true else r) =
      (i.problem.dropImplied s.tolerance.feasibility).rows := by
    refine List.ext_getElem? fun k => ?_
    unfold Problem.dropImplied
    rw [List.getElem?_mapIdx, List.getElem?_map]
    cases place : i.problem.rows[k]? with
    | none => rfl
    | some r =>
      have eligible := mem_eligible_constraint reasons (d := d) place
      simp only [Option.map_some, eligible]
      rfl
  rw [foldl_applyIf_constraint reasons implied]
  unfold Draft.mapProblem
  dsimp only
  rw [Problem.foldl_markRedundant, show d.problem = i.problem from rfl, rows]
  rfl

end Reduction

namespace ModuleKind

/-- **Safe emphasis keeps infeasibility.**  With an infeasible reference, a call that drops rows
leaves the points of the program as they are, whatever the oracle answers; and if the oracle always
sees the defect and the module is switched on, the rows that it drops are those that count and that
the domains imply before. -/
theorem constraint_keeps_points (target : Option Settings) (o : Oracle Rat ω)
    (params : Parameters) (batches : Nat) (i : Instance Rat) (memory : ModuleState)
    (session : Session Rat ω) (safe : params.emphasis = .safe)
    (infeasible : i.solution.status = .infeasible) :
    let tol : Rat := params.tolerance.feasibility
    let r := constraint.call target o params batches i memory session
    (∀ x, r.inst.problem.SatisfiedWithin tol x ↔ i.problem.SatisfiedWithin tol x) ∧
      (o.Shows params.passCodes →
        r.inst = if params.isEnabled constraint.name then i.mapProblem (Problem.dropImplied tol)
          else i) := by
  intro tol r
  let s : Scope Rat := Scope.ofRun params i
  have reasons : Reduction.keepsReasons s = true := by
    show (params.emphasis == .safe && i.solution.status == .infeasible) = true
    rw [safe, infeasible]
    rfl
  constructor
  · -- Dropping a row changes no coefficient, so that nothing ever waits to be written.
    obtain ⟨d, ⟨sheds, -⟩, inst⟩ := (Reduction.constraint s).inst_call_upholds o params batches i
      memory session (Q := fun d => i.problem.Sheds tol d.problem ∧ d.pending = [])
      ⟨Problem.Sheds.refl tol i.problem, rfl⟩
      (fun d k ⟨sheds, idle⟩ admissible => by
        rw [Reduction.admissible_constraint reasons, Bool.and_eq_true] at admissible
        exact ⟨sheds.markRedundant admissible.2, idle⟩)
      (fun d ⟨sheds, idle⟩ => by
        rw [Draft.flush_of_pending_eq_nil idle]
        exact ⟨sheds, idle⟩)
      constraint.name
    have problem : r.inst.problem = d.problem := congrArg Instance.problem inst
    rw [problem]
    exact sheds.satisfiedWithin_iff
  · intro shows
    by_cases enabled : params.isEnabled constraint.name = true
    · rw [if_pos enabled]
      have called := Reduction.inst_call_of_shows (r := Reduction.constraint s) enabled shows
        (fun _ _ => rfl) batches i memory session
      exact called.trans
        (congrArg (Draft.toInstance i.solution) (Reduction.foldl_eligible_constraint reasons i))
    · rw [if_neg enabled]
      exact congrArg CallResult.inst (if_neg enabled)

/-- Two columns between zero and one, of which a row wants more than there is.  Two other rows are
implied, one of them because of the tolerance, and the last one is redundant. -/
def jammed : Instance Rat :=
  { settings := {}
    problem :=
      { name := "jammed", sense := .minimize, offset := 0
        columns :=
          [{ name := "x", cost := 1, lower := 0, upper := 1, flags := {} },
            { name := "y", cost := 1, lower := 0, upper := 1, flags := {} }]
        rows :=
          [{ name := "r", coeffs := [(0, 1), (1, 1)], lhs := 0, rhs := 2, flags := {} },
            { name := "s", coeffs := [(0, 1), (1, 1)], lhs := 3, rhs := 0
              flags := { rhsInf := true } },
            { name := "t", coeffs := [(0, 2), (1, -1)], lhs := -1, rhs := 19999999 / 10000000
              flags := {} },
            { name := "u", coeffs := [(0, 1)], lhs := 0, rhs := 0
              flags := { equation := true, redundant := true } }] }
    solution := { status := .infeasible, primal := [], ray := [] } }

/-- Two batches of one row each are dropped, and the row that makes the program infeasible stays. -/
theorem constraint_keeps_points_jammed :
    let o : Oracle Rat Unit := .ofFunction fun _ => ⟨⟨1⟩, .unknown, 1⟩
    let params := Parameters.standard
    let tol : Rat := params.tolerance.feasibility
    let r := constraint.call none o params 2 jammed .start (.start () .empty)
    r.inst.problem.rows.map Row.isRedundant = [true, false, true, true] ∧
      r.session.probes = 2 ∧ params.emphasis = .safe ∧ jammed.solution.status = .infeasible ∧
      (∀ x, r.inst.problem.SatisfiedWithin tol x ↔ jammed.problem.SatisfiedWithin tol x) ∧
      o.Shows params.passCodes ∧ r.inst = jammed.mapProblem (Problem.dropImplied tol) := by
  intro o params tol r
  have shown : Verdict.classify params.passCodes ⟨1⟩ ≠ .okay := by decide
  have shows : o.Shows params.passCodes := fun _ _ => shown
  have enabled : params.isEnabled constraint.name = true := by decide +kernel
  obtain ⟨points, dropped⟩ :=
    constraint_keeps_points none o params 2 jammed .start (.start () .empty) rfl rfl
  have called := dropped shows
  rw [if_pos enabled] at called
  exact ⟨by decide +kernel, by decide +kernel, rfl, rfl, points, shows, called⟩

end ModuleKind
end MipShrink
