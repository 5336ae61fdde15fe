/-
# A run does not come back

Among the modules that do not make a program lighter, `setting` brings the settings closer to a
target of numbers, `side` takes away free sides, and `consround` rows that are not exact.  So a run
with exact numbers comes back to an instance only if `side` and `consround` undo each other, which
takes a reference point and a row that mixes, or if the target has a double that is no number
(`Run.comes_back_only`).

Both happen.  With the point `3/2` the row `1 ≤ x ≤ 2` is turned into `x = 3/2` and back for as long
as the oracle agrees, and a double that is no number is copied in every round (`Run.comes_back`).
-/

import MipShrink.Proofs.Reduction.Changes
import MipShrink.Proofs.Reduction.Roughness
import MipShrink.Proofs.Run.Journey
import MipShrink.Proofs.Settings.Approach

namespace MipShrink

open Rational

namespace ModuleKind

variable {target : Option Settings} {s : Scope Rat} {start : Problem Rat} {x y : Instance Rat}

/-- The distance of the settings from the target, if there is one. -/
def distance (target : Option Settings) (x : Instance Rat) : Nat :=
  target.elim 0 fun t => t.distance x.settings

/-- The target has only doubles that are numbers. -/
def HasNumbers (target : Option Settings) : Prop :=
  ∀ t, target = some t → ∀ k i name x, t.get? k i = some (name, .double x) → (x == x) = true

/-- No module takes the settings further from the target. -/
theorem distance_le_of_step (k : ModuleKind) (step : (k.direct target s).Step start x y) :
    distance target y ≤ distance target x := by
  by_cases setting : k = .setting
  · subst setting
    obtain ⟨e, admissible, rfl⟩ := step
    cases target with
    | none => cases admissible
    | some t => exact Settings.distance_copyFrom_le admissible
  · unfold distance
    exact Nat.le_of_eq (by rw [settings_of_step setting step])

/-- The module `setting` brings the settings closer to a target of numbers. -/
theorem distance_lt_of_step (numbers : HasNumbers target)
    (step : (setting.direct target s).Step start x y) : distance target y < distance target x := by
  obtain ⟨e, admissible, rfl⟩ := step
  cases target with
  | none => cases admissible
  | some t => exact Settings.distance_copyFrom_lt (numbers t rfl) admissible

/-- The module `side` takes a free side away. -/
theorem slack_of_side (nonneg : s.tolerance.Nonneg) (step : (side.direct target s).Step start x y) :
    y.problem.slack s.tolerance.admissibility < x.problem.slack s.tolerance.admissibility := by
  obtain ⟨i, admissible, rfl⟩ := step
  obtain ⟨r, row, free⟩ := (Option.any_eq_true _ _).1 admissible
  obtain ⟨free, -⟩ := Bool.and_eq_true_iff.1 free
  obtain ⟨used, free⟩ := Bool.and_eq_true_iff.1 free
  rw [Bool.not_eq_true'] at used
  exact sum_map_modify_lt row (Row.slack_equate_lt nonneg.admissibility used free)

/-- The module `side` makes no row rougher as long as the point fits. -/
theorem roughness_of_side (nonneg : s.tolerance.Nonneg) (fits : x.problem.Fits s.solution)
    (step : (side.direct target s).Step start x y) :
    y.problem.Fits s.solution ∧ y.problem.roughness ≤ x.problem.roughness := by
  obtain ⟨i, -, rfl⟩ := step
  constructor
  · exact fits.mapRow i (fun _ => rfl) fun _ _ h => h
  · exact sum_map_modify_le fun r row => Row.roughness_equate_le nonneg fun used x point =>
      fits x point r (List.mem_of_getElem? row) used

/-- The module `consround` takes away a row that is not exact, and a point that fits still does. -/
theorem roughness_of_consround (nonneg : s.tolerance.Nonneg)
    (step : (consround.direct target s).Step start x y) :
    (x.problem.Fits s.solution → y.problem.Fits s.solution) ∧
      y.problem.roughness < x.problem.roughness := by
  obtain ⟨i, admissible, rfl⟩ := step
  obtain ⟨r, row, fractional⟩ := (Option.any_eq_true _ _).1 admissible
  obtain ⟨used, fractional⟩ := Bool.and_eq_true_iff.1 fractional
  rw [Bool.not_eq_true'] at used
  constructor
  · exact fun fits => fits.mapRow i (Row.isRedundant_makeIntegral _ _) fun _ _ h =>
      Row.fits_makeIntegral _ h
  · exact sum_map_modify_lt row
      (Row.roughness_makeIntegral_lt nonneg.admissibility used fractional _)

end ModuleKind

/-! ### Journeys that come back -/

namespace Journey

variable {target : Option Settings} {s : Scope Rat} {i : Instance Rat}
  {l : List (ModuleKind × Instance Rat)}

/-- No module on the way makes the program lighter. -/
theorem not_lightens (nonneg : s.tolerance.Nonneg) (journey : Journey target s i l)
    (canonical : i.problem.Canonical) (back : arrival i l = i) :
    ∀ e ∈ l, e.1 = .side ∨ e.1 = .consround ∨ e.1 = .setting := by
  intro e mem
  have heavy : ¬e.1.lightens = true :=
    journey.not_strict_of_arrival_eq (fun _ => True)
      (fun x => x.problem.weight s.tolerance.admissibility) (fun k => k.lightens = true)
      (fun e _ start x y canonical _ step => ⟨trivial, e.1.weight_le_of_step nonneg canonical step,
        fun lighter => ModuleKind.weight_lt_of_step lighter nonneg canonical step⟩)
      canonical trivial back e mem
  cases kind : e.1 <;> simp_all [ModuleKind.lightens]

/-- With a target of numbers no setting is changed on the way. -/
theorem not_setting (numbers : ModuleKind.HasNumbers target) (journey : Journey target s i l)
    (canonical : i.problem.Canonical) (back : arrival i l = i) : ∀ e ∈ l, e.1 ≠ .setting :=
  journey.not_strict_of_arrival_eq (fun _ => True) (ModuleKind.distance target)
    (fun k => k = .setting)
    (fun e _ start x y _ _ step => ⟨trivial, e.1.distance_le_of_step step, fun setting => by
      rw [setting] at step
      exact ModuleKind.distance_lt_of_step numbers step⟩)
    canonical trivial back

/-- Rows that `consround` makes exact stay exact, if rows fit whenever `side` is on the way. -/
theorem not_consround (nonneg : s.tolerance.Nonneg) (journey : Journey target s i l)
    (canonical : i.problem.Canonical) (back : arrival i l = i)
    (fits : (∃ e ∈ l, e.1 = .side) → i.problem.Fits s.solution) : ∀ e ∈ l, e.1 ≠ .consround := by
  have kinds := journey.not_lightens nonneg canonical back
  refine journey.not_strict_of_arrival_eq
    (fun x => (∃ e ∈ l, e.1 = .side) → x.problem.Fits s.solution) (fun x => x.problem.roughness)
    (fun k => k = .consround) (fun e mem start x y _ h step => ?_) canonical fits back
  rcases kinds e mem with side | consround | setting
  · have fits := h ⟨e, mem, side⟩
    rw [side] at step ⊢
    obtain ⟨fits', le⟩ := ModuleKind.roughness_of_side nonneg fits step
    exact ⟨fun _ => fits', le, fun other => by cases other⟩
  · rw [consround] at step
    obtain ⟨keeps, lt⟩ := ModuleKind.roughness_of_consround nonneg step
    exact ⟨fun some => keeps (h some), Nat.le_of_lt lt, fun _ => lt⟩
  · rw [setting] at step ⊢
    have same := ModuleKind.problem_of_setting step
    rw [same]
    exact ⟨h, Nat.le_refl _, fun other => by cases other⟩

/-- Without `consround` on the way, sides that `side` has taken away stay away. -/
theorem not_side (nonneg : s.tolerance.Nonneg) (journey : Journey target s i l)
    (canonical : i.problem.Canonical) (back : arrival i l = i)
    (absent : ∀ e ∈ l, e.1 ≠ .consround) : ∀ e ∈ l, e.1 ≠ .side := by
  have kinds := journey.not_lightens nonneg canonical back
  refine journey.not_strict_of_arrival_eq (fun _ => True)
    (fun x => x.problem.slack s.tolerance.admissibility)
    (fun k => k = .side) (fun e mem start x y _ _ step => ⟨trivial, ?_⟩) canonical trivial back
  rcases kinds e mem with side | consround | setting
  · rw [side] at step
    have lt := ModuleKind.slack_of_side nonneg step
    exact ⟨Nat.le_of_lt lt, fun _ => lt⟩
  · exact absurd consround (absent e mem)
  · rw [setting] at step ⊢
    have same := ModuleKind.problem_of_setting step
    rw [same]
    exact ⟨Nat.le_refl _, fun other => by cases other⟩

/-- If rows are changed on a way that comes back, `side` and `consround` are both on it, and some
row mixes. -/
theorem mixes_of_arrival_eq (nonneg : s.tolerance.Nonneg) (journey : Journey target s i l)
    (canonical : i.problem.Canonical) (back : arrival i l = i) (rows : ∃ e ∈ l, e.1 ≠ .setting) :
    (∃ e ∈ l, e.1 = .side) ∧ (∃ e ∈ l, e.1 = .consround) ∧
      ∃ x, s.solution.point? i.problem.ncols = some x ∧ i.problem.MixesAt x := by
  have kinds := journey.not_lightens nonneg canonical back
  have consround : ∃ e ∈ l, e.1 = .consround := by
    refine Classical.byContradiction fun none => ?_
    have absent : ∀ e ∈ l, e.1 ≠ .consround := fun e mem eq => none ⟨e, mem, eq⟩
    obtain ⟨e, mem, ne⟩ := rows
    rcases kinds e mem with side | consround | setting
    · exact journey.not_side nonneg canonical back absent e mem side
    · exact absent e mem consround
    · exact ne setting
  have rough : ¬((∃ e ∈ l, e.1 = .side) → i.problem.Fits s.solution) := by
    intro fits
    obtain ⟨e, mem, eq⟩ := consround
    exact journey.not_consround nonneg canonical back fits e mem eq
  obtain ⟨side, unfit⟩ := Classical.not_imp.1 rough
  exact ⟨side, consround, Problem.mixesAt_of_not_fits unfit⟩

end Journey

/-- Instances are the same if their three parts are. -/
theorem Instance.eq_of_parts {α : Type} {x y : Instance α} (settings : x.settings = y.settings)
    (problem : x.problem = y.problem) (solution : x.solution = y.solution) : x = y := by
  cases x
  cases y
  simp_all

namespace Run

/-- **A run with exact numbers comes back to an instance only in two ways.**  If the program and
the settings after some successes are those after fewer ones, then all modules between the two are
`side`, `consround` or `setting`.  Moreover, if not all of them are `setting`, then both `side` and
`consround` are among them, and at the reference point the program has a row that mixes; and if
`setting` is among them, then the target has a double that is not equal to itself. -/
theorem comes_back_only {ω : Type} (o : Oracle Rat ω) (params : Parameters)
    (target : Option Settings) (s : RunState) {i : Instance Rat} (session : Session Rat ω)
    (canonical : i.problem.Canonical) {before between after : List (ModuleKind × Instance Rat)}
    (split : successes o params target s i session = before ++ between ++ after)
    (problem : (arrival i (before ++ between)).problem = (arrival i before).problem)
    (settings : (arrival i (before ++ between)).settings = (arrival i before).settings) :
    (∀ e ∈ between, e.1 = .side ∨ e.1 = .consround ∨ e.1 = .setting) ∧
    ((∃ e ∈ between, e.1 ≠ .setting) →
      (∃ e ∈ between, e.1 = .side) ∧ (∃ e ∈ between, e.1 = .consround) ∧
        ∃ x, i.solution.point? (arrival i before).problem.ncols = some x ∧
          (arrival i before).problem.MixesAt x) ∧
    ((∃ e ∈ between, e.1 = .setting) → ∃ t, target = some t ∧
      ∃ k n name x, t.get? k n = some (name, .double x) ∧ (x == x) = false) := by
  obtain ⟨journey, -⟩ := journey_successes o params target s session canonical
  rw [split] at journey
  obtain ⟨first, -⟩ := Journey.append_iff.1 journey
  obtain ⟨outward, way⟩ := Journey.append_iff.1 first
  obtain ⟨canonical', solution⟩ := outward.kept canonical
  obtain ⟨-, solution'⟩ := way.kept canonical'
  have nonneg : (Scope.ofRun params i).tolerance.Nonneg := Tolerance.nonneg_tolerance params
  have back : arrival (arrival i before) between = arrival i before := by
    rw [arrival_append] at problem settings
    exact Instance.eq_of_parts settings problem solution'
  refine ⟨way.not_lightens nonneg canonical' back, fun rows => ?_, fun setting => ?_⟩
  · exact way.mixes_of_arrival_eq nonneg canonical' back rows
  · obtain ⟨e, mem, eq⟩ := setting
    refine Classical.byContradiction fun none => ?_
    have numbers : ModuleKind.HasNumbers target := by
      intro t found k n name x place
      cases equal : x == x with
      | true => rfl
      | false => exact absurd ⟨t, found, k, n, name, x, place, equal⟩ none
    exact way.not_setting numbers canonical' back e mem eq

end Run

/-! ### A run that comes back -/

namespace Run

/-- The column `0 ≤ x ≤ 10` and the row `1 ≤ x ≤ 2`, with the point `x = 3/2`. -/
def restless : Instance Rat :=
  { settings := {}
    problem :=
      { name := "restless", sense := .minimize, offset := 0
        columns := [{ name := "x", cost := 0, lower := 0, upper := 10, flags := {} }]
        rows := [{ name := "r", coeffs := [(0, 1)], lhs := 1, rhs := 2, flags := {} }] }
    solution := { status := .feasible, primal := [3 / 2], ray := [] } }

/-- The row as an equation at the point. -/
def restlessEquation : Instance Rat :=
  restless.mapProblem fun p => p.mapRow 0 fun r => (r.setLhs (3 / 2)).setRhs (3 / 2)

/-- The defect shows as long as the row counts and has its coefficient, and the bound is `10`. -/
def showsRestless (i : Instance Rat) : Answer :=
  let kept := i.problem.rowHas 0 (fun r => !r.isRedundant && (r.coeff? 0).isSome) &&
    i.problem.columnHas 0 fun c => decide (c.upper = 10)
  { retcode := ⟨if kept then 1 else 0⟩, status := .unknown, effort := 1 }

/-- The default parameters for two rounds. -/
def twoRounds : Parameters := { Parameters.standard with maxRounds := 2 }

/-- The example is canonical. -/
theorem canonical_restless : restless.problem.Canonical := by decide +kernel

/-- The row is turned into an equation in the first round, and back in the second one. -/
theorem successes_restless :
    successes (Oracle.ofFunction showsRestless) twoRounds none (RunState.start twoRounds) restless
        (Session.start () FileStore.empty) =
      [] ++ [(.side, restlessEquation), (.consround, restless)] ++ [] := by
  decide +kernel

/-- The row that makes the run come back mixes: its column is not integral, and has the value
`3/2` at the point. -/
theorem mixesAt_restless : ∃ x, restless.solution.point? restless.problem.ncols = some x ∧
    restless.problem.MixesAt x := by
  have between := comes_back_only (Oracle.ofFunction showsRestless) twoRounds none
    (RunState.start twoRounds) (Session.start () FileStore.empty) canonical_restless
    successes_restless rfl rfl
  have rows : ∃ e ∈ [(ModuleKind.side, restlessEquation), (ModuleKind.consround, restless)],
      e.1 ≠ .setting := ⟨_, List.mem_cons_self .., by decide⟩
  exact (between.2.1 rows).2.2

/-- The program of `restless` with a setting and no point. -/
def aimless : Instance Rat :=
  { settings := { doubles := [("gap", 1)] }, problem := restless.problem, solution := .unknown }

/-- A target that is no number. -/
def noNumber : Settings := { doubles := [("gap", 0 / 0)] }

/-- The defect shows as long as the row has its sides, too. -/
def showsAimless (i : Instance Rat) : Answer :=
  if i.problem.rowHas 0 fun r => decide (r.lhs = 1) && decide (r.rhs = 2) then showsRestless i
  else { retcode := ⟨0⟩, status := .unknown, effort := 1 }

/-- The setting is copied in both rounds, because what has been copied is not equal to the
target. -/
theorem successes_aimless :
    successes (Oracle.ofFunction showsAimless) twoRounds (some noNumber) (RunState.start twoRounds)
        aimless (Session.start () FileStore.empty) =
      [(.setting, { aimless with settings := noNumber }),
        (.setting, { aimless with settings := noNumber })] := by
  decide +kernel

/-- No two of the instances on the way have the same program and settings. -/
def Apart (i : Instance Rat) (l : List (ModuleKind × Instance Rat)) : Prop :=
  (i :: l.map Prod.snd).Pairwise fun x y => ¬(x.problem = y.problem ∧ x.settings = y.settings)

/-- **A run may come back**, also if the oracle answers by the instance alone: without a target,
and without a reference point. -/
theorem comes_back :
    (¬∀ (params : Parameters) (i : Instance Rat) (answer : Instance Rat → Answer)
        (session : Session Rat Unit), i.problem.Canonical →
      Apart i (successes (Oracle.ofFunction answer) params none (RunState.start params) i
        session)) ∧
    ¬∀ (params : Parameters) (target : Option Settings) (i : Instance Rat)
        (answer : Instance Rat → Answer) (session : Session Rat Unit), i.problem.Canonical →
      i.solution = .unknown →
      Apart i (successes (Oracle.ofFunction answer) params target (RunState.start params) i
        session) := by
  constructor
  · intro never
    have apart := never twoRounds restless showsRestless (Session.start () FileStore.empty)
      canonical_restless
    rw [successes_restless] at apart
    have last : restless ∈ List.map Prod.snd
        [(ModuleKind.side, restlessEquation), (ModuleKind.consround, restless)] := by
      simp
    exact (List.pairwise_cons.1 apart).1 restless last ⟨rfl, rfl⟩
  · intro never
    have apart := never twoRounds (some noNumber) aimless showsAimless
      (Session.start () FileStore.empty) canonical_restless rfl
    rw [successes_aimless] at apart
    obtain ⟨-, apart⟩ := List.pairwise_cons.1 apart
    exact (List.pairwise_cons.1 apart).1 _ (List.mem_singleton_self _) ⟨rfl, rfl⟩

end Run
end MipShrink
