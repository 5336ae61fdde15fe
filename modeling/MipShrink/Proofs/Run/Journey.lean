/-
# Where a run has been

The successes of a run are its modules that were successful with the instances that they left, in
order (`Run.successes`).  They form a journey: each module leads from the instance before it to its
own, and the last one is the final instance (`Run.journey_successes`).

A measure that no change of an element increases never grows on a journey, and shrinks if some
module on the way makes it smaller (`Journey.measure`).  So on a journey that comes back to where
it began there is no such module (`Journey.not_strict_of_arrival_eq`).
-/

import MipShrink.Proofs.Reduction.Steps
import MipShrink.Proofs.Run.Commitment
import MipShrink.Proofs.Run.Logging

namespace MipShrink

variable {α ω : Type}

/-- Where one is after instances that have been passed one after the other. -/
def arrival (i : Instance α) : List (ModuleKind × Instance α) → Instance α
  | [] => i
  | e :: l => arrival e.2 l

/-- Two parts of a journey lead to where the second one does. -/
theorem arrival_append (i : Instance α) (l l' : List (ModuleKind × Instance α)) :
    arrival i (l ++ l') = arrival (arrival i l) l' := by
  induction l generalizing i with
  | nil => rfl
  | cons e l ih => exact ih e.2

variable [Scalar α]

/-- Each module leads from the instance before it to its own. -/
def Journey (target : Option Settings) (s : Scope α) :
    Instance α → List (ModuleKind × Instance α) → Prop
  | _, [] => True
  | i, e :: l => e.1.Leads target s i e.2 ∧ Journey target s e.2 l

namespace Journey

variable {target : Option Settings} {s : Scope α} {i : Instance α}
  {l l' : List (ModuleKind × Instance α)}

/-- Two parts make up a journey if the second one begins where the first one ends. -/
theorem append_iff : Journey target s i (l ++ l') ↔
    Journey target s i l ∧ Journey target s (arrival i l) l' := by
  induction l generalizing i with
  | nil => exact ⟨fun h => ⟨trivial, h⟩, fun h => h.2⟩
  | cons e l ih =>
    constructor
    · rintro ⟨leads, rest⟩
      obtain ⟨first, second⟩ := ih.1 rest
      exact ⟨⟨leads, first⟩, second⟩
    · rintro ⟨⟨leads, first⟩, second⟩
      exact ⟨leads, ih.2 ⟨first, second⟩⟩

/-- On a journey the program stays canonical, and the reference stays as it is. -/
theorem kept (journey : Journey target s i l) (canonical : i.problem.Canonical) :
    (arrival i l).problem.Canonical ∧ (arrival i l).solution = i.solution := by
  induction l generalizing i with
  | nil => exact ⟨canonical, rfl⟩
  | cons e l ih =>
    obtain ⟨leads, rest⟩ := journey
    obtain ⟨canonical', solution, -⟩ :=
      leads.result canonical (P := fun _ => True) (fun _ _ => trivial) (fun _ _ _ _ _ => trivial)
    obtain ⟨canonical'', solution'⟩ := ih rest canonical'
    exact ⟨canonical'', solution'.trans solution⟩

/-- **A measure that no change increases never grows on a journey**, and shrinks if some module on
the way is strict. -/
theorem measure (P : Instance α → Prop) (μ : Instance α → Nat) (strict : ModuleKind → Prop)
    (step : ∀ e ∈ l, ∀ start x y, x.problem.Canonical → P x →
      (e.1.direct target s).Step start x y → P y ∧ μ y ≤ μ x ∧ (strict e.1 → μ y < μ x))
    (journey : Journey target s i l) (canonical : i.problem.Canonical) (h : P i) :
    P (arrival i l) ∧ μ (arrival i l) ≤ μ i ∧
      ((∃ e ∈ l, strict e.1) → μ (arrival i l) < μ i) := by
  induction l generalizing i with
  | nil =>
    refine ⟨h, Nat.le_refl _, ?_⟩
    rintro ⟨e, mem, -⟩
    exact absurd mem List.not_mem_nil
  | cons e l ih =>
    obtain ⟨leads, rest⟩ := journey
    have change := step e (List.mem_cons_self ..) i.problem
    obtain ⟨canonical', -, h', le, lt⟩ := leads.result canonical
      (P := fun x => P x ∧ μ x ≤ μ i ∧ (strict e.1 → μ x < μ i))
      (fun x first => change i x canonical h first)
      (fun x y before ⟨hx, le, lt⟩ next => by
        obtain ⟨hy, le', lt'⟩ := change x y before hx next
        exact ⟨hy, Nat.le_trans le' le, fun strict => Nat.lt_of_le_of_lt le' (lt strict)⟩)
    obtain ⟨h'', le', lt'⟩ :=
      ih (fun e' mem => step e' (List.mem_cons_of_mem _ mem)) rest canonical' h'
    refine ⟨h'', Nat.le_trans le' le, ?_⟩
    rintro ⟨e', mem, strict'⟩
    rcases List.mem_cons.1 mem with rfl | mem
    · exact Nat.lt_of_le_of_lt le' (lt strict')
    · exact Nat.lt_of_lt_of_le (lt' ⟨e', mem, strict'⟩) le

/-- A journey that comes back has no strict module. -/
theorem not_strict_of_arrival_eq (P : Instance α → Prop) (μ : Instance α → Nat)
    (strict : ModuleKind → Prop)
    (step : ∀ e ∈ l, ∀ start x y, x.problem.Canonical → P x →
      (e.1.direct target s).Step start x y → P y ∧ μ y ≤ μ x ∧ (strict e.1 → μ y < μ x))
    (journey : Journey target s i l) (canonical : i.problem.Canonical) (h : P i)
    (back : arrival i l = i) : ∀ e ∈ l, ¬strict e.1 := by
  intro e mem strict'
  obtain ⟨-, -, lt⟩ := measure P μ strict step journey canonical h
  have less := lt ⟨e, mem, strict'⟩
  rw [back] at less
  exact Nat.lt_irrefl _ less

end Journey

/-- **What every change that a module makes keeps, a call of it keeps.**  The program stays
canonical meanwhile. -/
theorem ModuleKind.call_keeps {k : ModuleKind} {target : Option Settings} {params : Parameters}
    {i : Instance α} (canonical : i.problem.Canonical) {P : Instance α → Prop} (h : P i)
    (change : ∀ x y, x.problem.Canonical → P x →
      (k.direct target (Scope.ofRun params i)).Step i.problem x y → P y)
    (o : Oracle α ω) (batches : Nat) (memory : ModuleState) (session : Session α ω) :
    (k.call target o params batches i memory session).inst.problem.Canonical ∧
      P (k.call target o params batches i memory session).inst := by
  by_cases successful : (k.call target o params batches i memory session).status = .successful
  · obtain ⟨canonical', -, h'⟩ := (leads_of_successful canonical successful).result canonical
      (P := P) (fun x first => change i x canonical h first) change
    exact ⟨canonical', h'⟩
  · have kept : (k.call target o params batches i memory session).inst = i :=
      Reduction.inst_call_of_failed _ o params batches i memory session k.name successful
    rw [kept]
    exact ⟨canonical, h⟩

/-- What every change that the called module makes keeps, the call keeps. -/
theorem World.call_keeps {target : Option Settings} {params : Parameters} {k : Nat}
    {w : World α ω} (canonical : w.inst.problem.Canonical) {P : Instance α → Prop} (h : P w.inst)
    (change : ∀ kind : ModuleKind, ModuleKind.all[k]? = some kind →
      ∀ x y, x.problem.Canonical → P x →
        (kind.direct target (Scope.ofRun params w.inst)).Step w.inst.problem x y → P y)
    (o : Oracle α ω) (batches : Nat) :
    (w.call o params target k batches).2.inst.problem.Canonical ∧
      P (w.call o params target k batches).2.inst := by
  unfold World.call
  split
  · rename_i kind memory found _
    exact ModuleKind.call_keeps canonical h (change kind found) o batches memory w.session
  · exact ⟨canonical, h⟩

/-- A successful call is one of some module, which leads to the instance that it leaves. -/
theorem World.leads_of_successful {o : Oracle α ω} {params : Parameters} {target : Option Settings}
    {k batches : Nat} {w : World α ω} (canonical : w.inst.problem.Canonical)
    (successful : (w.call o params target k batches).1.1 = .successful) :
    ∃ kind, ModuleKind.all[k]? = some kind ∧
      kind.Leads target (Scope.ofRun params w.inst) w.inst
        (w.call o params target k batches).2.inst := by
  unfold World.call at successful ⊢
  cases found : ModuleKind.all[k]? with
  | none =>
    rw [found] at successful
    cases successful
  | some kind =>
    cases remembered : w.memories[k]? with
    | none =>
      rw [found, remembered] at successful
      cases successful
    | some memory =>
      rw [found, remembered] at successful
      exact ⟨kind, rfl, ModuleKind.leads_of_successful canonical successful⟩

namespace Run

/-- What is noted of a successful call. -/
def note (k : Nat) (w : World α ω) : List (ModuleKind × Instance α) :=
  (ModuleKind.all[k]?).toList.map fun kind => (kind, w.inst)

/-- A run with a log of its successes. -/
def logged (o : Oracle α ω) (params : Parameters) (target : Option Settings) (s : RunState)
    (i : Instance α) (session : Session α ω) :
    Summary × World α ω × List (ModuleKind × Instance α) :=
  ((World.machine o params target (o.clock session.state)).logging note).run params s
    (World.start i session, [])

/-- The modules that were successful in a run, with the instances that they left, in order. -/
def successes (o : Oracle α ω) (params : Parameters) (target : Option Settings) (s : RunState)
    (i : Instance α) (session : Session α ω) : List (ModuleKind × Instance α) :=
  (logged o params target s i session).2.2

variable (o : Oracle α ω) (params : Parameters) (target : Option Settings) (s : RunState)
  {i : Instance α} (session : Session α ω)

/-- The log changes nothing. -/
theorem reduce_eq_logged : reduce o params target s i session =
    ((logged o params target s i session).1, (logged o params target s i session).2.1) :=
  Machine.run_logging ..

/-- The log is a journey that ends where the run stands. -/
def Logs (target : Option Settings) (c : Scope α) (i : Instance α)
    (v : World α ω × List (ModuleKind × Instance α)) : Prop :=
  Journey target c i v.2 ∧ arrival i v.2 = v.1.inst

/-- A call makes the journey longer if it is successful, and does not move otherwise. -/
theorem Logs.call {o : Oracle α ω} {params : Parameters} {target : Option Settings}
    (canonical : i.problem.Canonical) {v : World α ω × List (ModuleKind × Instance α)}
    (h : Logs target (Scope.ofRun params i) i v) (began k batches : Nat) :
    Logs target (Scope.ofRun params i) i
      (((World.machine o params target began).logging note).call k batches v).2 := by
  obtain ⟨w, log⟩ := v
  obtain ⟨journey, arrived⟩ := h
  obtain ⟨canonical', solution⟩ := journey.kept canonical
  change arrival i log = w.inst at arrived
  change Logs target (Scope.ofRun params i) i ((w.call o params target k batches).2,
    if (w.call o params target k batches).1.1 = .successful then
      log ++ note k (w.call o params target k batches).2
    else log)
  by_cases successful : (w.call o params target k batches).1.1 = .successful
  · obtain ⟨kind, found, leads⟩ := World.leads_of_successful (arrived ▸ canonical') successful
    have noted : note k (w.call o params target k batches).2 =
        [(kind, (w.call o params target k batches).2.inst)] := by
      unfold note
      rw [found]
      rfl
    -- The reference is the one that the run began with, so the modules see the same scope.
    have scope : Scope.ofRun params w.inst = Scope.ofRun params i := by
      unfold Scope.ofRun
      rw [← arrived, solution]
    rw [if_pos successful, noted]
    refine ⟨Journey.append_iff.2 ⟨journey, ?_, trivial⟩, ?_⟩
    · rw [arrived, ← scope]
      exact leads
    · rw [arrival_append]
      rfl
  · rw [if_neg successful]
    exact ⟨journey, arrived.trans (World.inst_call_of_failed successful).symm⟩

/-- **The successes of a run are a journey to its final instance.** -/
theorem journey_successes (canonical : i.problem.Canonical) :
    Journey target (Scope.ofRun params i) i (successes o params target s i session) ∧
      arrival i (successes o params target s i session) =
        (reduce o params target s i session).2.inst := by
  let m := (World.machine o params target (o.clock session.state)).logging note
  let P : World α ω × List (ModuleKind × Instance α) → Prop :=
    Logs target (Scope.ofRun params i) i
  have call : ∀ k b v, P v → P (m.call k b v).2 := fun k b v h =>
    h.call canonical (o.clock session.state) k b
  have save : ∀ s v, P v → P (m.save s v) := by
    rintro s ⟨w, log⟩ ⟨journey, arrived⟩
    exact ⟨journey, arrived.trans (World.save_inst params s w).1.symm⟩
  have begun : P (m.opening params (World.start i session, [])).2 := by
    unfold Machine.opening
    split
    · exact ⟨trivial, rfl⟩
    · exact ⟨trivial, rfl⟩
  have ended : P (logged o params target s i session).2 := Machine.run_keeps call save begun
  rw [reduce_eq_logged]
  exact ended

end Run
end MipShrink
