/-
# What a call is made of

A successful call of a module leads from its instance to another one by changes of admissible
elements, one after the other, and by one of them at least (`ModuleKind.Leads`).  This is all that
is needed to follow a quantity through a run: it is enough to know what a single change does to it.
Every instance that a call asks about is reached in the same way (`ModuleKind.leads_of_asked`).
-/

import MipShrink.Proofs.Reduction.Buffered

namespace MipShrink

variable {α ω υ : Type}

namespace DirectReduction

/-- An admissible element is changed. -/
def Step (q : DirectReduction α υ) (start : Problem α) (x y : Instance α) : Prop :=
  ∃ u, q.admissible start x u = true ∧ y = q.apply u x

/-- A batch without changes leaves the instance alone; any other one leads on by as many steps. -/
theorem fill_steps (q : DirectReduction α υ) (start : Problem α) (size : Nat) (us : List υ)
    (n : Nat) (x : Instance α) :
    (q.fill start size us n x).count = n ∧ (q.fill start size us n x).inst = x ∨
      n < (q.fill start size us n x).count ∧
        Relation.TransGen (q.Step start) x (q.fill start size us n x).inst := by
  induction us generalizing n x with
  | nil => exact .inl ⟨rfl, rfl⟩
  | cons u us ih =>
    rw [fill]
    by_cases admissible : q.admissible start x u = true
    · have step : q.Step start x (q.apply u x) := ⟨u, admissible, rfl⟩
      rw [if_pos admissible]
      split
      · exact .inr ⟨Nat.lt_succ_self n, .single step⟩
      · rcases ih (n + 1) (q.apply u x) with ⟨count, inst⟩ | ⟨count, steps⟩
        · rw [count, inst]
          exact .inr ⟨Nat.lt_succ_self n, .single step⟩
        · exact .inr ⟨Nat.lt_of_succ_lt count, (Relation.TransGen.single step).trans steps⟩
    · rw [if_neg admissible]
      exact ih n x

variable [Scalar α]

/-- **What each batch keeps, a search keeps.**  A batch leads by steps away from the instance that
was accepted last.  The induction is on the number of units that are left, which a batch makes
smaller. -/
theorem search_keeps (q : DirectReduction α υ) (o : Oracle α ω) (params : Parameters)
    (input : Instance α) (size : Nat) {P : Option (Instance α) → Session α ω → Prop}
    (batch : ∀ accepted session x, P accepted session →
      Relation.TransGen (q.Step input.problem) (accepted.getD input) x →
        P (if (session.ask o params x).1 = .okay then accepted else some x)
          (session.ask o params x).2)
    {us : List υ} {accepted : Option (Instance α)} {session : Session α ω}
    (h : P accepted session) : P (q.search o params input size us accepted session).1
      (q.search o params input size us accepted session).2 := by
  induction left : us.length using Nat.strongRecOn generalizing us accepted session with
  | _ left ih =>
    rw [search]
    dsimp only
    by_cases empty : (q.fill input.problem size us 0 (accepted.getD input)).count = 0
    · rw [if_pos empty]
      exact h
    · rw [if_neg empty]
      have shorter := q.length_rest_fill_lt input.problem size us 0 (accepted.getD input) empty
      refine ih _ (left ▸ shorter) (batch accepted session _ h ?_) rfl
      rcases q.fill_steps input.problem size us 0 (accepted.getD input) with
        ⟨count, -⟩ | ⟨-, steps⟩
      · exact absurd count empty
      · exact steps

/-- What is accepted and what has been asked since the history was `before` is reached by steps. -/
structure Searched (q : DirectReduction α υ) (input : Instance α) (before : List (Probe α))
    (accepted : Option (Instance α)) (session : Session α ω) : Prop where
  accepted : ∀ x, accepted = some x → Relation.TransGen (q.Step input.problem) input x
  asked : ∃ new, session.history = new ++ before ∧
    ∀ p ∈ new, Relation.TransGen (q.Step input.problem) input p.asked

/-- What a search accepts is the result of steps from the instance it began with. -/
theorem search_searched (q : DirectReduction α υ) (o : Oracle α ω) (params : Parameters)
    (input : Instance α) (size : Nat) (us : List υ) (session : Session α ω) :
    q.Searched input session.history (q.search o params input size us none session).1
      (q.search o params input size us none session).2 := by
  refine q.search_keeps o params input size (P := q.Searched input session.history)
    (fun accepted session' x searched steps => ?_)
    ⟨nofun, [], rfl, fun _ mem => absurd mem List.not_mem_nil⟩
  have reached : Relation.TransGen (q.Step input.problem) input x := by
    cases accepted with
    | none => exact steps
    | some y => exact (searched.accepted y rfl).trans steps
  obtain ⟨new, history, asked⟩ := searched.asked
  refine ⟨fun y next => ?_, ⟨x, (o.ask x session'.state).1⟩ :: new, congrArg (_ :: ·) history,
    List.forall_mem_cons.2 ⟨reached, asked⟩⟩
  split at next
  · exact searched.accepted y next
  · obtain rfl := Option.some.inj next
    exact reached

/-- **A successful call makes steps.** -/
theorem execute_steps (q : DirectReduction α υ) {o : Oracle α ω} {params : Parameters}
    {batches : Nat} {i : Instance α} {session : Session α ω}
    (successful : (q.execute o params batches i session).status = .successful) :
    Relation.TransGen (q.Step i.problem) i (q.execute o params batches i session).inst := by
  unfold execute at successful ⊢
  dsimp only at successful ⊢
  split at successful
  · cases successful
  · rename_i eligible
    rw [if_neg eligible]
    split at successful
    · rename_i x session' found
      exact (q.search_searched o params i _ _ session).accepted x (congrArg Prod.fst found)
    · cases successful

/-- **What a call asks about is reached by steps.** -/
theorem execute_asks (q : DirectReduction α υ) (o : Oracle α ω) (params : Parameters)
    (batches : Nat) (i : Instance α) (session : Session α ω) :
    ∃ new, (q.execute o params batches i session).session.history = new ++ session.history ∧
      ∀ p ∈ new, Relation.TransGen (q.Step i.problem) i p.asked := by
  unfold execute
  dsimp only
  split
  · exact ⟨[], rfl, fun _ mem => absurd mem List.not_mem_nil⟩
  · let us := (q.candidates i.problem i.settings).filter (q.admissible i.problem i)
    have asked :=
      (q.search_searched o params i (batchSize us.length batches) us session).asked
    split
    · rename_i found
      rwa [found] at asked
    · rename_i found
      rwa [found] at asked

end DirectReduction

namespace Reduction.Buffers

variable [Scalar α] {r : Reduction α υ} {q : DirectReduction α υ}
  {touches : υ → Nat × Nat → Prop}

/-- A change of an element keeps the program canonical and the reference. -/
theorem direct_apply (h : r.Buffers q touches) {x : Instance α} (u : υ)
    (canonical : x.problem.Canonical) :
    (q.apply u x).problem.Canonical ∧ (q.apply u x).solution = x.solution := by
  have idle : (Draft.ofInstance x).pending = [] := rfl
  have sound : (Draft.ofInstance x).Sound touches :=
    Draft.sound_of_pending_eq_nil canonical idle
  have same := h.apply x.solution sound (Draft.fresh_of_pending_eq_nil idle u)
  rw [Draft.settled_of_pending_eq_nil _ idle] at same
  change (r.apply u (Draft.ofInstance x)).settled x.solution = q.apply u x at same
  rw [← same]
  exact ⟨(h.sound u sound).flush.problem, rfl⟩

end Reduction.Buffers

namespace ModuleKind

variable [Scalar α]

/-- The module leads from an instance to another one by changing elements. -/
def Leads (k : ModuleKind) (target : Option Settings) (s : Scope α) (i i' : Instance α) : Prop :=
  Relation.TransGen ((k.direct target s).Step i.problem) i i'

variable {k : ModuleKind} {target : Option Settings} {s : Scope α}

/-- What holds after the first change of an element and is kept by every other one holds in the
end.  The program stays canonical meanwhile, and the reference stays as it is. -/
theorem Leads.result {i i' : Instance α} (leads : k.Leads target s i i')
    (canonical : i.problem.Canonical) {P : Instance α → Prop}
    (first : ∀ x, (k.direct target s).Step i.problem i x → P x)
    (next : ∀ x y, x.problem.Canonical → P x → (k.direct target s).Step i.problem x y → P y) :
    i'.problem.Canonical ∧ i'.solution = i.solution ∧ P i' := by
  obtain ⟨touches, buffers⟩ := k.exists_buffers target s
  have kept {x y : Instance α} (canonical : x.problem.Canonical)
      (step : (k.direct target s).Step i.problem x y) :
      y.problem.Canonical ∧ y.solution = x.solution := by
    obtain ⟨u, -, rfl⟩ := step
    exact buffers.direct_apply u canonical
  induction leads with
  | single step =>
    obtain ⟨canonical', solution⟩ := kept canonical step
    exact ⟨canonical', solution, first _ step⟩
  | tail _ step ih =>
    obtain ⟨before, solution, h⟩ := ih
    obtain ⟨canonical', solution'⟩ := kept before step
    exact ⟨canonical', solution'.trans solution, next _ _ before h step⟩

/-- **A successful call leads to the instance that it leaves behind.** -/
theorem leads_of_successful {o : Oracle α ω} {params : Parameters} {batches : Nat}
    {i : Instance α} {memory : ModuleState} {session : Session α ω}
    (canonical : i.problem.Canonical)
    (successful : (k.call target o params batches i memory session).status = .successful) :
    k.Leads target (Scope.ofRun params i) i
      (k.call target o params batches i memory session).inst := by
  unfold ModuleKind.call Reduction.call at successful ⊢
  split at successful
  · rename_i enabled
    rw [if_pos enabled]
    obtain ⟨touches, buffers⟩ := k.exists_buffers target (Scope.ofRun params i)
    have direct := buffers.execute_eq o params batches canonical
      { memory with stats := { memory.stats with calls := memory.stats.calls + 1 } } session
    have status := congrArg Outcome.status direct
    have inst := congrArg Outcome.inst direct
    have steps := (k.direct target (Scope.ofRun params i)).execute_steps
      (status.symm.trans successful)
    rw [← inst] at steps
    exact steps
  · cases successful

/-- **A call leads to every instance that it asks about.** -/
theorem leads_of_asked (k : ModuleKind) (target : Option Settings) (o : Oracle α ω)
    (params : Parameters) (batches : Nat) {i : Instance α} (memory : ModuleState)
    (session : Session α ω) (canonical : i.problem.Canonical) :
    ∃ new, (k.call target o params batches i memory session).session.history =
        new ++ session.history ∧
      ∀ p ∈ new, k.Leads target (Scope.ofRun params i) i p.asked := by
  unfold ModuleKind.call Reduction.call
  split
  · obtain ⟨touches, buffers⟩ := k.exists_buffers target (Scope.ofRun params i)
    have direct := buffers.execute_eq o params batches canonical
      { memory with stats := { memory.stats with calls := memory.stats.calls + 1 } } session
    have asks := (k.direct target (Scope.ofRun params i)).execute_asks o params batches i session
    rw [← direct] at asks
    exact asks
  · exact ⟨[], rfl, fun _ mem => absurd mem List.not_mem_nil⟩

end ModuleKind
end MipShrink
