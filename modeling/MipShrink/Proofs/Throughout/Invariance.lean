/-
# What holds throughout a run

A run meets the instances that it asks the oracle about and those that its calls leave behind.  All
of them are reached from the first one by changes of single elements.  So a property that every
change keeps holds of all of them (`Run.holds_throughout`), whatever the oracle answers, from
whatever state the run starts and wherever it stops.

Besides the property a change keeps the program canonical and the reference as it is
(`Instance.Upholds`), and the property may make use of both.
-/

import MipShrink.Proofs.Run.Journey
import MipShrink.Proofs.Run.Recording

namespace MipShrink

variable {α ω : Type} [Scalar α]

/-- Every change that a module makes of an element keeps the property. -/
def Scope.Keeps (s : Scope α) (target : Option Settings) (P : Instance α → Prop) : Prop :=
  ∀ (k : ModuleKind) (start : Problem α) (x y : Instance α), x.problem.Canonical → P x →
    (k.direct target s).Step start x y → P y

/-- The instance `x` has the property, a canonical program, and the reference of `i`. -/
structure Instance.Upholds (P : Instance α → Prop) (i x : Instance α) : Prop where
  canonical : x.problem.Canonical
  solution : x.solution = i.solution
  holds : P x

section Upholds

variable {P : Instance α → Prop} {params : Parameters} {target : Option Settings}
  {i : Instance α}

/-- What a module leads to has the property. -/
theorem ModuleKind.Leads.upholds {k : ModuleKind} {x y : Instance α}
    (leads : k.Leads target (Scope.ofRun params x) x y)
    (keeps : (Scope.ofRun params i).Keeps target P) (h : i.Upholds P x) : i.Upholds P y := by
  have scope : Scope.ofRun params x = Scope.ofRun params i := by
    unfold Scope.ofRun
    rw [h.solution]
  rw [scope] at leads
  obtain ⟨canonical, solution, holds⟩ := leads.result h.canonical
    (fun y first => keeps k x.problem x y h.canonical h.holds first)
    (fun y z before hy next => keeps k x.problem y z before hy next)
  exact ⟨canonical, solution.trans h.solution, holds⟩

namespace World

/-- A call of the world leads by some module to every instance that it asks about. -/
theorem leads_of_asked (o : Oracle α ω) (params : Parameters) (target : Option Settings)
    (k batches : Nat) {w : World α ω} (canonical : w.inst.problem.Canonical) :
    ∃ new, (w.call o params target k batches).2.session.history = new ++ w.session.history ∧
      ∀ q ∈ new, ∃ kind : ModuleKind,
        kind.Leads target (Scope.ofRun params w.inst) w.inst q.asked := by
  unfold World.call
  split
  · rename_i kind memory found remembered
    obtain ⟨new, history, leads⟩ :=
      kind.leads_of_asked target o params batches memory w.session canonical
    exact ⟨new, history, fun q mem => ⟨kind, leads q mem⟩⟩
  · exact ⟨[], rfl, fun _ mem => absurd mem List.not_mem_nil⟩

/-- Every instance that has been met since the history was `before` upholds the property. -/
structure Upheld (P : Instance α → Prop) (i : Instance α) (before : List (Probe α))
    (w : World α ω) (calls : List (Called (World α ω))) : Prop where
  inst : i.Upholds P w.inst
  asked : ∃ new, w.session.history = new ++ before ∧ ∀ q ∈ new, i.Upholds P q.asked
  calls : ∀ c ∈ calls, i.Upholds P c.after.inst

namespace Upheld

variable {before : List (Probe α)} {w : World α ω} {calls : List (Called (World α ω))}

/-- **A call upholds the property**: at its probes, because it leads to what they ask about, and in
the end, because it then is where it has led to or where it was. -/
theorem call (h : Upheld P i before w calls) (keeps : (Scope.ofRun params i).Keeps target P)
    (o : Oracle α ω) (k batches began : Nat) :
    Upheld P i before (w.call o params target k batches).2
      (calls ++ [(machine o params target began).record k batches w]) := by
  have inst : i.Upholds P (w.call o params target k batches).2.inst := by
    by_cases successful : (w.call o params target k batches).1.1 = .successful
    · obtain ⟨kind, -, leads⟩ := leads_of_successful h.inst.canonical successful
      exact leads.upholds keeps h.inst
    · rw [inst_call_of_failed successful]
      exact h.inst
  obtain ⟨earlier, history, asked⟩ := h.asked
  obtain ⟨new, history', leads⟩ := leads_of_asked o params target k batches h.inst.canonical
  refine ⟨inst, ⟨new ++ earlier, ?_, fun q mem => ?_⟩, fun c mem => ?_⟩
  · rw [history', history, List.append_assoc]
  · rcases List.mem_append.1 mem with mem | mem
    · obtain ⟨kind, leads⟩ := leads q mem
      exact leads.upholds keeps h.inst
    · exact asked q mem
  · rcases List.mem_append.1 mem with mem | mem
    · exact h.calls c mem
    · obtain rfl := List.mem_singleton.1 mem
      exact inst

/-- Saving a run upholds what its calls uphold. -/
theorem save (h : Upheld P i before w calls) (params : Parameters) (s : RunState) :
    Upheld P i before (w.save params s) calls := by
  obtain ⟨inst, history⟩ := w.save_inst params s
  exact ⟨inst ▸ h.inst, history ▸ h.asked, h.calls⟩

/-- The opening asks about the instance as it is. -/
theorem check (h : Upheld P i before w calls) (o : Oracle α ω) (params : Parameters) :
    Upheld P i before (w.check o params).2 calls := by
  obtain ⟨new, history, asked⟩ := h.asked
  exact ⟨h.inst, ⟨⟨w.inst, (o.ask w.inst w.session.state).1⟩ :: new, congrArg (_ :: ·) history,
    List.forall_mem_cons.2 ⟨h.inst, asked⟩⟩, h.calls⟩

end Upheld
end World

namespace Run

/-- The property holds of every instance that the run asks about, of the instance after every call,
and of the final one. -/
structure Throughout (P : Instance α → Prop) (o : Oracle α ω) (params : Parameters)
    (target : Option Settings) (s : RunState) (i : Instance α) (session : Session α ω) :
    Prop where
  asked : ∃ probes, (reduce o params target s i session).2.session.history =
    probes ++ session.history ∧ ∀ q ∈ probes, P q.asked
  called : ∀ c ∈ (World.machine o params target (o.clock session.state)).called params s
    (World.start i session), P c.after.inst
  final : P (reduce o params target s i session).2.inst

variable {o : Oracle α ω} {s : RunState} {session : Session α ω}

/-- What holds throughout a run implies what follows from it. -/
theorem Throughout.imp {Q : Instance α → Prop} (h : Throughout P o params target s i session)
    (imp : ∀ x, P x → Q x) : Throughout Q o params target s i session where
  asked := by
    obtain ⟨probes, history, asked⟩ := h.asked
    exact ⟨probes, history, fun q mem => imp _ (asked q mem)⟩
  called c mem := imp _ (h.called c mem)
  final := imp _ h.final

/-- **What every change keeps, holds throughout a run.** -/
theorem holds_throughout (o : Oracle α ω) (s : RunState) (session : Session α ω)
    (canonical : i.problem.Canonical) (keeps : (Scope.ofRun params i).Keeps target P) (h : P i) :
    Throughout (i.Upholds P) o params target s i session := by
  let m := World.machine o params target (o.clock session.state)
  have begun : World.Upheld P i session.history (World.start i session) [] :=
    ⟨⟨canonical, rfl, h⟩, ⟨[], rfl, fun _ mem => absurd mem List.not_mem_nil⟩,
      fun _ mem => absurd mem List.not_mem_nil⟩
  have opened : World.Upheld P i session.history
      (m.recording.opening params (World.start i session, [])).2.1
      (m.recording.opening params (World.start i session, [])).2.2 := by
    unfold Machine.opening
    split
    · exact begun
    · exact begun.check o params
  have ended : World.Upheld P i session.history
      (m.recording.run params s (World.start i session, [])).2.1
      (m.recording.run params s (World.start i session, [])).2.2 :=
    Machine.run_keeps (m := m.recording)
      (P := fun v => World.Upheld P i session.history v.1 v.2)
      (fun k b v upheld => upheld.call keeps o k b _) (fun s v upheld => upheld.save params s)
      opened
  have recorded : (reduce o params target s i session).2 =
      (m.recording.run params s (World.start i session, [])).2.1 :=
    congrArg Prod.snd (m.run_recording params s (World.start i session) [])
  rw [← recorded] at ended
  exact ⟨ended.asked, ended.calls, ended.inst⟩

end Run
end Upholds
end MipShrink
