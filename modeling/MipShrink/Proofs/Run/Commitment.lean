/-
# What a run commits

The history of a session holds every probe.  A call of a module commits the instance of its latest
probe that showed the defect, and leaves the instance alone if none did (`Reduction.call_commits`).
Committing composes along the history (`Probe.lastAccepted_append`), so the same holds of a whole
run, with the probes of all its calls taken together (`Run.inst_eq_lastAccepted`).

The check that may open a run is not among these probes.  It asks about the instance that the run
begins with, and changes nothing.
-/

import MipShrink.Proofs.Run.Rounds
import MipShrink.Run.Basic

namespace MipShrink

variable {α ω υ : Type}

namespace Probe

/-- The defect showed. -/
def showsDefect (passCodes : List Int) (q : Probe α) : Bool :=
  q.verdict passCodes != .okay

/-- The instance of the latest probe that showed the defect, and the given one if none did.  The
latest probe comes first. -/
def lastAccepted (passCodes : List Int) (i : Instance α) (history : List (Probe α)) : Instance α :=
  ((history.find? (showsDefect passCodes)).map asked).getD i

variable {passCodes : List Int} {i : Instance α} {q : Probe α} {history : List (Probe α)}

/-- A probe that is judged okay commits nothing. -/
theorem lastAccepted_cons_of_okay (h : q.verdict passCodes = .okay) :
    lastAccepted passCodes i (q :: history) = lastAccepted passCodes i history := by
  have hidden : showsDefect passCodes q = false := by simp [showsDefect, h]
  rw [lastAccepted, List.find?_cons_of_neg (by simp [hidden]), lastAccepted]

/-- A probe that is judged otherwise commits what was asked. -/
theorem lastAccepted_cons_of_ne_okay (h : q.verdict passCodes ≠ .okay) :
    lastAccepted passCodes i (q :: history) = q.asked := by
  have shows : showsDefect passCodes q = true := by simp [showsDefect, h]
  rw [lastAccepted, List.find?_cons_of_pos shows]
  rfl

/-- Later probes commit on top of what earlier ones have committed. -/
theorem lastAccepted_append (later earlier : List (Probe α)) :
    lastAccepted passCodes i (later ++ earlier) =
      lastAccepted passCodes (lastAccepted passCodes i earlier) later := by
  induction later with
  | nil => rfl
  | cons q later ih =>
    rw [List.cons_append]
    by_cases okay : q.verdict passCodes = .okay
    · rw [lastAccepted_cons_of_okay okay, lastAccepted_cons_of_okay okay, ih]
    · rw [lastAccepted_cons_of_ne_okay okay, lastAccepted_cons_of_ne_okay okay]

/-- What is committed is the given instance or was asked about in a probe that showed the defect. -/
theorem lastAccepted_cases (passCodes : List Int) (i : Instance α) (history : List (Probe α)) :
    lastAccepted passCodes i history = i ∨
      ∃ q ∈ history, q.verdict passCodes ≠ .okay ∧ lastAccepted passCodes i history = q.asked := by
  induction history with
  | nil => exact .inl rfl
  | cons q history ih =>
    by_cases okay : q.verdict passCodes = .okay
    · rw [lastAccepted_cons_of_okay okay]
      rcases ih with kept | ⟨q', mem, shows, eq⟩
      · exact .inl kept
      · exact .inr ⟨q', List.mem_cons_of_mem _ mem, shows, eq⟩
    · exact .inr ⟨q, List.mem_cons_self .., okay, lastAccepted_cons_of_ne_okay okay⟩

/-- A question about an instance with the given reference, answered by the oracle. -/
def AnsweredBy (o : Oracle α ω) (solution : Solution α) (q : Probe α) : Prop :=
  q.asked.solution = solution ∧ ∃ w, q.answer = (o.ask q.asked w).1

end Probe

/-- The instance goes from `i` to `i'` while the probes `new` are added to the history, each of them
answered by the oracle. -/
structure Commits (o : Oracle α ω) (passCodes : List Int) (i i' : Instance α)
    (history history' new : List (Probe α)) : Prop where
  history_eq : history' = new ++ history
  inst_eq : i' = Probe.lastAccepted passCodes i new
  answered : ∀ q ∈ new, q.AnsweredBy o i.solution

namespace Commits

variable {o : Oracle α ω} {passCodes : List Int} {i i' i'' : Instance α}
  {history history' history'' new new' : List (Probe α)}

/-- Without a probe nothing is committed. -/
theorem refl : Commits o passCodes i i history history [] :=
  ⟨rfl, rfl, fun _ mem => absurd mem List.not_mem_nil⟩

/-- Committing keeps the reference. -/
theorem solution_eq (h : Commits o passCodes i i' history history' new) :
    i'.solution = i.solution := by
  rw [h.inst_eq]
  rcases Probe.lastAccepted_cases passCodes i new with kept | ⟨q, mem, -, eq⟩
  · rw [kept]
  · rw [eq]
    exact (h.answered q mem).1

/-- Committing composes along the history. -/
theorem trans (h : Commits o passCodes i i' history history' new)
    (h' : Commits o passCodes i' i'' history' history'' new') :
    Commits o passCodes i i'' history history'' (new' ++ new) := by
  refine ⟨?_, ?_, fun q mem => ?_⟩
  · rw [h'.history_eq, h.history_eq, List.append_assoc]
  · rw [Probe.lastAccepted_append, ← h.inst_eq]
    exact h'.inst_eq
  · rcases List.mem_append.1 mem with mem | mem
    · rw [← h.solution_eq]
      exact h'.answered q mem
    · exact h.answered q mem

/-- The defect still shows if the verdict depends on the instance alone. -/
theorem verdict_ne_okay (h : Commits o passCodes i i' history history' new)
    {verdict : Instance α → Verdict}
    (function : ∀ j w, Verdict.classify passCodes (o.ask j w).1.retcode = verdict j)
    (shows : verdict i ≠ .okay) : verdict i' ≠ .okay := by
  rw [h.inst_eq]
  rcases Probe.lastAccepted_cases passCodes i new with
    kept | ⟨q, mem, ne, eq⟩
  · rwa [kept]
  · obtain ⟨-, w, answer⟩ := h.answered q mem
    rw [eq, ← function q.asked w, ← answer]
    exact ne

end Commits

variable [Scalar α]

namespace Pass

/-- What the probes of a call have done so far. -/
structure Commits (c : Setup α ω) (i : Instance α) (history : List (Probe α)) (p : Pass α ω)
    (new : List (Probe α)) : Prop where
  commits : MipShrink.Commits c.oracle c.params.passCodes i (p.base.toInstance c.solution) history
    p.session.history new
  /-- Before the first success the base is the instance of the call. -/
  base_eq : p.success = false → p.base.toInstance c.solution = i

variable {c : Setup α ω} {i : Instance α} {history new : List (Probe α)} {p : Pass α ω}

/-- A probe adds itself to the history, and commits what it asked about if the defect shows. -/
theorem Commits.probe (h : p.Commits c i history new) (solution : c.solution = i.solution) :
    ∃ new, (p.probe c).Commits c i history new := by
  let q : Probe α :=
    ⟨p.draft.flush.toInstance c.solution,
      (c.oracle.ask (p.draft.flush.toInstance c.solution) p.session.state).1⟩
  have answered : ∀ q' ∈ q :: new, q'.AnsweredBy c.oracle i.solution := by
    intro q' mem
    rcases List.mem_cons.1 mem with rfl | mem
    · exact ⟨solution, p.session.state, rfl⟩
    · exact h.commits.answered q' mem
  refine ⟨q :: new, ?_⟩
  unfold Pass.probe
  dsimp only
  split
  · rename_i okay
    refine ⟨⟨congrArg (q :: ·) h.commits.history_eq, ?_, answered⟩, h.base_eq⟩
    rw [Probe.lastAccepted_cons_of_okay okay]
    exact h.commits.inst_eq
  · rename_i shows
    refine ⟨⟨congrArg (q :: ·) h.commits.history_eq, ?_, answered⟩, fun success => ?_⟩
    · rw [Probe.lastAccepted_cons_of_ne_okay shows]
    · exact absurd success Bool.noConfusion

end Pass

namespace Reduction

variable (r : Reduction α υ) (o : Oracle α ω) (params : Parameters) (batches : Nat)
  (i : Instance α) (memory : ModuleState) (session : Session α ω)

/-- **What every change of an admissible element and every probe keeps, a call keeps.** -/
theorem pass_induction {P : Pass α ω → Prop}
    (start : P { draft := .ofInstance i, base := .ofInstance i, batch := 0, success := false
                 memory := memory, session := session })
    (change : ∀ p u, P p → r.admissible i.problem p.draft u = true →
      P { p with draft := r.apply u p.draft, batch := p.batch + 1 })
    (probe : ∀ p, P p → P (p.probe
      { oracle := o, params := params, solution := i.solution, start := i.problem })) :
    P (r.pass o params batches i memory session) := by
  let c : Pass.Setup α ω :=
    { oracle := o, params := params, solution := i.solution, start := i.problem }
  have step (size : Nat) (p : Pass α ω) (h : P p) (u : υ) : P (p.step r c size u) := by
    unfold Pass.step
    split
    · rename_i admissible
      dsimp only
      split
      · exact probe _ (change p u h admissible)
      · exact change p u h admissible
    · exact h
  have finish (p : Pass α ω) (h : P p) : P (p.finish c) := by
    unfold Pass.finish
    split
    · exact probe p h
    · exact h
  exact finish _ (List.foldlRecOn _ _ start fun p h u _ => step _ p h u)

/-- **What a probe keeps, a call keeps**, if it does not speak of the draft and its batch. -/
theorem pass_keeps {P : Pass α ω → Prop}
    (start : P { draft := .ofInstance i, base := .ofInstance i, batch := 0, success := false
                 memory := memory, session := session })
    (draft : ∀ p d n, P p → P { p with draft := d, batch := n })
    (probe : ∀ p, P p → P (p.probe
      { oracle := o, params := params, solution := i.solution, start := i.problem })) :
    P (r.pass o params batches i memory session) :=
  r.pass_induction o params batches i memory session start (fun p _ h _ => draft p _ _ h) probe

/-- **A call commits what its latest probe with the defect asked about.** -/
theorem execute_commits : ∃ new, Commits o params.passCodes i
    (r.execute o params batches i memory session).inst session.history
    (r.execute o params batches i memory session).session.history new := by
  unfold execute
  split
  · exact ⟨[], Commits.refl⟩
  · let c : Pass.Setup α ω :=
      { oracle := o, params := params, solution := i.solution, start := i.problem }
    obtain ⟨new, finished⟩ := r.pass_keeps o params batches i memory session
      (P := fun p => ∃ new, p.Commits c i session.history new)
      ⟨[], Commits.refl, fun _ => rfl⟩
      (fun p d n ⟨new, h⟩ => ⟨new, h.commits, h.base_eq⟩)
      (fun p ⟨new, h⟩ => h.probe rfl)
    refine ⟨new, ?_⟩
    dsimp only
    split
    · exact finished.commits
    · rename_i failed
      have kept := finished.base_eq (Bool.eq_false_iff.2 failed)
      have commits := finished.commits
      rwa [kept] at commits

/-- Switched on or off, a call commits in the same way. -/
theorem call_commits (name : String) : ∃ new, Commits o params.passCodes i
    (r.call name o params batches i memory session).inst session.history
    (r.call name o params batches i memory session).session.history new := by
  unfold call
  split
  · exact execute_commits ..
  · exact ⟨[], Commits.refl⟩

/-- A call that is not successful leaves the instance alone. -/
theorem inst_call_of_failed (name : String)
    (failed : (r.call name o params batches i memory session).status ≠ .successful) :
    (r.call name o params batches i memory session).inst = i := by
  unfold call at failed ⊢
  by_cases enabled : params.isEnabled name
  · rw [if_pos enabled] at failed ⊢
    unfold execute at failed ⊢
    dsimp only at failed ⊢
    split
    · rfl
    · rename_i eligible
      rw [if_neg eligible] at failed
      split
      · rename_i success
        rw [if_pos success] at failed
        exact absurd rfl failed
      · rfl
  · rw [if_neg enabled]

end Reduction

namespace World

/-- A call of any module commits the instance of its latest probe that showed the defect. -/
theorem call_commits (o : Oracle α ω) (params : Parameters) (target : Option Settings)
    (k batches : Nat) (w : World α ω) : ∃ new, Commits o params.passCodes w.inst
      (w.call o params target k batches).2.inst w.session.history
      (w.call o params target k batches).2.session.history new := by
  unfold World.call
  split
  · exact Reduction.call_commits ..
  · exact ⟨[], Commits.refl⟩

/-- A call that is not successful leaves the instance alone. -/
theorem inst_call_of_failed {o : Oracle α ω} {params : Parameters} {target : Option Settings}
    {k batches : Nat} {w : World α ω}
    (failed : (w.call o params target k batches).1.1 ≠ .successful) :
    (w.call o params target k batches).2.inst = w.inst := by
  unfold World.call at failed ⊢
  split
  · rename_i kind memory found remembered
    rw [found, remembered] at failed
    exact Reduction.inst_call_of_failed _ o params batches w.inst memory w.session kind.name failed
  · rfl

omit [Scalar α] in
/-- Saving writes files and touches nothing else. -/
theorem save_inst (params : Parameters) (s : RunState) (w : World α ω) :
    (w.save params s).inst = w.inst ∧ (w.save params s).session.history = w.session.history := by
  unfold World.save
  split
  · exact ⟨rfl, rfl⟩
  · split <;> exact ⟨rfl, rfl⟩

omit [Scalar α] in
/-- Saving a run leaves what the modules remember. -/
theorem memories_save (params : Parameters) (s : RunState) (w : World α ω) :
    (w.save params s).memories = w.memories := by
  unfold World.save
  split
  · rfl
  · split <;> rfl

end World

namespace Run

/-- The run when its opening is over: the instance has been checked if that is wanted. -/
def opened (o : Oracle α ω) (params : Parameters) (target : Option Settings) (i : Instance α)
    (session : Session α ω) : World α ω :=
  ((World.machine o params target (o.clock session.state)).opening params
    (World.start i session)).2

/-- Opening a run leaves its instance. -/
theorem opened_inst (o : Oracle α ω) (params : Parameters) (target : Option Settings)
    (i : Instance α) (session : Session α ω) : (opened o params target i session).inst = i := by
  unfold opened Machine.opening
  split <;> rfl

/-- **A run commits what was probed last with the defect showing.**  From whatever state it starts
and whatever the oracle answers, the final instance is that of the latest probe of a module whose
verdict was not okay, or the one at the start if there was none, and the reference stays.  Hence
the defect is not lost if the verdict depends on the instance alone. -/
theorem inst_eq_lastAccepted (o : Oracle α ω) (params : Parameters) (target : Option Settings)
    (s : RunState) (i : Instance α) (session : Session α ω) :
    ∃ probes : List (Probe α),
      (reduce o params target s i session).2.session.history =
        probes ++ (opened o params target i session).session.history ∧
      (reduce o params target s i session).2.inst =
        Probe.lastAccepted params.passCodes i probes ∧
      (reduce o params target s i session).2.inst.solution = i.solution ∧
      ∀ verdict : Instance α → Verdict,
        (∀ j w, Verdict.classify params.passCodes (o.ask j w).1.retcode = verdict j) →
        verdict i ≠ .okay → verdict (reduce o params target s i session).2.inst ≠ .okay := by
  let m := World.machine o params target (o.clock session.state)
  let start := opened o params target i session
  have same : start.inst = i := opened_inst o params target i session
  let P : World α ω → Prop := fun w => ∃ probes,
    Commits o params.passCodes i w.inst start.session.history w.session.history probes
  have call : ∀ k b w, P w → P (m.call k b w).2 := by
    rintro k b w ⟨probes, before⟩
    obtain ⟨new, during⟩ := World.call_commits o params target k b w
    exact ⟨new ++ probes, before.trans during⟩
  have save : ∀ s w, P w → P (m.save s w) := by
    rintro s w ⟨probes, before⟩
    obtain ⟨inst, history⟩ := World.save_inst params s w
    refine ⟨probes, ?_⟩
    change Commits _ _ _ (w.save params s).inst _ (w.save params s).session.history _
    rwa [inst, history]
  have begun : P start := ⟨[], by rw [same]; exact Commits.refl⟩
  obtain ⟨probes, commits⟩ : P (reduce o params target s i session).2 :=
    Machine.run_keeps call save begun
  exact ⟨probes, commits.history_eq, commits.inst_eq, commits.solution_eq,
    fun _ function shows => commits.verdict_ne_okay function shows⟩

end Run
end MipShrink
