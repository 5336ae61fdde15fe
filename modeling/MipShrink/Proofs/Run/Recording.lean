/-
# The calls of a run

`Machine.called` lists the calls of a run in order, each with the state before and after it.  They
are kept by a machine that records its calls and does nothing else differently
(`Machine.run_recording`).

The calls tell where the run stands.  Replayed from the state in which the run begins, the calls up
to some moment give the stage, the remembered module and the number of batches of this moment: every
call is due in the state that the calls before it lead to (`Machine.isDue_of_called`), and all calls
lead to the state in which the run ends (`Machine.replay_called`).
-/

import MipShrink.Proofs.Run.Logging

namespace MipShrink

/-- A call of a module, with the state of the machine before and after it. -/
structure Called (σ : Type) where
  module : Nat
  batches : Nat
  before : σ
  status : CallStatus
  effort : Int
  after : σ

namespace RunState

variable {σ : Type}

/-- The state that calls lead to. -/
def replay (expenditure : Int) (s : RunState) (calls : List (Called σ)) : RunState :=
  calls.foldl (fun s c => s.afterCall expenditure c.module c.status c.effort) s

/-- Replaying one more call is that call after the others. -/
@[simp] theorem replay_concat (expenditure : Int) (s : RunState) (calls : List (Called σ))
    (c : Called σ) : s.replay expenditure (calls ++ [c]) =
      (s.replay expenditure calls).afterCall expenditure c.module c.status c.effort :=
  List.foldl_append ..

/-- The number of the round does not matter to a call. -/
theorem afterCall_round (expenditure : Int) (k : Nat) (status : CallStatus) (effort : Int)
    (s : RunState) (n : Nat) : { s with round := n }.afterCall expenditure k status effort =
      { s.afterCall expenditure k status effort with round := n } := by
  unfold afterCall
  split
  · rfl
  · dsimp only
    split <;> rfl

end RunState

namespace Machine

variable {σ : Type}

/-- A call as it is recorded. -/
def record (m : Machine σ) (k batches : Nat) (w : σ) : Called σ :=
  let r := m.call k batches w
  { module := k, batches := batches, before := w, status := r.1.1, effort := r.1.2, after := r.2 }

/-- The machine that keeps a list of its calls. -/
def recording (m : Machine σ) : Machine (σ × List (Called σ)) :=
  { count := m.count
    check := fun w => ((m.check w.1).1, (m.check w.1).2, w.2)
    call := fun k b w =>
      let r := m.call k b w.1
      (r.1, r.2, w.2 ++ [m.record k b w.1])
    size := fun w => m.size w.1
    save := fun s w => (m.save s w.1, w.2)
    stats := fun w => m.stats w.1
    probes := fun w => m.probes w.1
    elapsed := fun w => m.elapsed w.1 }

/-- Recording its calls changes nothing else in a machine. -/
theorem projects_recording (m : Machine σ) : Projects Prod.fst m.recording m := by
  constructor <;> intros <;> rfl

/-- **Recording changes nothing.** -/
theorem run_recording (m : Machine σ) (p : Parameters) (s : RunState) (w : σ)
    (calls : List (Called σ)) : m.run p s w =
      ((m.recording.run p s (w, calls)).1, (m.recording.run p s (w, calls)).2.1) :=
  m.projects_recording.run p s (w, calls)

/-- The calls of a run, in order. -/
def called (m : Machine σ) (p : Parameters) (s : RunState) (w : σ) : List (Called σ) :=
  (m.recording.run p s (w, [])).2.2

/-- The machine makes the call in the state. -/
structure IsDue (m : Machine σ) (l : Limits) (s : RunState) (c : Called σ) : Prop where
  module_le : c.module ≤ s.stage
  stage_lt : s.stage < l.maxStages
  batches : c.batches = s.batches
  call : m.call c.module c.batches c.before = ((c.status, c.effort), c.after)

/-- The calls are those that the machine makes on the way from `s₀` to `s`. -/
structure Recorded (m : Machine σ) (l : Limits) (s₀ s : RunState) (calls : List (Called σ)) :
    Prop where
  replay : s₀.replay l.expenditure calls = { s with round := s₀.round }
  isDue : ∀ earlier c, earlier ++ [c] <+: calls → m.IsDue l (s₀.replay l.expenditure earlier) c

namespace Recorded

variable {m : Machine σ} {l : Limits} {s₀ s : RunState} {calls : List (Called σ)}

/-- At the beginning no call has been recorded. -/
theorem nil (m : Machine σ) (l : Limits) (s₀ : RunState) : m.Recorded l s₀ s₀ [] where
  replay := rfl
  isDue earlier c before := by simp at before

/-- A call adds itself. -/
theorem call {k : Nat} {w : σ} (h : m.Recorded l s₀ s calls) (position : k ≤ s.stage)
    (stage : s.stage < l.maxStages) : m.Recorded l s₀
      (s.afterCall l.expenditure k (m.call k s.batches w).1.1 (m.call k s.batches w).1.2)
      (calls ++ [m.record k s.batches w]) where
  replay := by
    rw [RunState.replay_concat, h.replay]
    exact RunState.afterCall_round ..
  isDue earlier c before := by
    rcases List.prefix_concat_iff.1 before with last | before
    · obtain ⟨rfl, same⟩ := List.append_inj' last rfl
      obtain rfl := List.singleton_inj.1 same
      rw [h.replay]
      exact ⟨position, stage, rfl, rfl⟩
    · exact h.isDue earlier c before

/-- The end of a round adds nothing. -/
theorem endRound (h : m.Recorded l s₀ s calls) : m.Recorded l s₀ (Machine.endRound s) calls :=
  ⟨h.replay, h.isDue⟩

/-- A round goes on with the record. -/
theorem round (w : σ) (h : m.Recorded l s₀ s calls) : m.Recorded l s₀
    (m.recording.round l s (w, calls)).2.1 (m.recording.round l s (w, calls)).2.2.2 := by
  obtain ⟨-, -, recorded⟩ := calls_end (m := m.recording) (l := l) (w := (w, calls))
    (I := fun _ s v => m.Recorded l s₀ s v.2)
    (fun _ _ _ position stage h => h.call position stage) (Nat.le_refl (l.maxStages + 0)) h
  exact recorded.endRound

end Recorded

variable (m : Machine σ) (p : Parameters) (s : RunState) (w : σ)

/-- The calls of a run are made on the way to the state in which it ends. -/
theorem recorded_called : m.Recorded (m.limits p) s (m.run p s w).1.state (m.called p s w) := by
  rw [m.run_recording p s w []]
  refine run_keeps_state (m := m.recording) (J := fun s' v => m.Recorded (m.limits p) s s' v.2)
    (fun s' v _ h => h.round v.1) ?_
  have opened : (m.recording.opening p (w, [])).2.2 = [] := by
    unfold opening
    split <;> rfl
  rw [opened]
  exact Recorded.nil ..

/-- **Every call is due when it is made.** -/
theorem isDue_of_called {earlier : List (Called σ)} {c : Called σ}
    (before : earlier ++ [c] <+: m.called p s w) :
    m.IsDue (m.limits p) (s.replay p.expenditure earlier) c :=
  (m.recorded_called p s w).isDue earlier c before

/-- **The calls lead to the state in which the run ends**, apart from the number of its round. -/
theorem replay_called : s.replay p.expenditure (m.called p s w) =
    { (m.run p s w).1.state with round := s.round } :=
  (m.recorded_called p s w).replay

end Machine
end MipShrink
