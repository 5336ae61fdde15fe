/-
# What a run keeps

The loop of rounds and stages calls modules, counts rounds and saves; whatever each of these keeps,
a run keeps.  An invariant may speak of the position within the round: `Machine.calls_end` follows
it through the calls of a round until no further call is due.  The number of calls allowed to a
round is never what ends it, because the position of a call stays below the number of stages.
-/

import MipShrink.Run.Loop

namespace MipShrink

/-- **What a call does to the state.**  A success is remembered and may change the number of
batches; a failure of the remembered module lets the stage go up; any other failure does nothing. -/
theorem RunState.afterCall_cases (expenditure : Int) (k : Nat) (status : CallStatus) (effort : Int)
    (s : RunState) :
    (status = .successful ∧ s.afterCall expenditure k status effort =
      { s with success := k, batches := adapted expenditure effort s.batches }) ∨
    (status ≠ .successful ∧ k = s.success ∧ s.afterCall expenditure k status effort =
      { s with stage := s.stage + 1, success := s.stage + 1 }) ∨
    (status ≠ .successful ∧ k ≠ s.success ∧ s.afterCall expenditure k status effort = s) := by
  unfold afterCall
  by_cases successful : status = .successful
  · rw [if_pos successful]
    exact .inl ⟨successful, rfl⟩
  · rw [if_neg successful]
    by_cases remembered : k = s.success
    · rw [if_pos remembered]
      exact .inr (.inl ⟨successful, remembered, rfl⟩)
    · rw [if_neg remembered]
      exact .inr (.inr ⟨successful, remembered, rfl⟩)

namespace Machine

variable {σ : Type} {m : Machine σ} {l : Limits}

/-- The calls of a round are over at position `k`. -/
def RoundOver (l : Limits) (k : Nat) (s : RunState) : Prop :=
  ¬(k ≤ s.stage ∧ s.stage < l.maxStages)

/-- **An invariant of the calls holds when the round is over.** -/
theorem calls_end {I : Nat → RunState → σ → Prop}
    (step : ∀ k s w, k ≤ s.stage → s.stage < l.maxStages → I k s w →
      I (k + 1) (s.afterCall l.expenditure k (m.call k s.batches w).1.1 (m.call k s.batches w).1.2)
        (m.call k s.batches w).2)
    {left k : Nat} {s : RunState} {w : σ} (enough : l.maxStages ≤ left + k) (h : I k s w) :
    ∃ k', RoundOver l k' (m.calls l left k s w).2.1 ∧
      I k' (m.calls l left k s w).2.1 (m.calls l left k s w).2.2 := by
  induction left generalizing k s w with
  | zero => exact ⟨k, fun due => by omega, h⟩
  | succ left ih =>
    rw [calls]
    split
    · rename_i due
      exact ih (by omega) (step k s w due.1 due.2 h)
    · rename_i ended
      exact ⟨k, ended, h⟩

/-- What every call keeps, a round keeps. -/
theorem calls_keeps {P : σ → Prop} (call : ∀ k b w, P w → P (m.call k b w).2)
    {left k : Nat} {s : RunState} {w : σ} (h : P w) : P (m.calls l left k s w).2.2 := by
  induction left generalizing k s w with
  | zero => exact h
  | succ left ih =>
    rw [calls]
    split
    · exact ih (call k s.batches w h)
    · exact h

/-- What every round keeps, the rounds keep. -/
theorem rounds_keeps {J : RunState → σ → Prop}
    (round : ∀ s w, s.stage < l.maxStages → J s w → J (m.round l s w).2.1 (m.round l s w).2.2)
    {left : Nat} {s : RunState} {w : σ} (h : J s w) :
    J (m.rounds l left s w).2.1 (m.rounds l left s w).2.2 := by
  induction left generalizing s w with
  | zero => exact h
  | succ left ih =>
    rw [rounds]
    split
    · rename_i stage
      have next := round s w stage h
      dsimp only
      split
      · exact next
      · exact ih next
    · exact h

/-- Rounds that are recorded have begun below the last stage. -/
theorem stage_lt_of_rounds_ne_nil {left : Nat} {s : RunState} {w : σ}
    (h : (m.rounds l left s w).1 ≠ []) : s.stage < l.maxStages := by
  cases left with
  | zero => exact absurd rfl h
  | succ left =>
    rw [rounds] at h
    split at h
    · assumption
    · exact absurd rfl h

/-- **What every round keeps, a run keeps** from the opening on. -/
theorem run_keeps_state {J : RunState → σ → Prop} {p : Parameters}
    (round : ∀ s w, s.stage < (m.limits p).maxStages → J s w →
      J (m.round (m.limits p) s w).2.1 (m.round (m.limits p) s w).2.2)
    {s : RunState} {w : σ} (h : J s (m.opening p w).2) :
    J (m.run p s w).1.state (m.run p s w).2 := by
  show J (m.body p s (m.opening p w)).2.1 (m.body p s (m.opening p w)).2.2
  unfold body
  split
  · exact h
  · exact rounds_keeps round h

/-- **What every call and every saving keeps, a run keeps** from the opening on. -/
theorem run_keeps {P : σ → Prop} (call : ∀ k b w, P w → P (m.call k b w).2)
    (save : ∀ s w, P w → P (m.save s w)) {p : Parameters} {s : RunState} {w : σ}
    (h : P (m.opening p w).2) : P (m.run p s w).2 :=
  run_keeps_state (J := fun _ w => P w) (fun _ _ _ hw => save _ _ (calls_keeps call hw)) h

end Machine
end MipShrink
