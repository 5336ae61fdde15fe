/-
# Every round makes progress

A round begins with the first module and goes on until it has passed the stage.  So it calls the
remembered module, unless something succeeds before: either a call of the round is successful, or
the remembered module fails and the stage goes up (`Machine.calls_advance`).

The stage never goes down, and ends with the last one.  So a run has at most as many rounds as it
has successful calls and stages left (`Machine.rounds_le_successes`).  This bounds the rounds of a
run without any limit on their number.
-/

import MipShrink.Proofs.Run.Stages

namespace MipShrink

namespace RoundRecord

/-- Each round has a successful call or ends with a higher stage than the one before it, the first
one with a higher stage than the given one.  The stage never goes down. -/
def Advance (stage : Nat) : List RoundRecord → Prop
  | [] => True
  | r :: rest =>
    stage ≤ r.stage ∧ (.successful ∈ r.statuses ∨ stage < r.stage) ∧ Advance r.stage rest

/-- Each round uses up a success or a stage. -/
theorem Advance.length_le {last stage : Nat} {rounds : List RoundRecord}
    (h : Advance stage rounds) (bounded : ∀ r ∈ rounds, r.stage ≤ last) :
    rounds.length ≤ (rounds.flatMap statuses).count .successful + (last - stage) := by
  induction rounds generalizing stage with
  | nil => exact Nat.zero_le _
  | cons r rest ih =>
    obtain ⟨le, progress, later⟩ := h
    have top : r.stage ≤ last := bounded r (List.mem_cons_self ..)
    have rest_le := ih later fun r' mem => bounded r' (List.mem_cons_of_mem _ mem)
    rw [List.flatMap_cons, List.count_append, List.length_cons]
    rcases progress with success | higher
    · have one : 0 < r.statuses.count .successful := List.count_pos_iff.2 success
      omega
    · omega

end RoundRecord

namespace RunState

/-- The state `s` is one that a run can come to from `s₀`: the remembered module is not beyond the
stage, and the stage has not gone down nor beyond the last one. -/
structure Later (l : Limits) (s₀ s : RunState) : Prop where
  success_le : s.success ≤ s.stage
  stage_ge : s₀.stage ≤ s.stage
  stage_le : s.stage ≤ l.maxStages

/-- A call leads to a state that a run can come to. -/
theorem Later.afterCall {l : Limits} {s₀ s : RunState} {k : Nat} {status : CallStatus}
    {effort : Int} (position : k ≤ s.stage) (stage : s.stage < l.maxStages) (h : Later l s₀ s) :
    Later l s₀ (s.afterCall l.expenditure k status effort) := by
  rcases s.afterCall_cases l.expenditure k status effort with
    ⟨-, next⟩ | ⟨-, -, next⟩ | ⟨-, -, next⟩
  · rw [next]
    exact ⟨position, h.stage_ge, h.stage_le⟩
  · rw [next]
    exact ⟨Nat.le_refl _, Nat.le_succ_of_le h.stage_ge, stage⟩
  · rw [next]
    exact h

end RunState

namespace Machine

variable {σ : Type} (m : Machine σ) (l : Limits)

/-- The calls of a round lead to a state that a run can come to. -/
theorem later_calls {left k : Nat} {s₀ s : RunState} {w : σ} (h : RunState.Later l s₀ s) :
    RunState.Later l s₀ (m.calls l left k s w).2.1 := by
  induction left generalizing k s w with
  | zero => exact h
  | succ left ih =>
    rw [calls]
    split
    · rename_i due
      exact ih (h.afterCall due.1 due.2)
    · exact h

/-- **The calls of a round include a success, or lead to a higher stage.**  The induction is on the
calls that are left; up to the remembered module a failure changes nothing. -/
theorem calls_advance {left k : Nat} {s : RunState} {w : σ} (enough : l.maxStages ≤ left + k)
    (position : k ≤ s.success) (success_le : s.success ≤ s.stage) (stage : s.stage < l.maxStages) :
    .successful ∈ (m.calls l left k s w).1 ∨ s.stage < (m.calls l left k s w).2.1.stage := by
  induction left generalizing k s w with
  | zero => omega
  | succ left ih =>
    rw [calls, if_pos ⟨Nat.le_trans position success_le, stage⟩]
    dsimp only
    rcases s.afterCall_cases l.expenditure k (m.call k s.batches w).1.1
      (m.call k s.batches w).1.2 with ⟨successful, -⟩ | ⟨-, -, next⟩ | ⟨-, other, next⟩
    · rw [successful]
      exact .inl (List.mem_cons_self ..)
    · rw [next]
      have begun : RunState.Later l { s with stage := s.stage + 1, success := s.stage + 1 }
          { s with stage := s.stage + 1, success := s.stage + 1 } :=
        ⟨Nat.le_refl _, Nat.le_refl _, stage⟩
      exact .inr (m.later_calls l begun).stage_ge
    · rw [next]
      rcases ih (k := k + 1) (w := (m.call k s.batches w).2) (by omega) (by omega) success_le stage
        with success | higher
      · exact .inl (List.mem_cons_of_mem _ success)
      · exact .inr higher

/-- Rounds advance, and none of them ends beyond the last stage. -/
theorem rounds_advance {left : Nat} {s : RunState} {w : σ} (success_le : s.success ≤ s.stage) :
    RoundRecord.Advance s.stage (m.rounds l left s w).1 ∧
      ∀ r ∈ (m.rounds l left s w).1, r.stage ≤ l.maxStages := by
  induction left generalizing s w with
  | zero => exact ⟨trivial, fun r mem => absurd mem List.not_mem_nil⟩
  | succ left ih =>
    rw [rounds]
    split
    · rename_i stage
      have later : RunState.Later l s (m.round l s w).2.1 := by
        have begun : RunState.Later l s s := ⟨success_le, Nat.le_refl _, Nat.le_of_lt stage⟩
        have ended : RunState.Later l s (m.calls l l.maxStages 0 s w).2.1 := m.later_calls l begun
        exact ⟨ended.success_le, ended.stage_ge, ended.stage_le⟩
      have progress : .successful ∈ (m.round l s w).1.statuses ∨
          s.stage < (m.round l s w).1.stage :=
        m.calls_advance l (Nat.le_refl (l.maxStages + 0)) (Nat.zero_le _) success_le stage
      have ge : s.stage ≤ (m.round l s w).1.stage := later.stage_ge
      have le : (m.round l s w).1.stage ≤ l.maxStages := later.stage_le
      dsimp only
      split
      · refine ⟨⟨ge, progress, trivial⟩, fun r mem => ?_⟩
        rw [List.mem_singleton.1 mem]
        exact le
      · obtain ⟨rest, bounded⟩ := ih (w := (m.round l s w).2.2) later.success_le
        refine ⟨⟨ge, progress, rest⟩, fun r mem => ?_⟩
        rcases List.mem_cons.1 mem with rfl | mem
        · exact le
        · exact bounded r mem
    · exact ⟨trivial, fun r mem => absurd mem List.not_mem_nil⟩

/-- **Every round has a successful call or ends with a higher stage.**  So from a state in which the
remembered module is not beyond the stage, a run has at most as many rounds as it has successful
calls and stages left. -/
theorem rounds_le_successes (p : Parameters) (s : RunState) (w : σ)
    (success_le : s.success ≤ s.stage) :
    let rounds := (m.run p s w).1.rounds
    RoundRecord.Advance s.stage rounds ∧
      rounds.length ≤ (rounds.flatMap RoundRecord.statuses).count .successful +
        (min p.maxStages m.count - s.stage) := by
  obtain ⟨advance, bounded⟩ : RoundRecord.Advance s.stage (m.run p s w).1.rounds ∧
      ∀ r ∈ (m.run p s w).1.rounds, r.stage ≤ (m.limits p).maxStages := by
    show RoundRecord.Advance s.stage (m.body p s (m.opening p w)).1 ∧
      ∀ r ∈ (m.body p s (m.opening p w)).1, r.stage ≤ (m.limits p).maxStages
    unfold body
    split
    · exact ⟨trivial, fun r mem => absurd mem List.not_mem_nil⟩
    · exact m.rounds_advance (m.limits p) success_le
  exact ⟨advance, advance.length_le bounded⟩

/-- The run of the three players, taken up in the stage of two of them after a success of the first:
one success and two stages make two rounds. -/
theorem rounds_le_successes_relay :
    let s : RunState := { round := 4, stage := 1, success := 0, batches := 2 }
    let rounds := (relayMachine.run spending s relay).1.rounds
    s.success ≤ s.stage ∧
      rounds.map (fun r => (r.statuses, r.stage)) =
        [([.unsuccessful, .successful, .unsuccessful], 2),
          ([.unsuccessful, .unsuccessful], 3)] ∧
      rounds.length ≤ (rounds.flatMap RoundRecord.statuses).count .successful + (3 - s.stage) := by
  intro s rounds
  have success_le : s.success ≤ s.stage := by decide
  exact ⟨success_le, by decide +kernel,
    (relayMachine.rounds_le_successes spending s relay success_le).2⟩

end Machine
end MipShrink
