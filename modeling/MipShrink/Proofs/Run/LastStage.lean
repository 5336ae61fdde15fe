/-
# The modules that have failed since the last success

The stage of a run goes up when the module that is remembered fails.  Behind this stands an
invariant of the calls of a round, `Machine.Standing`: before the call at position `k`, with stage
`g` and remembered module `m`, either `k ≤ m` and the modules below `k` and those from `m + 1` to
`g` have failed since the last success, or `m < k` and those between `m` and `k` have.

So when the last stage is over, every module has failed on the instance as it is and with the
number of batches as it is (`Machine.fails_of_lastStage`).
-/

import MipShrink.Proofs.Run.Rounds

namespace MipShrink
namespace Machine

variable {σ : Type} {m : Machine σ} {l : Limits} {Fails : Nat → Nat → σ → Prop}

/-- What is known to fail before the call at position `k`. -/
structure Standing (l : Limits) (Fails : Nat → Nat → σ → Prop) (k : Nat) (s : RunState) (w : σ) :
    Prop where
  success_le : s.success ≤ s.stage
  position_le : k ≤ s.stage + 1
  below : k ≤ s.success → ∀ j < k, Fails j s.batches w
  above : k ≤ s.success → ∀ j, s.success < j → j ≤ s.stage → Fails j s.batches w
  between : s.success < k → ∀ j, s.success < j → j < k → Fails j s.batches w
  finished : l.maxStages ≤ s.stage → ∀ j < l.maxStages, Fails j s.batches w

/-- What is known between two rounds. -/
structure Rested (l : Limits) (Fails : Nat → Nat → σ → Prop) (s : RunState) (w : σ) : Prop where
  standing : s.stage < l.maxStages → Standing l Fails 0 s w
  finished : l.maxStages ≤ s.stage → ∀ j < l.maxStages, Fails j s.batches w

/-- What the failures of a machine are: a call that is not successful is one, and does not undo
others. -/
structure Records (m : Machine σ) (Fails : Nat → Nat → σ → Prop) : Prop where
  call : ∀ k b w, (m.call k b w).1.1 ≠ .successful → Fails k b (m.call k b w).2
  keep : ∀ j k b w, (m.call k b w).1.1 ≠ .successful → Fails j b w → Fails j b (m.call k b w).2
  save : ∀ j b s w, Fails j b w → Fails j b (m.save s w)

/-- A run starts with its first stage remembered, so nothing has to have failed. -/
theorem standing_start {p : Parameters} (w : σ) (stage : p.firstStage < l.maxStages) :
    Standing l Fails 0 (RunState.start p) w := by
  unfold RunState.start
  constructor <;> dsimp only
  · exact Nat.le_refl _
  · omega
  · intro _ j lt
    omega
  · intro _ j lower upper
    omega
  · intro lt
    omega
  · intro ended
    omega

/-- When the remembered module fails, every module of the stage has failed. -/
theorem Standing.fails_of_remembered (records : m.Records Fails) {k : Nat} {s : RunState} {w : σ}
    (h : Standing l Fails k s w) (remembered : k = s.success)
    (failed : (m.call k s.batches w).1.1 ≠ .successful) :
    ∀ j ≤ s.stage, Fails j s.batches (m.call k s.batches w).2 := by
  intro j le
  have keep := records.keep j k s.batches w failed
  rcases Nat.lt_trichotomy j k with lt | rfl | gt
  · exact keep (h.below (by omega) j lt)
  · exact records.call j s.batches w failed
  · exact keep (h.above (by omega) j (by omega) le)

/-- **A call keeps the standing.** -/
theorem Standing.step (records : m.Records Fails) {k : Nat} {s : RunState} {w : σ}
    (position : k ≤ s.stage) (stage : s.stage < l.maxStages) (h : Standing l Fails k s w) :
    Standing l Fails (k + 1)
      (s.afterCall l.expenditure k (m.call k s.batches w).1.1 (m.call k s.batches w).1.2)
      (m.call k s.batches w).2 := by
  have rise := h.fails_of_remembered records
  obtain ⟨success_le, position_le, below, above, between, finished⟩ := h
  rcases s.afterCall_cases l.expenditure k (m.call k s.batches w).1.1
      (m.call k s.batches w).1.2 with
    ⟨successful, next⟩ | ⟨failed, remembered, next⟩ | ⟨failed, other, next⟩
  · -- A success: nothing has failed on the new instance, and the round goes on behind it.
    rw [next]
    constructor <;> dsimp only
    · exact position
    · omega
    · intro le
      omega
    · intro le
      omega
    · intro lt j lower upper
      omega
    · intro ended
      omega
  · -- The module that was successful last has failed again, and with it the whole stage.
    have all := rise remembered failed
    rw [next]
    constructor <;> dsimp only
    · exact Nat.le_refl _
    · omega
    · intro le j lt
      exact all j (by omega)
    · intro le j lower upper
      omega
    · intro lt j lower upper
      omega
    · intro ended j lt
      exact all j (by omega)
  · -- Another module has failed: it joins those on its side of the last success.
    have now := records.call k s.batches w failed
    have keep (j : Nat) := records.keep j k s.batches w failed
    rw [next]
    constructor
    · exact success_le
    · omega
    · intro le j lt
      rcases Nat.lt_succ_iff_lt_or_eq.1 lt with lt | rfl
      · exact keep j (below (by omega) j lt)
      · exact now
    · intro le j lower upper
      exact keep j (above (by omega) j lower upper)
    · intro lt j lower upper
      rcases Nat.lt_succ_iff_lt_or_eq.1 upper with upper | rfl
      · exact keep j (between (by omega) j lower upper)
      · exact now
    · intro ended
      omega

/-- The standing when a round is over, carried through what is done between two rounds. -/
theorem Standing.rest (records : m.Records Fails) {k : Nat} {s : RunState} {w : σ}
    (ended : RoundOver l k s) (h : Standing l Fails k s w) :
    Rested l Fails (endRound s) (m.save (endRound s) w) := by
  have saved (j : Nat) (failed : Fails j s.batches w) :
      Fails j (endRound s).batches (m.save (endRound s) w) :=
    records.save j s.batches _ w failed
  unfold RoundOver at ended
  refine ⟨fun stage => ?_, fun last j lt => saved j (h.finished last j lt)⟩
  change s.stage < l.maxStages at stage
  have success_le : s.success ≤ s.stage := h.success_le
  constructor
  · exact success_le
  · omega
  · intro _ j lt
    omega
  · intro _ j lower upper
    change s.success < j at lower
    change j ≤ s.stage at upper
    exact saved j (h.between (by omega) j lower (by omega))
  · intro lt
    omega
  · intro last
    change l.maxStages ≤ s.stage at last
    omega

/-- A round keeps the modules rested that have failed. -/
theorem Rested.round (records : m.Records Fails) {s : RunState} {w : σ}
    (stage : s.stage < l.maxStages) (h : Rested l Fails s w) :
    Rested l Fails (m.round l s w).2.1 (m.round l s w).2.2 := by
  have enough : l.maxStages ≤ l.maxStages + 0 := Nat.le_refl _
  obtain ⟨k, ended, standing⟩ := calls_end (m := m) (I := Standing l Fails)
    (fun k s w position stage h => h.step records position stage) enough (h.standing stage)
  exact standing.rest records ended

/-- **When the last stage is over, every module has failed** on the instance and with the number of
batches that the run ends with.  The run has to have had a round: otherwise its first stage may be
beyond the last one without any call. -/
theorem fails_of_lastStage (records : m.Records Fails) {p : Parameters} {w : σ}
    (rounds : (m.run p (RunState.start p) w).1.rounds ≠ [])
    (last : (m.run p (RunState.start p) w).1.state.stage = (m.limits p).maxStages) :
    ∀ j < (m.limits p).maxStages,
      Fails j (m.run p (RunState.start p) w).1.state.batches (m.run p (RunState.start p) w).2 := by
  let opened := m.opening p w
  change (m.body p (RunState.start p) opened).1 ≠ [] at rounds
  change (m.body p (RunState.start p) opened).2.1.stage = _ at last
  show ∀ j < (m.limits p).maxStages, Fails j (m.body p (RunState.start p) opened).2.1.batches
    (m.body p (RunState.start p) opened).2.2
  unfold body at rounds last ⊢
  by_cases idle : opened.1 = some .okay ∨ p.mode = .reproduceOnly
  · rw [if_pos idle] at rounds
    exact absurd rfl rounds
  · rw [if_neg idle] at rounds last ⊢
    have stage : p.firstStage < (m.limits p).maxStages := stage_lt_of_rounds_ne_nil rounds
    have start : Rested (m.limits p) Fails (RunState.start p) opened.2 :=
      ⟨fun _ => standing_start _ stage, fun ended => absurd stage (Nat.not_lt.2 ended)⟩
    let r := m.rounds (m.limits p) (p.maxRounds - p.firstRound) (RunState.start p) opened.2
    have rested : Rested (m.limits p) Fails r.2.1 r.2.2 :=
      rounds_keeps (fun s w stage h => h.round records stage) start
    exact rested.finished (Nat.le_of_eq last.symm)

end Machine
end MipShrink
