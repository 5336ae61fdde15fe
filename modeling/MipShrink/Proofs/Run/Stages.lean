/-
# When the stage goes up

A stage is over when all its modules have failed since the latest success of the run, on the
instance as it is and with the number of batches as it is (`Machine.stage_goes_up`).  This holds at
every moment of every run, whatever the modules answer: the loop sees nothing but their statuses and
efforts.

Behind it stands the invariant of `Machine.Standing`, with a module taken to fail when it has been
called since the latest success (`Machine.FailedSince`).
-/

import MipShrink.Proofs.Problem.Canonical
import MipShrink.Proofs.Run.Commitment
import MipShrink.Proofs.Run.LastStage
import MipShrink.Proofs.Run.Recording
import MipShrink.Rehearsal.Players

namespace MipShrink

variable {σ ι : Type}

namespace Called

/-- The calls after the latest success, all of them if there was none. -/
def sinceSuccess (calls : List (Called σ)) : List (Called σ) :=
  (calls.reverse.takeWhile fun c => c.status != .successful).reverse

/-- A call that has failed is one more since the latest success. -/
theorem sinceSuccess_concat {c : Called σ} (failed : c.status ≠ .successful)
    (calls : List (Called σ)) : sinceSuccess (calls ++ [c]) = sinceSuccess calls ++ [c] := by
  unfold sinceSuccess
  rw [List.reverse_concat, List.takeWhile_cons, if_pos (bne_iff_ne.2 failed), List.reverse_cons]

end Called

namespace RunState

/-- The stage changes only when the remembered module fails, and then by one. -/
theorem stage_afterCall_ne {expenditure effort : Int} {k : Nat} {status : CallStatus}
    {s : RunState} (changed : (s.afterCall expenditure k status effort).stage ≠ s.stage) :
    status ≠ .successful ∧ k = s.success ∧
      s.afterCall expenditure k status effort =
        { s with stage := s.stage + 1, success := s.stage + 1 } := by
  rcases s.afterCall_cases expenditure k status effort with
    ⟨-, next⟩ | ⟨failed, remembered, next⟩ | ⟨-, -, next⟩
  · rw [next] at changed
    exact absurd rfl changed
  · exact ⟨failed, remembered, next⟩
  · rw [next] at changed
    exact absurd rfl changed

end RunState

namespace Machine

/-- Calls that fail leave alone what `view` shows of the state, and so does saving. -/
structure LeavesAlone (m : Machine σ) (view : σ → ι) : Prop where
  call : ∀ k b w, (m.call k b w).1.1 ≠ .successful → view (m.call k b w).2 = view w
  save : ∀ s w, view (m.save s w) = view w

/-- Since the latest success the module has been called with so many batches, and has failed on
what there is to see. -/
def FailedSince (view : σ → ι) (j batches : Nat) (v : σ × List (Called σ)) : Prop :=
  ∃ c ∈ Called.sinceSuccess v.2, c.module = j ∧ c.status ≠ .successful ∧ c.batches = batches ∧
    view c.before = view v.1

variable {m : Machine σ} {l : Limits} {view : σ → ι}

/-- A machine that leaves alone what it shows records who has failed on it. -/
theorem records_recording (leaves : m.LeavesAlone view) :
    m.recording.Records (FailedSince view) where
  call k b v failed := by
    refine ⟨m.record k b v.1, ?_, rfl, failed, rfl, (leaves.call k b v.1 failed).symm⟩
    show _ ∈ Called.sinceSuccess (v.2 ++ [m.record k b v.1])
    rw [Called.sinceSuccess_concat failed]
    exact List.mem_append_right _ (List.mem_singleton_self _)
  keep j k b v failed := by
    rintro ⟨c, mem, module, status, batches, same⟩
    refine ⟨c, ?_, module, status, batches, same.trans (leaves.call k b v.1 failed).symm⟩
    show c ∈ Called.sinceSuccess (v.2 ++ [m.record k b v.1])
    rw [Called.sinceSuccess_concat failed]
    exact List.mem_append_left _ mem
  save j b s v := by
    rintro ⟨c, mem, module, status, batches, same⟩
    exact ⟨c, mem, module, status, batches, same.trans (leaves.save s v.1).symm⟩

/-- The calls from `s` on have let the stage go up only when all its modules had failed. -/
structure Earned (view : σ → ι) (expenditure : Int) (s : RunState) (calls : List (Called σ)) :
    Prop where
  success_le : ∀ earlier, earlier <+: calls →
    (s.replay expenditure earlier).success ≤ (s.replay expenditure earlier).stage
  goes_up : ∀ earlier c, earlier ++ [c] <+: calls →
    (s.replay expenditure (earlier ++ [c])).stage ≠ (s.replay expenditure earlier).stage →
    (s.replay expenditure (earlier ++ [c])).stage = (s.replay expenditure earlier).stage + 1 ∧
      ∀ j ≤ (s.replay expenditure earlier).stage,
        FailedSince view j (s.replay expenditure (earlier ++ [c])).batches (c.after, earlier ++ [c])

/-- What is known before the call at position `k` of a run that has begun in `s₀`. -/
structure Climb (m : Machine σ) (l : Limits) (view : σ → ι) (s₀ : RunState) (k : Nat)
    (s : RunState) (v : σ × List (Called σ)) : Prop where
  standing : Standing l (FailedSince view) k s v
  recorded : m.Recorded l s₀ s v.2
  earned : Earned view l.expenditure s₀ v.2

/-- **A call lets the stage go up only when all its modules have failed.** -/
theorem Climb.step (leaves : m.LeavesAlone view) {s₀ : RunState} {k : Nat} {s : RunState}
    {v : σ × List (Called σ)} (position : k ≤ s.stage) (stage : s.stage < l.maxStages)
    (h : m.Climb l view s₀ k s v) :
    m.Climb l view s₀ (k + 1)
      (s.afterCall l.expenditure k (m.call k s.batches v.1).1.1 (m.call k s.batches v.1).1.2)
      (m.recording.call k s.batches v).2 := by
  have records := records_recording leaves
  have standing := h.standing.step records position stage
  have recorded := h.recorded.call (w := v.1) position stage
  refine ⟨standing, recorded, ?_, ?_⟩
  · intro earlier before
    change earlier <+: v.2 ++ [m.record k s.batches v.1] at before
    rcases List.prefix_concat_iff.1 before with rfl | before
    · rw [recorded.replay]
      exact standing.success_le
    · exact h.earned.success_le earlier before
  · intro earlier c before changed
    change earlier ++ [c] <+: v.2 ++ [m.record k s.batches v.1] at before
    rcases List.prefix_concat_iff.1 before with last | before
    · obtain ⟨rfl, same⟩ := List.append_inj' last rfl
      obtain rfl := List.singleton_inj.1 same
      rw [recorded.replay, h.recorded.replay] at changed ⊢
      obtain ⟨failed, remembered, next⟩ := RunState.stage_afterCall_ne changed
      have all := h.standing.fails_of_remembered records remembered failed
      rw [next]
      exact ⟨rfl, all⟩
    · exact h.earned.goes_up earlier c before changed

/-- **The stage goes up only when all its modules have failed.**  The calls of a run from the
beginning, up to some moment, lead to the state in which the next call is made.  In this state the
remembered module is never beyond the stage.  Whenever a call changes the stage, this goes up by
one, and each module up to the stage before has been called since the latest success, or since the
beginning if there was none, on the instance that is there after the call and with the number of
batches that is in use then. -/
theorem stage_goes_up (m : Machine σ) (p : Parameters) (w : σ) {view : σ → ι}
    (leaves : m.LeavesAlone view) :
    let calls := m.called p (RunState.start p) w
    let state := fun earlier : List (Called σ) => (RunState.start p).replay p.expenditure earlier
    (∀ earlier c, earlier ++ [c] <+: calls → m.IsDue (m.limits p) (state earlier) c) ∧
      state calls = { (m.run p (RunState.start p) w).1.state with round := p.firstRound } ∧
      (∀ earlier, earlier <+: calls → (state earlier).success ≤ (state earlier).stage) ∧
      ∀ earlier c, earlier ++ [c] <+: calls →
        (state (earlier ++ [c])).stage ≠ (state earlier).stage →
        (state (earlier ++ [c])).stage = (state earlier).stage + 1 ∧
          ∀ j ≤ (state earlier).stage, ∃ d ∈ Called.sinceSuccess (earlier ++ [c]),
            d.module = j ∧ d.status ≠ .successful ∧ d.batches = (state (earlier ++ [c])).batches ∧
              view d.before = view c.after := by
  have records := records_recording leaves
  let l := m.limits p
  let s₀ := RunState.start p
  -- Between two rounds nothing is known of the position, which begins anew.
  let J : RunState → σ × List (Called σ) → Prop := fun s v =>
    (s.stage < l.maxStages → Standing l (FailedSince view) 0 s v) ∧
      m.Recorded l s₀ s v.2 ∧ Earned view l.expenditure s₀ v.2
  have round : ∀ s v, s.stage < l.maxStages → J s v →
      J (m.recording.round l s v).2.1 (m.recording.round l s v).2.2 := by
    rintro s v stage ⟨standing, recorded, earned⟩
    obtain ⟨k, ended, climb⟩ := calls_end (m := m.recording) (I := m.Climb l view s₀)
      (fun k s v position stage h => h.step leaves position stage)
      (Nat.le_refl (l.maxStages + 0)) ⟨standing stage, recorded, earned⟩
    exact ⟨(climb.standing.rest records ended).standing, climb.recorded.endRound, climb.earned⟩
  have begun : J s₀ (m.recording.opening p (w, [])).2 := by
    have none : (m.recording.opening p (w, [])).2.2 = [] := by
      unfold opening
      split <;> rfl
    refine ⟨fun stage => standing_start _ stage, ?_⟩
    rw [none]
    refine ⟨Recorded.nil m l s₀, ?_, ?_⟩
    · intro earlier before
      rw [List.prefix_nil.1 before]
      exact Nat.le_refl _
    · intro earlier c before
      simp at before
  obtain ⟨-, -, earned⟩ := run_keeps_state round begun
  exact ⟨fun _ _ => m.isDue_of_called p s₀ w, m.replay_called p s₀ w, earned.success_le,
    earned.goes_up⟩

/-- Players leave the instance alone, whether they fail or not. -/
theorem leavesAlone_play {α ω : Type} [Scalar α] (o : Oracle α ω) (p : Parameters) (count : Nat) :
    (Play.machine o p count).LeavesAlone Play.inst where
  call k b w _ := by
    show (w.call k b).2.inst = w.inst
    unfold Play.call
    split <;> rfl
  save _ _ := rfl

/-- So do the nine modules when they fail, and saving writes files only. -/
theorem leavesAlone_machine {α ω : Type} [Scalar α] (o : Oracle α ω) (p : Parameters)
    (target : Option Settings) (began : Nat) :
    (World.machine o p target began).LeavesAlone World.inst where
  call _ _ _ failed := World.inst_call_of_failed failed
  save s w := (w.save_inst p s).1

/-- Batches follow an expenditure of `100`, and the instance is reduced at once. -/
def spending : Parameters := { Parameters.standard with mode := .reduceOnly, expenditure := 100 }

/-- The second of three players succeeds once, with an effort of `25`. -/
def relay : Play Rat Unit :=
  Play.start { settings := {}, problem := .blend, solution := .unknown }
    [{ name := "first", answers := [], efforts := [], stats := {} },
      { name := "second", answers := [.successful], efforts := [25], stats := {} },
      { name := "third", answers := [], efforts := [], stats := {} }]
    (.start () .empty)

/-- The loop over the three players. -/
def relayMachine : Machine (Play Rat Unit) :=
  Play.machine (Oracle.ofFunction fun _ => ⟨⟨1⟩, .unknown, 1⟩) spending 3

/-- The fourth call ends the stage of two players: both have failed since the success, with the four
batches that it has led to. -/
theorem stage_goes_up_relay :
    let calls := relayMachine.called spending (RunState.start spending) relay
    let state := fun earlier : List (Called (Play Rat Unit)) =>
      (RunState.start spending).replay spending.expenditure earlier
    relayMachine.LeavesAlone Play.inst ∧
      calls.map (fun c => (c.module, c.status)) =
        [(0, .unsuccessful), (1, .successful), (0, .unsuccessful), (1, .unsuccessful),
          (2, .unsuccessful)] ∧
      (state (calls.take 3)).stage = 1 ∧ (state (calls.take 4)).stage = 2 ∧
      ∀ j ≤ 1, ∃ d ∈ Called.sinceSuccess (calls.take 4), d.module = j ∧ d.batches = 4 := by
  intro calls state
  have leaves : relayMachine.LeavesAlone Play.inst := leavesAlone_play ..
  have enough : 3 < calls.length := by decide +kernel
  have taken : calls.take 3 ++ [calls[3]] = calls.take 4 := List.take_append_getElem enough
  have before : (state (calls.take 3)).stage = 1 := by decide +kernel
  have after : (state (calls.take 4)).stage = 2 := by decide +kernel
  have batches : (state (calls.take 4)).batches = 4 := by decide +kernel
  refine ⟨leaves, by decide +kernel, before, after, fun j le => ?_⟩
  have up := (stage_goes_up relayMachine spending relay leaves).2.2.2 (calls.take 3) calls[3]
    (taken ▸ List.take_prefix 4 calls)
  change (state _).stage ≠ (state _).stage → (state _).stage = _ ∧ ∀ j ≤ (state _).stage, _ at up
  rw [taken, before, after] at up
  obtain ⟨d, mem, module, -, same, -⟩ := (up (by decide)).2 j le
  exact ⟨d, mem, module, same.trans batches⟩

end Machine
end MipShrink
