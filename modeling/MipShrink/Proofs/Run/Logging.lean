/-
# Machines that keep a log

A machine may keep a log besides its state: each successful call adds to it.  The log changes
nothing else (`Machine.run_logging`), so a statement about the log of a run is a statement about
the run itself.
-/

import MipShrink.Proofs.Run.Rounds

namespace MipShrink
namespace Machine

variable {σ τ β : Type}

/-- Read through `φ`, the machine `m` does what `m'` does. -/
structure Projects (φ : σ → τ) (m : Machine σ) (m' : Machine τ) : Prop where
  count : m'.count = m.count
  check : ∀ w, m'.check (φ w) = ((m.check w).1, φ (m.check w).2)
  call : ∀ k b w, m'.call k b (φ w) = ((m.call k b w).1, φ (m.call k b w).2)
  size : ∀ w, m'.size (φ w) = m.size w
  save : ∀ s w, m'.save s (φ w) = φ (m.save s w)
  stats : ∀ w, m'.stats (φ w) = m.stats w
  probes : ∀ w, m'.probes (φ w) = m.probes w
  elapsed : ∀ w, m'.elapsed (φ w) = m.elapsed w

namespace Projects

variable {φ : σ → τ} {m : Machine σ} {m' : Machine τ}

/-- Calls with a log are the calls, as far as the rest is concerned. -/
theorem calls (h : Projects φ m m') (l : Limits) (left k : Nat) (s : RunState) (w : σ) :
    m'.calls l left k s (φ w) =
      ((m.calls l left k s w).1, (m.calls l left k s w).2.1, φ (m.calls l left k s w).2.2) := by
  induction left generalizing k s w with
  | zero => rfl
  | succ left ih =>
    rw [Machine.calls, Machine.calls]
    split
    · dsimp only
      rw [h.call, ih]
    · rfl

/-- A round with a log is the round, as far as the rest is concerned. -/
theorem round (h : Projects φ m m') (l : Limits) (s : RunState) (w : σ) :
    m'.round l s (φ w) =
      ((m.round l s w).1, (m.round l s w).2.1, φ (m.round l s w).2.2) := by
  unfold Machine.round
  dsimp only
  rw [h.calls, h.size, h.save]

/-- Rounds with a log are the rounds, as far as the rest is concerned. -/
theorem rounds (h : Projects φ m m') (l : Limits) (left : Nat) (s : RunState) (w : σ) :
    m'.rounds l left s (φ w) =
      ((m.rounds l left s w).1, (m.rounds l left s w).2.1, φ (m.rounds l left s w).2.2) := by
  induction left generalizing s w with
  | zero => rfl
  | succ left ih =>
    rw [Machine.rounds, Machine.rounds]
    split
    · dsimp only
      rw [h.round, h.elapsed]
      split
      · rfl
      · dsimp only
        rw [ih]
    · rfl

/-- The opening with a log is the opening, as far as the rest is concerned. -/
theorem opening (h : Projects φ m m') (p : Parameters) (w : σ) :
    m'.opening p (φ w) = ((m.opening p w).1, φ (m.opening p w).2) := by
  unfold Machine.opening
  split
  · rfl
  · rw [h.check]

/-- **Read through `φ`, the runs are the same.** -/
theorem run (h : Projects φ m m') (p : Parameters) (s : RunState) (w : σ) :
    m'.run p s (φ w) = ((m.run p s w).1, φ (m.run p s w).2) := by
  have limits : m'.limits p = m.limits p := by
    unfold Machine.limits
    rw [h.count]
  have body (opened : Option Verdict × σ) : m'.body p s (opened.1, φ opened.2) =
      ((m.body p s opened).1, (m.body p s opened).2.1, φ (m.body p s opened).2.2) := by
    unfold Machine.body Machine.loop
    split
    · rfl
    · rw [limits, h.rounds]
  unfold Machine.run
  dsimp only
  rw [h.opening, body, h.stats, h.size, h.size, h.probes, h.elapsed]

end Projects

/-- The machine with a log, to which each successful call adds what `note` says of the state after
it. -/
def logging (m : Machine σ) (note : Nat → σ → List β) : Machine (σ × List β) :=
  { count := m.count
    check := fun w => ((m.check w.1).1, (m.check w.1).2, w.2)
    call := fun k b w =>
      let r := m.call k b w.1
      (r.1, r.2, if r.1.1 = .successful then w.2 ++ note k r.2 else w.2)
    size := fun w => m.size w.1
    save := fun s w => (m.save s w.1, w.2)
    stats := fun w => m.stats w.1
    probes := fun w => m.probes w.1
    elapsed := fun w => m.elapsed w.1 }

/-- A machine with a log is the machine, as far as the rest is concerned. -/
theorem projects_logging (m : Machine σ) (note : Nat → σ → List β) :
    Projects Prod.fst (m.logging note) m := by
  constructor <;> intros <;> rfl

/-- **A log changes nothing.** -/
theorem run_logging (m : Machine σ) (note : Nat → σ → List β) (p : Parameters) (s : RunState)
    (w : σ) (log : List β) : m.run p s w =
      (((m.logging note).run p s (w, log)).1, ((m.logging note).run p s (w, log)).2.1) :=
  (projects_logging m note).run p s (w, log)

end Machine
end MipShrink
