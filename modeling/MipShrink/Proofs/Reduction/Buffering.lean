/-
# Coefficients that wait to be written

A draft stands for the instance in which the coefficients that wait are written
(`Draft.settled`).  `Reduction.Buffers r q touches` says that the direct reduction `q` does to this
instance what `r` does to the draft, as long as no position that the unit touches waits already.

Different units touch different positions and no unit occurs twice, so within a call no unit meets
a position that waits.  A call is followed unit by unit next to the direct call, in the middle of a
batch as well (`Reduction.Buffers.follows`).
-/

import MipShrink.Proofs.Problem.Canonical
import MipShrink.Proofs.Reduction.Direct

namespace MipShrink

variable {α ω υ : Type} [Scalar α]

namespace Draft

/-- The instance that a draft stands for: the coefficients that wait are written. -/
def settled (solution : Solution α) (d : Draft α) : Instance α := d.flush.toInstance solution

/-- The program is canonical, and positions wait in their order, each of them because of some
unit. -/
structure Sound (touches : υ → Nat × Nat → Prop) (d : Draft α) : Prop where
  problem : d.problem.Canonical
  sorted : Keyed.Sorted Keyed.positionBefore d.pending
  touched : ∀ position, d.pending.lookup position ≠ none → ∃ u, touches u position

/-- No position that the unit touches waits. -/
def Fresh (touches : υ → Nat × Nat → Prop) (d : Draft α) (u : υ) : Prop :=
  ∀ position, touches u position → d.pending.lookup position = none

variable {touches : υ → Nat × Nat → Prop} {d : Draft α}

/-- If nothing waits, a draft is settled as it is. -/
theorem settled_of_pending_eq_nil (solution : Solution α) (h : d.pending = []) :
    d.settled solution = d.toInstance solution := by
  unfold settled
  rw [flush_of_pending_eq_nil h]

omit [Scalar α] in
/-- When nothing waits, every unit is fresh. -/
theorem fresh_of_pending_eq_nil (h : d.pending = []) (u : υ) : d.Fresh touches u := fun _ _ => by
  rw [h]
  rfl

/-- A canonical draft in which nothing waits is sound. -/
theorem sound_of_pending_eq_nil (canonical : d.problem.Canonical) (h : d.pending = []) :
    d.Sound touches where
  problem := canonical
  sorted := h ▸ Keyed.sorted_nil
  touched position waits := absurd (by rw [h]; rfl) waits

/-- A draft that is sound stays so when it is flushed. -/
theorem Sound.flush (h : d.Sound touches) : d.flush.Sound touches :=
  sound_of_pending_eq_nil (h.problem.write d.pending) rfl

end Draft

/-- The reduction `r` of drafts does what the direct reduction `q` does to the instances that the
drafts stand for; each unit notes changes of the positions that it touches only. -/
structure Reduction.Buffers (r : Reduction α υ) (q : DirectReduction α υ)
    (touches : υ → Nat × Nat → Prop) : Prop where
  candidates : r.candidates = q.candidates
  nodup : ∀ {p : Problem α}, p.Canonical → ∀ s, (r.candidates p s).Nodup
  disjoint : ∀ {u v position}, touches u position → touches v position → u = v
  admissible : ∀ (solution : Solution α) (start : Problem α) {d : Draft α} {u : υ},
    d.Sound touches → d.Fresh touches u →
      r.admissible start d u = q.admissible start (d.settled solution) u
  apply : ∀ (solution : Solution α) {d : Draft α} {u : υ}, d.Sound touches → d.Fresh touches u →
    (r.apply u d).settled solution = q.apply u (d.settled solution)
  canonical : ∀ {d : Draft α} (u : υ), d.problem.Canonical → (r.apply u d).problem.Canonical
  sorted : ∀ {d : Draft α} (u : υ), Keyed.Sorted Keyed.positionBefore d.pending →
    Keyed.Sorted Keyed.positionBefore (r.apply u d).pending
  pending : ∀ {d : Draft α} {u : υ} {position : Nat × Nat},
    (r.apply u d).pending.lookup position ≠ none →
      d.pending.lookup position ≠ none ∨ touches u position

namespace Reduction.Buffers

variable {r : Reduction α υ} {q : DirectReduction α υ} {touches : υ → Nat × Nat → Prop}

/-- A reduction that buffers keeps a draft sound. -/
theorem sound (h : r.Buffers q touches) {d : Draft α} (u : υ) (sound : d.Sound touches) :
    (r.apply u d).Sound touches where
  problem := h.canonical u sound.problem
  sorted := h.sorted u sound.sorted
  touched position waits := by
    rcases h.pending waits with before | touched
    · exact sound.touched position before
    · exact ⟨u, touched⟩

/-- A unit leaves every other unit fresh. -/
theorem fresh (h : r.Buffers q touches) {d : Draft α} {u v : υ} (fresh : d.Fresh touches v)
    (ne : u ≠ v) : (r.apply u d).Fresh touches v := by
  intro position touched
  by_cases idle : (r.apply u d).pending.lookup position = none
  · exact idle
  · rcases h.pending idle with before | touched'
    · exact absurd (fresh position touched) before
    · exact absurd (h.disjoint touched' touched) ne

end Reduction.Buffers

namespace DirectReduction

/-- Go on from the middle of a batch, with `n` units applied, which have led to `x`. -/
def resume (q : DirectReduction α υ) (o : Oracle α ω) (params : Parameters) (input : Instance α)
    (size : Nat) (us : List υ) (n : Nat) (x : Instance α) (accepted : Option (Instance α))
    (session : Session α ω) : Option (Instance α) × Session α ω :=
  let batch := q.fill input.problem size us n x
  if batch.count = 0 then (accepted, session)
  else
    let r := session.ask o params batch.inst
    q.search o params input size batch.rest (if r.1 = .okay then accepted else some batch.inst) r.2

variable (q : DirectReduction α υ) (o : Oracle α ω) (params : Parameters) (input : Instance α)
  (size : Nat) (accepted : Option (Instance α)) (session : Session α ω)

/-- A search begins with an empty batch. -/
theorem search_eq_resume (us : List υ) :
    q.search o params input size us accepted session =
      q.resume o params input size us 0 (accepted.getD input) accepted session := by
  rw [search]
  rfl

/-- A search without elements finds nothing new. -/
theorem search_nil :
    q.search o params input size [] accepted session = (accepted, session) := by
  rw [search_eq_resume]
  rfl

/-- What is tried with the batch `x` and the units `us` after it. -/
def conclude (us : List υ) (x : Instance α) : Option (Instance α) × Session α ω :=
  let r := session.ask o params x
  q.search o params input size us (if r.1 = .okay then accepted else some x) r.2

variable {q input size}

/-- An element that fills the batch ends it. -/
theorem resume_full {u : υ} (us : List υ) {n : Nat} {x : Instance α}
    (admissible : q.admissible input.problem x u = true) (full : size ≤ n + 1) :
    q.resume o params input size (u :: us) n x accepted session =
      q.conclude o params input size accepted session us (q.apply u x) := by
  unfold resume
  rw [fill, if_pos admissible, if_pos full]
  rfl

/-- An element that is admissible and does not fill the batch joins it. -/
theorem resume_more {u : υ} (us : List υ) {n : Nat} {x : Instance α}
    (admissible : q.admissible input.problem x u = true) (more : ¬size ≤ n + 1) :
    q.resume o params input size (u :: us) n x accepted session =
      q.resume o params input size us (n + 1) (q.apply u x) accepted session := by
  unfold resume
  rw [fill, if_pos admissible, if_neg more]

/-- An element that is not admissible is passed over. -/
theorem resume_skip {u : υ} (us : List υ) {n : Nat} {x : Instance α}
    (passed : ¬q.admissible input.problem x u = true) :
    q.resume o params input size (u :: us) n x accepted session =
      q.resume o params input size us n x accepted session := by
  unfold resume
  rw [fill, if_neg passed]

end DirectReduction

namespace Pass

/-- Where a call stands next to the direct call: `n` units of the batch have led to `x`. -/
structure Follows (touches : υ → Nat × Nat → Prop) (c : Setup α ω) (input : Instance α)
    (n : Nat) (x : Instance α) (accepted : Option (Instance α)) (session : Session α ω)
    (p : Pass α ω) : Prop where
  sound : p.draft.Sound touches
  draft : p.draft.settled c.solution = x
  canonical : p.base.problem.Canonical
  settled : p.base.pending = []
  base : p.base.toInstance c.solution = accepted.getD input
  batch : p.batch = n
  success : p.success = accepted.isSome
  session : p.session = session

variable {touches : υ → Nat × Nat → Prop} {c : Setup α ω} {input : Instance α} {n : Nat}
  {x : Instance α} {accepted : Option (Instance α)} {session : Session α ω} {p : Pass α ω}

/-- A probe asks the same question as the direct call, and goes on from the same instance. -/
theorem Follows.probe (h : p.Follows touches c input n x accepted session) :
    let r := session.ask c.oracle c.params x
    let accepted' := if r.1 = .okay then accepted else some x
    (p.probe c).draft.pending = [] ∧
      (p.probe c).Follows touches c input 0 (accepted'.getD input) accepted' r.2 := by
  have asked : p.draft.flush.toInstance c.solution = x := h.draft
  dsimp only
  unfold Pass.probe
  dsimp only
  rw [asked, h.session]
  split
  · refine ⟨h.settled, ?_⟩
    constructor
    · exact Draft.sound_of_pending_eq_nil h.canonical h.settled
    · exact (Draft.settled_of_pending_eq_nil _ h.settled).trans h.base
    · exact h.canonical
    · exact h.settled
    · exact h.base
    · rfl
    · exact h.success
    · rfl
  · refine ⟨rfl, ?_⟩
    constructor
    · exact h.sound.flush
    · exact (Draft.settled_of_pending_eq_nil _ (Draft.pending_flush _)).trans asked
    · exact h.sound.flush.problem
    · rfl
    · exact asked
    · rfl
    · rfl
    · rfl

end Pass

namespace Reduction.Buffers

variable {r : Reduction α υ} {q : DirectReduction α υ} {touches : υ → Nat × Nat → Prop}
  {c : Pass.Setup α ω} {input : Instance α}

/-- A fresh unit changes the draft and the instance of the direct call in the same way. -/
theorem follows_apply (h : r.Buffers q touches) {n : Nat} {x : Instance α}
    {accepted : Option (Instance α)} {session : Session α ω} {p : Pass α ω}
    (follows : p.Follows touches c input n x accepted session) {u : υ}
    (fresh : p.draft.Fresh touches u) :
    ({ p with draft := r.apply u p.draft, batch := p.batch + 1 } : Pass α ω).Follows touches c
      input (n + 1) (q.apply u x) accepted session where
  sound := h.sound u follows.sound
  draft := follows.draft ▸ h.apply c.solution follows.sound fresh
  canonical := follows.canonical
  settled := follows.settled
  base := follows.base
  batch := congrArg (· + 1) follows.batch
  success := follows.success
  session := follows.session

/-- **Unit by unit, a call follows the direct call.**  The induction is on the units that are left;
in the middle of a batch these are fresh, and so they are tested and changed in the same way. -/
theorem follows (h : r.Buffers q touches) (start : c.start = input.problem) (size : Nat)
    {us : List υ} (nodup : us.Nodup) {n : Nat} {x : Instance α} {accepted : Option (Instance α)}
    {session : Session α ω} {p : Pass α ω} (fresh : ∀ u ∈ us, p.draft.Fresh touches u)
    (follows : p.Follows touches c input n x accepted session) :
    let result := q.resume c.oracle c.params input size us n x accepted session
    let p' := (us.foldl (Pass.step r c size) p).finish c
    p'.base.toInstance c.solution = result.1.getD input ∧
      p'.success = result.1.isSome ∧ p'.session = result.2 := by
  induction us generalizing n x accepted session p with
  | nil =>
    dsimp only [List.foldl_nil]
    unfold Pass.finish DirectReduction.resume
    rw [DirectReduction.fill, follows.batch]
    dsimp only
    -- What is left in the batch at the end is tried as well.
    by_cases empty : n = 0
    · rw [if_neg (by omega), if_pos empty]
      exact ⟨follows.base, follows.success, follows.session⟩
    · obtain ⟨-, probed⟩ := follows.probe
      rw [if_pos (by omega), if_neg empty, DirectReduction.search_nil]
      exact ⟨probed.base, probed.success, probed.session⟩
  | cons u us ih =>
    obtain ⟨once, nodup⟩ := List.nodup_cons.1 nodup
    have first : p.draft.Fresh touches u := fresh u (List.mem_cons_self ..)
    have rest : ∀ v ∈ us, p.draft.Fresh touches v := fun v mem =>
      fresh v (List.mem_cons_of_mem _ mem)
    have same : r.admissible c.start p.draft u = q.admissible input.problem x u := by
      rw [h.admissible c.solution _ follows.sound first, follows.draft, start]
    rw [List.foldl_cons]
    unfold Pass.step
    rw [same]
    by_cases admissible : q.admissible input.problem x u = true
    · rw [if_pos admissible]
      have applied := h.follows_apply follows first
      dsimp only
      rw [follows.batch]
      by_cases full : size ≤ n + 1
      · obtain ⟨idle, probed⟩ := applied.probe
        rw [if_pos full, DirectReduction.resume_full _ _ _ _ us admissible full]
        unfold DirectReduction.conclude
        dsimp only
        rw [DirectReduction.search_eq_resume]
        rw [follows.batch] at idle probed
        -- Nothing waits after the probe, so all units are fresh again.
        exact ih nodup (fun v _ => Draft.fresh_of_pending_eq_nil idle v) probed
      · rw [if_neg full, DirectReduction.resume_more _ _ _ _ us admissible full]
        rw [follows.batch] at applied
        -- The units that are left touch other positions than this one.
        refine ih nodup (fun v mem => ?_) applied
        exact h.fresh (rest v mem) fun eq => once (eq ▸ mem)
    · rw [if_neg admissible, DirectReduction.resume_skip _ _ _ _ us admissible]
      exact ih nodup rest follows

/-- **A call does what the direct call does.** -/
theorem execute_eq (h : r.Buffers q touches) (o : Oracle α ω) (params : Parameters)
    (batches : Nat) {i : Instance α} (canonical : i.problem.Canonical) (memory : ModuleState)
    (session : Session α ω) :
    (r.execute o params batches i memory session).outcome =
      q.execute o params batches i session := by
  have idle : (Draft.ofInstance i).pending = [] := rfl
  have stands : (Draft.ofInstance i).settled i.solution = i :=
    Draft.settled_of_pending_eq_nil _ idle
  -- Nothing waits at the beginning, so both calls test the same instance and find the same units.
  have units : r.eligible (Draft.ofInstance i) =
      (q.candidates i.problem i.settings).filter (q.admissible i.problem i) := by
    unfold Reduction.eligible
    rw [← h.candidates]
    refine List.filter_congr fun u _ => ?_
    rw [h.admissible i.solution _ (Draft.sound_of_pending_eq_nil canonical idle)
      (Draft.fresh_of_pending_eq_nil idle u), stands]
    rfl
  have start : (⟨Draft.ofInstance i, Draft.ofInstance i, 0, false, memory, session⟩ :
      Pass α ω).Follows touches ⟨o, params, i.solution, i.problem⟩ i 0 i none session := by
    constructor
    · exact Draft.sound_of_pending_eq_nil canonical idle
    · exact stands
    · exact canonical
    all_goals rfl
  have nodup : (r.eligible (Draft.ofInstance i)).Nodup :=
    (h.nodup canonical i.settings).filter _
  have same := h.follows rfl (batchSize (r.eligible (Draft.ofInstance i)).length batches) nodup
    (fun u _ => Draft.fresh_of_pending_eq_nil idle u) start
  change (r.pass o params batches i memory session).base.toInstance i.solution = _ ∧
    (r.pass o params batches i memory session).success = _ ∧
      (r.pass o params batches i memory session).session = _ at same
  obtain ⟨base, success, asked⟩ := same
  unfold Reduction.execute DirectReduction.execute
  rw [units] at base success asked ⊢
  dsimp only
  rw [DirectReduction.search_eq_resume, Option.getD_none]
  split
  · rfl
  · generalize q.resume o params i _ _ 0 i none session = result at base success asked ⊢
    obtain ⟨accepted, session'⟩ := result
    rw [success]
    cases accepted with
    | none => exact congrArg (Outcome.mk CallStatus.unsuccessful i) asked
    | some x =>
      show Outcome.mk CallStatus.successful _ _ = _
      rw [base, asked]
      rfl

end Reduction.Buffers
end MipShrink
