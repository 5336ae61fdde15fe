/-
# Calls with strict look-ups

A strict call goes through the elements as a call does, with the coefficients of the draft and of
its last accepted state as they are stored.  Besides the look-ups of its reduction it can fault when
the size of a batch is found and when the draft is flushed.

On a program that is backed it does what the call does and leaves a backed program behind
(`StrictReduction.call_eq_ok`): the draft fits from the first element to the last
(`StrictPass.Fits`), whatever the oracle answers.
-/

import MipShrink.Proofs.Strict.Serving

namespace MipShrink

variable {α ω υ : Type} [Scalar α]

namespace Strict

/-- The number of elements in a batch when `k` elements are cut in `n` batches. -/
def batchSize (k n : Nat) : Except Fault Nat :=
  if n = 0 then return max k 1 else return max (← divCeil k n) 1

/-- The size of a batch is found without fault. -/
theorem batchSize_eq_ok (k n : Nat) : batchSize k n = .ok (MipShrink.batchSize k n) := by
  unfold batchSize MipShrink.batchSize
  split
  · rfl
  · rename_i nonzero
    unfold divCeil
    rw [if_neg nonzero]
    rfl

end Strict

/-- Where a strict call stands. -/
structure StrictPass (α ω : Type) where
  pass : Pass α ω
  /-- The coefficients of the draft as they are stored, without those that wait. -/
  draft : Storage α
  /-- The coefficients of the last accepted state as they are stored. -/
  base : Storage α

namespace StrictPass

/-- Flush the draft and ask the oracle about it, and accept the batch or go back. -/
def probe (v : Conversion α) (c : Pass.Setup α ω) (p : StrictPass α ω) :
    Except Fault (StrictPass α ω) := do
  let stored ← p.draft.rewrite v p.pass.draft.pending
  let asked := p.pass.session.ask c.oracle c.params (p.pass.draft.flush.toInstance c.solution)
  let kept := if asked.1 = .okay then p.base else stored
  return { pass := p.pass.probe c, draft := kept, base := kept }

/-- Apply the reduction to one element, and probe if the batch is full. -/
def step (v : Conversion α) (q : StrictReduction α υ) (marks : List Bool) (c : Pass.Setup α ω)
    (size : Nat) (p : StrictPass α ω) (u : υ) : Except Fault (StrictPass α ω) := do
  if ← q.admissible marks p.draft p.pass.draft u then
    let d ← q.apply p.draft u p.pass.draft
    let p := { p with pass := { p.pass with draft := d, batch := p.pass.batch + 1 } }
    if size ≤ p.pass.batch then p.probe v c else return p
  else return p

/-- Probe a batch that has been begun. -/
def finish (v : Conversion α) (c : Pass.Setup α ω) (p : StrictPass α ω) :
    Except Fault (StrictPass α ω) :=
  if 0 < p.pass.batch then p.probe v c else return p

/-- The draft and its last accepted state fit the program of the call. -/
structure Fits (start : Problem α) (p : StrictPass α ω) : Prop where
  draft : p.pass.draft.Fits start p.draft
  base : p.pass.base.Fits start p.base

variable {v : Conversion α} {q : StrictReduction α υ} {r : Reduction α υ} {start : Problem α}
  {units : List υ} {marks : List Bool} {c : Pass.Setup α ω} {p : StrictPass α ω}

/-- A strict probe does what the probe does, and the pass still fits. -/
theorem probe_eq_ok (lawful : v.Lawful) (h : p.Fits start) :
    ∃ p', p.probe v c = .ok p' ∧ p'.pass = p.pass.probe c ∧ p'.Fits start := by
  obtain ⟨stored, rewritten, flushed⟩ := h.draft.flush lawful
  refine ⟨_, by unfold probe; rw [rewritten]; rfl, rfl, ?_⟩
  unfold Pass.probe
  dsimp only
  split
  · exact ⟨h.base, h.base⟩
  · exact ⟨flushed, flushed⟩

/-- A strict pass ends as the pass does. -/
theorem finish_eq_ok (lawful : v.Lawful) (h : p.Fits start) :
    ∃ p', p.finish v c = .ok p' ∧ p'.pass = p.pass.finish c ∧ p'.Fits start := by
  unfold finish Pass.finish
  split
  · exact probe_eq_ok lawful h
  · exact ⟨p, rfl, rfl, h⟩

/-- **One element is tried without fault.** -/
theorem step_eq_ok (lawful : v.Lawful) (serves : q.Serves r start units marks)
    (begun : c.start = start) (size : Nat) {u : υ} (mem : u ∈ units) (h : p.Fits start) :
    ∃ p', p.step v q marks c size u = .ok p' ∧ p'.pass = p.pass.step r c size u ∧
      p'.Fits start := by
  unfold step Pass.step
  rw [serves.admissible u mem _ _ h.draft, Strict.ok_bind, begun]
  split
  · rw [serves.apply u mem _ _ h.draft, Strict.ok_bind]
    have applied : StrictPass.Fits start
        { p with pass := { p.pass with draft := r.apply u p.pass.draft
                                       batch := p.pass.batch + 1 } } :=
      ⟨serves.fits u mem _ _ h.draft, h.base⟩
    dsimp only
    split
    · exact probe_eq_ok lawful applied
    · exact ⟨_, rfl, rfl, applied⟩
  · exact ⟨p, rfl, rfl, h⟩

end StrictPass

namespace StrictReduction

/-- A call on an instance whose coefficients are stored in `m`, and how they are stored after
it. -/
def execute (q : StrictReduction α υ) (v : Conversion α) (o : Oracle α ω) (params : Parameters)
    (batches : Nat) (m : Storage α) (i : Instance α) (memory : ModuleState)
    (session : Session α ω) : Except Fault (CallResult α ω × Storage α) := do
  let d := Draft.ofInstance i
  let (marks, candidates) ← q.prepare m i.problem i.settings
  let units ← candidates.filterM (q.admissible marks m d)
  if units.isEmpty then
    return ({ status := .notAdmissible, inst := i, memory := memory, session := session }, m)
  let size ← Strict.batchSize units.length batches
  let c : Pass.Setup α ω :=
    { oracle := o, params := params, solution := i.solution, start := i.problem }
  let p : Pass α ω :=
    { draft := d, base := d, batch := 0, success := false, memory := memory, session := session }
  let p ← units.foldlM (StrictPass.step v q marks c size) { pass := p, draft := m, base := m }
  let p ← p.finish v c
  if p.pass.success then
    return ({ status := .successful, inst := p.pass.base.toInstance i.solution
              memory := p.pass.memory, session := p.pass.session }, p.base)
  else
    return ({ status := .unsuccessful, inst := i, memory := p.pass.memory
              session := p.pass.session }, m)

/-- A call as a module of the given name. -/
def call (q : StrictReduction α υ) (v : Conversion α) (name : String) (o : Oracle α ω)
    (params : Parameters) (batches : Nat) (m : Storage α) (i : Instance α) (memory : ModuleState)
    (session : Session α ω) : Except Fault (CallResult α ω × Storage α) := do
  if params.isEnabled name then
    let began := o.clock session.state
    let counted := { memory.stats with calls := memory.stats.calls + 1 }
    let (res, m) ← q.execute v o params batches m i { memory with stats := counted } session
    let stats := res.memory.stats
    let stats :=
      { stats with
        successes := if res.status = .successful then stats.successes + 1 else stats.successes
        time := stats.time + (o.clock res.session.state - began) }
    return ({ res with memory := { res.memory with stats := stats } }, m)
  else return ({ status := .didNotRun, inst := i, memory := memory, session := session }, m)

variable {v : Conversion α} {q : StrictReduction α υ} {r : Reduction α υ} {m : Storage α}
  {i : Instance α}

/-- **A call on a backed program does not fault**, and leaves a backed program behind. -/
theorem execute_eq_ok (lawful : v.Lawful) (follows : q.Follows r) (backed : m.Backs i.problem)
    (o : Oracle α ω) (params : Parameters) (batches : Nat) (memory : ModuleState)
    (session : Session α ω) :
    ∃ m', q.execute v o params batches m i memory session =
        .ok (r.execute o params batches i memory session, m') ∧
      m'.Backs (r.execute o params batches i memory session).inst.problem := by
  obtain ⟨marks, prepared, serves⟩ := follows m i.problem i.settings backed
  have fits : (Draft.ofInstance i).Fits i.problem m := Draft.fits_ofInstance backed
  have units : (r.candidates i.problem i.settings).filterM
      (q.admissible marks m (Draft.ofInstance i)) = .ok (r.eligible (Draft.ofInstance i)) :=
    Strict.filterM_eq_ok fun u mem => serves.admissible u mem m _ fits
  let c : Pass.Setup α ω :=
    { oracle := o, params := params, solution := i.solution, start := i.problem }
  let p : Pass α ω :=
    { draft := Draft.ofInstance i, base := Draft.ofInstance i, batch := 0, success := false
      memory := memory, session := session }
  let size := batchSize (r.eligible (Draft.ofInstance i)).length batches
  -- The strict pass is the plain one with a storage behind each of its two drafts.
  obtain ⟨p₁, passed, same₁, fits₁⟩ := Strict.follows_foldlM
    (R := fun (s : StrictPass α ω) (t : Pass α ω) => s.pass = t ∧ s.Fits i.problem)
    (l := r.eligible (Draft.ofInstance i)) (f := StrictPass.step v q marks c size)
    (g := Pass.step r c size) (s := ⟨p, m, m⟩) (t := p)
    (fun u mem s t ⟨same, fits⟩ => by
      rw [← same]
      exact StrictPass.step_eq_ok lawful serves rfl size (List.mem_filter.1 mem).1 fits)
    ⟨rfl, fits, fits⟩
  obtain ⟨p₂, finished, same₂, fits₂⟩ := StrictPass.finish_eq_ok (c := c) lawful fits₁
  have whole : p₂.pass = r.pass o params batches i memory session := by
    rw [same₂, same₁]
    rfl
  unfold execute Reduction.execute
  dsimp only
  rw [prepared, Strict.ok_bind]
  dsimp only
  rw [units, Strict.ok_bind]
  split
  · exact ⟨m, rfl, backed⟩
  · rw [Strict.batchSize_eq_ok, Strict.ok_bind, passed, Strict.ok_bind, finished, Strict.ok_bind,
      whole]
    split
    · exact ⟨p₂.base, rfl, by rw [← whole]; exact fits₂.base.backed⟩
    · exact ⟨m, rfl, backed⟩

/-- A strict call does what the call does, and its program is backed again. -/
theorem call_eq_ok (lawful : v.Lawful) (follows : q.Follows r) (backed : m.Backs i.problem)
    (name : String) (o : Oracle α ω) (params : Parameters) (batches : Nat) (memory : ModuleState)
    (session : Session α ω) :
    ∃ m', q.call v name o params batches m i memory session =
        .ok (r.call name o params batches i memory session, m') ∧
      m'.Backs (r.call name o params batches i memory session).inst.problem := by
  unfold call Reduction.call
  split
  · obtain ⟨m', executed, kept⟩ := execute_eq_ok lawful follows backed o params batches
      { memory with stats := { memory.stats with calls := memory.stats.calls + 1 } } session
    dsimp only
    rw [executed]
    exact ⟨m', rfl, kept⟩
  · exact ⟨m, rfl, backed⟩

end StrictReduction
end MipShrink
