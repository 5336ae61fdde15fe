/-
# Local minimality

When the verdict of the oracle depends on the instance alone, so does whether a call is successful
(`Reduction.status_call_congr`): what a module remembers and what has been asked before play no
part.  A call that has failed therefore fails as long as instance and number of batches stay, and a
run that has finished its last stage ends with an instance on which every module fails
(`Run.locally_minimal`).

A failed call whose batches are single elements has tried each of them alone, because every
rejection brings back the instance of the call (`Reduction.verdict_apply_of_failed`).
-/

import MipShrink.Proofs.Problem.Canonical
import MipShrink.Proofs.Run.Commitment
import MipShrink.Proofs.Run.LastStage

namespace MipShrink

variable {α ω υ : Type}

/-- The verdict depends on the instance alone. -/
def Oracle.Judges (o : Oracle α ω) (passCodes : List Int) (verdict : Instance α → Verdict) : Prop :=
  ∀ i w, Verdict.classify passCodes (o.ask i w).1.retcode = verdict i

variable [Scalar α]

namespace Pass

/-- The two differ at most in what the module remembers and in the session. -/
structure Alike (p p' : Pass α ω) : Prop where
  draft : p.draft = p'.draft
  base : p.base = p'.base
  batch : p.batch = p'.batch
  success : p.success = p'.success

variable {c : Setup α ω} {verdict : Instance α → Verdict} {p p' : Pass α ω}

/-- Passes that are alike stay so when they probe. -/
theorem Alike.probe (judges : c.oracle.Judges c.params.passCodes verdict) (h : p.Alike p') :
    (p.probe c).Alike (p'.probe c) := by
  have answer (session : Session α ω) (x : Instance α) :
      (session.ask c.oracle c.params x).1 = verdict x := judges x session.state
  unfold Pass.probe
  dsimp only
  rw [answer, answer, h.draft]
  split
  · exact ⟨h.base, h.base, rfl, h.success⟩
  · exact ⟨rfl, rfl, rfl, rfl⟩

/-- Passes that are alike stay so with each step. -/
theorem Alike.step (judges : c.oracle.Judges c.params.passCodes verdict) (h : p.Alike p')
    (r : Reduction α υ) (size : Nat) (u : υ) : (p.step r c size u).Alike (p'.step r c size u) := by
  unfold Pass.step
  dsimp only
  rw [h.draft, h.batch]
  split
  · split
    · exact Alike.probe judges ⟨rfl, h.base, rfl, h.success⟩
    · exact ⟨rfl, h.base, rfl, h.success⟩
  · exact h

/-- Passes that are alike stay so with all steps. -/
theorem Alike.foldl (judges : c.oracle.Judges c.params.passCodes verdict) (h : p.Alike p')
    (r : Reduction α υ) (size : Nat) (us : List υ) :
    (us.foldl (Pass.step r c size) p).Alike (us.foldl (Pass.step r c size) p') := by
  induction us generalizing p p' with
  | nil => exact h
  | cons u us ih => exact ih (h.step judges r size u)

/-- Passes that are alike stay so to the end. -/
theorem Alike.finish (judges : c.oracle.Judges c.params.passCodes verdict) (h : p.Alike p') :
    (p.finish c).Alike (p'.finish c) := by
  unfold Pass.finish
  rw [h.batch]
  split
  · exact h.probe judges
  · exact h

end Pass

namespace Reduction

variable (r : Reduction α υ) {o : Oracle α ω} {params : Parameters}
  {verdict : Instance α → Verdict}

/-- What a call tries and accepts depends on the instance and the number of batches alone. -/
theorem alike_pass (judges : o.Judges params.passCodes verdict) (batches : Nat) (i : Instance α)
    (memory memory' : ModuleState) (session session' : Session α ω) :
    (r.pass o params batches i memory session).Alike
      (r.pass o params batches i memory' session') := by
  unfold pass
  refine Pass.Alike.finish judges (Pass.Alike.foldl judges ?_ r _ _)
  exact ⟨rfl, rfl, rfl, rfl⟩

/-- **Success depends on the instance and the number of batches alone.** -/
theorem status_execute_congr (judges : o.Judges params.passCodes verdict) (batches : Nat)
    (i : Instance α) (memory memory' : ModuleState) (session session' : Session α ω) :
    (r.execute o params batches i memory session).status =
      (r.execute o params batches i memory' session').status := by
  have alike := r.alike_pass judges batches i memory memory' session session'
  unfold execute
  split
  · rfl
  · dsimp only
    rw [alike.success]
    split <;> rfl

/-- The status of a call depends on the instance and the number of batches only. -/
theorem status_call_congr (judges : o.Judges params.passCodes verdict) (name : String)
    (batches : Nat) (i : Instance α) (memory memory' : ModuleState)
    (session session' : Session α ω) :
    (r.call name o params batches i memory session).status =
      (r.call name o params batches i memory' session').status := by
  unfold call
  split
  · exact r.status_execute_congr judges batches i _ _ session session'
  · rfl

end Reduction

/-! ### Batches of single elements -/

/-- As many batches as there are elements hold one element each. -/
theorem batchSize_eq_one {k n : Nat} (pos : 0 < k) (le : k ≤ n) : batchSize k n = 1 := by
  have lt : (k + n - 1) / n < 2 := (Nat.div_lt_iff_lt_mul (by omega)).2 (by omega)
  unfold batchSize
  rw [if_neg (by omega)]
  omega

namespace Pass

variable {c : Setup α ω} {p : Pass α ω}

/-- A success is not lost by a probe. -/
theorem success_probe (success : p.success = true) : (p.probe c).success = true := by
  unfold Pass.probe
  dsimp only
  split
  · exact success
  · rfl

/-- A success is not lost by further steps. -/
theorem success_foldl (r : Reduction α υ) (size : Nat) (us : List υ)
    (success : p.success = true) : (us.foldl (Pass.step r c size) p).success = true := by
  induction us generalizing p with
  | nil => exact success
  | cons u us ih =>
    refine ih ?_
    unfold Pass.step
    split
    · dsimp only
      split
      · exact success_probe success
      · exact success
    · exact success

/-- A probe brings the base back, or is a success. -/
theorem probe_cases {verdict : Instance α → Verdict}
    (judges : c.oracle.Judges c.params.passCodes verdict) :
    verdict (p.draft.flush.toInstance c.solution) = .okay ∧ (p.probe c).draft = p.base ∧
        (p.probe c).base = p.base ∧ (p.probe c).batch = 0 ∨
      (p.probe c).success = true := by
  have answer := judges (p.draft.flush.toInstance c.solution) p.session.state
  unfold Pass.probe
  dsimp only
  split
  · rename_i okay
    exact .inl ⟨answer.symm.trans okay, rfl, rfl, rfl⟩
  · exact .inr rfl

/-- Elements tried one by one, all of them from the same draft because each is rejected. -/
theorem verdict_of_foldl {r : Reduction α υ} {verdict : Instance α → Verdict}
    (judges : c.oracle.Judges c.params.passCodes verdict) {us : List υ}
    (admissible : ∀ u ∈ us, r.admissible c.start p.draft u = true) (back : p.base = p.draft)
    (empty : p.batch = 0) (failed : (us.foldl (Pass.step r c 1) p).success = false) :
    ∀ u ∈ us, verdict ((r.apply u p.draft).flush.toInstance c.solution) = .okay := by
  induction us generalizing p with
  | nil => exact fun u mem => absurd mem List.not_mem_nil
  | cons u us ih =>
    have step : p.step r c 1 u =
        Pass.probe c { p with draft := r.apply u p.draft, batch := p.batch + 1 } := by
      unfold Pass.step
      rw [if_pos (admissible u (List.mem_cons_self ..))]
      exact if_pos (Nat.le_add_left ..)
    rw [List.foldl_cons, step] at failed
    rcases probe_cases (p := { p with draft := r.apply u p.draft, batch := p.batch + 1 })
        judges with
      ⟨okay, draft, base, batch⟩ | success
    · have same : (Pass.probe c
          { p with draft := r.apply u p.draft, batch := p.batch + 1 }).draft = p.draft :=
        draft.trans back
      have later := ih (by
        rw [same]
        exact fun v mem => admissible v (List.mem_cons_of_mem _ mem)) (base.trans draft.symm) batch
        failed
      rw [same] at later
      intro v mem
      rcases List.mem_cons.1 mem with rfl | mem
      · exact okay
      · exact later v mem
    · rw [success_foldl r 1 us success] at failed
      exact absurd failed Bool.noConfusion

end Pass

namespace Reduction

/-- **A failed call with batches of single elements has tried each of them alone.** -/
theorem verdict_apply_of_failed (r : Reduction α υ) {o : Oracle α ω} {params : Parameters}
    {verdict : Instance α → Verdict} (judges : o.Judges params.passCodes verdict) {batches : Nat}
    {i : Instance α} {memory : ModuleState} {session : Session α ω}
    (failed : (r.execute o params batches i memory session).status ≠ .successful)
    (some : r.eligible (Draft.ofInstance i) ≠ [])
    (enough : (r.eligible (Draft.ofInstance i)).length ≤ batches) :
    ∀ u ∈ r.eligible (Draft.ofInstance i),
      verdict ((r.apply u (Draft.ofInstance i)).flush.toInstance i.solution) = .okay := by
  let d := Draft.ofInstance i
  let c : Pass.Setup α ω :=
    { oracle := o, params := params, solution := i.solution, start := i.problem }
  let p : Pass α ω :=
    { draft := d, base := d, batch := 0, success := false, memory := memory, session := session }
  have one : batchSize (r.eligible d).length batches = 1 :=
    batchSize_eq_one (List.length_pos_iff.2 some) enough
  have unsuccessful : (r.pass o params batches i memory session).success = false := by
    unfold execute at failed
    rw [if_neg (by rwa [List.isEmpty_iff])] at failed
    dsimp only at failed
    split at failed
    · exact absurd rfl failed
    · rename_i success
      exact Bool.eq_false_iff.2 success
  have foldFailed : ((r.eligible d).foldl (Pass.step r c 1) p).success = false := by
    rw [← one]
    by_cases success :
        ((r.eligible d).foldl (Pass.step r c (batchSize (r.eligible d).length batches)) p).success
    · have finished := Pass.success_finish c _ success
      exact absurd (finished.symm.trans unsuccessful) Bool.noConfusion
    · exact Bool.eq_false_iff.2 success
  exact Pass.verdict_of_foldl (c := c) (p := p) judges
    (fun u mem => (List.mem_filter.1 mem).2) rfl rfl foldFailed

end Reduction

/-! ### Runs -/

namespace ModuleKind

/-- The module fails on the instance, whatever it remembers and whatever has been asked before. -/
def Refuses (k : ModuleKind) (target : Option Settings) (o : Oracle α ω) (params : Parameters)
    (batches : Nat) (i : Instance α) : Prop :=
  ∀ memory session, (k.call target o params batches i memory session).status ≠ .successful

/-- A module that has failed refuses the instance, whatever it remembers. -/
theorem refuses_of_failed {k : ModuleKind} {target : Option Settings} {o : Oracle α ω}
    {params : Parameters} {verdict : Instance α → Verdict}
    (judges : o.Judges params.passCodes verdict) {batches : Nat} {i : Instance α}
    {memory : ModuleState} {session : Session α ω}
    (failed : (k.call target o params batches i memory session).status ≠ .successful) :
    k.Refuses target o params batches i := by
  intro memory' session'
  unfold ModuleKind.call at failed ⊢
  rwa [Reduction.status_call_congr _ judges k.name batches i memory' memory session' session]

end ModuleKind

namespace World

variable {o : Oracle α ω} {params : Parameters} {target : Option Settings}

/-- The module with the given number fails on the instance as it is.  The state has to have a
memory for each module. -/
def Fails (o : Oracle α ω) (params : Parameters) (target : Option Settings) (j batches : Nat)
    (w : World α ω) : Prop :=
  w.memories.length = ModuleKind.all.length →
    ∀ k, ModuleKind.all[j]? = some k → k.Refuses target o params batches w.inst

/-- A call keeps the number of modules that remember. -/
theorem length_memories_call (o : Oracle α ω) (params : Parameters) (target : Option Settings)
    (k batches : Nat) (w : World α ω) :
    (w.call o params target k batches).2.memories.length = w.memories.length := by
  unfold World.call
  split
  · exact List.length_set
  · rfl

/-- The machine of the modules records their failures. -/
theorem records_machine {verdict : Instance α → Verdict}
    (judges : o.Judges params.passCodes verdict) (began : Nat) :
    (machine o params target began).Records (Fails o params target) where
  call k b w failed := by
    intro complete kind found
    change (w.call o params target k b).1.1 ≠ .successful at failed
    change (w.call o params target k b).2.memories.length = _ at complete
    rw [length_memories_call] at complete
    change kind.Refuses target o params b (w.call o params target k b).2.inst
    rw [inst_call_of_failed failed]
    have bound : k < w.memories.length := by
      rw [complete]
      exact (List.getElem?_eq_some_iff.1 found).1
    unfold World.call at failed
    rw [found, List.getElem?_eq_getElem bound] at failed
    exact ModuleKind.refuses_of_failed judges failed
  keep j k b w failed fails := by
    intro complete kind found
    change (w.call o params target k b).1.1 ≠ .successful at failed
    change (w.call o params target k b).2.memories.length = _ at complete
    rw [length_memories_call] at complete
    change kind.Refuses target o params b (w.call o params target k b).2.inst
    rw [inst_call_of_failed failed]
    exact fails complete kind found
  save j b s w fails := by
    intro complete kind found
    change (w.save params s).memories.length = _ at complete
    rw [memories_save] at complete
    change kind.Refuses target o params b (w.save params s).inst
    rw [(save_inst params s w).1]
    exact fails complete kind found

end World

namespace Run

/-- **Local minimality.**  A run with at least one round that has finished its last stage ends with
an instance on which every module it has used fails.  If such a module is switched on and has
some eligible elements, but no more than batches, then changing any single one of them makes the
defect disappear. -/
theorem locally_minimal (o : Oracle α ω) (params : Parameters) (target : Option Settings)
    (i : Instance α) (session : Session α ω) {verdict : Instance α → Verdict}
    (judges : o.Judges params.passCodes verdict)
    (rounds : (reduce o params target (RunState.start params) i session).1.rounds ≠ [])
    (last : (reduce o params target (RunState.start params) i session).1.state.stage =
      min params.maxStages ModuleKind.all.length) :
    let r := reduce o params target (RunState.start params) i session
    ∀ j < min params.maxStages ModuleKind.all.length, ∃ k : ModuleKind,
      ModuleKind.all[j]? = some k ∧
      (∀ memory session,
        (k.call target o params r.1.state.batches r.2.inst memory session).status ≠ .successful) ∧
      let reduction := (k.reduction target (Scope.ofRun params r.2.inst)).reduction
      let units := reduction.eligible (Draft.ofInstance r.2.inst)
      params.isEnabled k.name = true → 0 < units.length → units.length ≤ r.1.state.batches →
        ∀ u ∈ units, verdict ((reduction.apply u (Draft.ofInstance r.2.inst)).flush.toInstance
          r.2.inst.solution) = .okay := by
  intro r j lt
  let m := World.machine o params target (o.clock session.state)
  have complete : r.2.memories.length = ModuleKind.all.length := by
    refine Machine.run_keeps (m := m)
      (P := fun w : World α ω => w.memories.length = ModuleKind.all.length)
      (fun k b w h => ?_) (fun s w h => ?_) ?_
    · exact (World.length_memories_call o params target k b w).trans h
    · exact (congrArg List.length (World.memories_save params s w)).trans h
    · unfold Machine.opening
      split <;> rfl
  have fails :=
    Machine.fails_of_lastStage (World.records_machine judges _) rounds last j lt complete
  have bound : j < ModuleKind.all.length := by omega
  have found : ModuleKind.all[j]? = some ModuleKind.all[j] := List.getElem?_eq_getElem bound
  refine ⟨ModuleKind.all[j], found, fails _ found, ?_⟩
  intro reduction units enabled some enough
  have failed := fails _ found ModuleState.start session
  unfold ModuleKind.call Reduction.call at failed
  rw [if_pos enabled] at failed
  exact reduction.verdict_apply_of_failed judges failed (List.length_pos_iff.1 some) enough

/-- Four batches for each call. -/
def fourBatches : Parameters := { Parameters.standard with batches := 4 }

/-- The defect shows as long as the first row counts. -/
def showsFirstRow (i : Instance Rat) : Answer :=
  let kept := i.problem.rowHas 0 fun r => !r.isRedundant
  { retcode := ⟨if kept then 1 else 0⟩, status := .unknown, effort := 1 }

/-- A run over the program `blend`. -/
def blendRun : Summary × World Rat Unit :=
  reduce (Oracle.ofFunction showsFirstRow) fourBatches none (RunState.start fourBatches)
    { settings := {}, problem := .blend, solution := .unknown } (.start () .empty)

/-- Everything but the first row goes.  The last stage is over after six rounds, and what is left
to try is to drop this row. -/
theorem locally_minimal_blend :
    let i := blendRun.2.inst
    let constraint := Reduction.constraint (Scope.ofRun fourBatches i)
    blendRun.1.rounds.length = 6 ∧
      (∀ memory session, (ModuleKind.constraint.call none (Oracle.ofFunction showsFirstRow)
        fourBatches blendRun.1.state.batches i memory session).status ≠ .successful) ∧
      constraint.eligible (Draft.ofInstance i) = [0] ∧
      Verdict.classify [] (showsFirstRow
        ((constraint.apply 0 (Draft.ofInstance i)).flush.toInstance i.solution)).retcode =
          .okay := by
  have judges : (Oracle.ofFunction showsFirstRow).Judges fourBatches.passCodes
      fun i => Verdict.classify [] (showsFirstRow i).retcode := fun _ _ => rfl
  have minimal := locally_minimal (Oracle.ofFunction showsFirstRow) fourBatches none
    { settings := {}, problem := .blend, solution := .unknown } (.start () .empty) judges
    (by decide +kernel) (by decide +kernel) 0 (by decide +kernel)
  obtain ⟨k, found, fails, single⟩ := minimal
  obtain rfl : ModuleKind.constraint = k := Option.some.inj found
  have eligible : (Reduction.constraint (Scope.ofRun fourBatches blendRun.2.inst)).eligible
      (Draft.ofInstance blendRun.2.inst) = [0] := by decide +kernel
  have mem : 0 ∈ (Reduction.constraint (Scope.ofRun fourBatches blendRun.2.inst)).eligible
      (Draft.ofInstance blendRun.2.inst) := by
    rw [eligible]
    exact List.mem_singleton_self 0
  have enabled : fourBatches.isEnabled ModuleKind.constraint.name = true := by decide +kernel
  have enough : [0].length ≤ blendRun.1.state.batches := by decide +kernel
  refine ⟨by decide +kernel, fails, eligible, ?_⟩
  refine single enabled ?_ ?_ (0 : Nat) ?_
  · exact Nat.lt_of_lt_of_eq Nat.zero_lt_one (congrArg List.length eligible).symm
  · exact Nat.le_trans (Nat.le_of_eq (congrArg List.length eligible)) enough
  · exact mem

end Run
end MipShrink
