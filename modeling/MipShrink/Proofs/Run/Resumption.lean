/-
# Resuming a run

All that the rest of a run depends on is its state and its instance.  What the modules remember is
counted, but decides nothing: the effort of a module is read only after a success, and then it is
that of the instance just accepted (`Reduction.effort_pass`).  So from the same instance two calls
with the same number of batches look the same to the loop (`ModuleKind.call_congr`), if verdict and
effort depend on the instance alone.

A run that is cut after some round, and taken up from its state and its instance by a new run, ends
where the run without the cut ends, with the same records on the way (`Run.reduce_resumed`).
-/

import MipShrink.Proofs.Run.LocalMinimality

namespace MipShrink

namespace RunState

/-- The effort counts only after a success. -/
theorem afterCall_congr {expenditure effort effort' : Int} {k : Nat} {status : CallStatus}
    (same : status = .successful → effort = effort') (s : RunState) :
    s.afterCall expenditure k status effort = s.afterCall expenditure k status effort' := by
  unfold afterCall
  split
  · rename_i successful
    rw [same successful]
  · rfl

/-- A call does not count as a round. -/
theorem round_afterCall (expenditure : Int) (k : Nat) (status : CallStatus) (effort : Int)
    (s : RunState) : (s.afterCall expenditure k status effort).round = s.round := by
  rcases s.afterCall_cases expenditure k status effort with
    ⟨-, next⟩ | ⟨-, -, next⟩ | ⟨-, -, next⟩
  all_goals rw [next]

end RunState

namespace Machine

/-! ### Cutting the rounds -/

section Cut

variable {σ : Type} (m : Machine σ) {l : Limits}

/-- When the stages are over, there are no rounds any more. -/
theorem rounds_of_ended {s : RunState} (ended : ¬s.stage < l.maxStages) (left : Nat) (w : σ) :
    m.rounds l left s w = ([], s, w) := by
  cases left with
  | zero => rfl
  | succ left => rw [rounds, if_neg ended]

/-- Rounds done in two parts. -/
theorem rounds_add (untimed : ∀ w, l.isOver (m.elapsed w) = false) (a b : Nat) (s : RunState)
    (w : σ) : m.rounds l (a + b) s w =
      ((m.rounds l a s w).1 ++
          (m.rounds l b (m.rounds l a s w).2.1 (m.rounds l a s w).2.2).1,
        (m.rounds l b (m.rounds l a s w).2.1 (m.rounds l a s w).2.2).2) := by
  induction a generalizing s w with
  | zero =>
    rw [Nat.zero_add]
    rfl
  | succ a ih =>
    rw [Nat.add_right_comm, rounds, rounds]
    by_cases stage : s.stage < l.maxStages
    · rw [if_pos stage, if_pos stage]
      dsimp only
      rw [untimed, if_neg Bool.false_ne_true, if_neg Bool.false_ne_true, ih]
      rfl
    · rw [if_neg stage, if_neg stage]
      dsimp only
      rw [m.rounds_of_ended stage]
      rfl

/-- The calls of a round do not count as rounds. -/
theorem round_calls (left k : Nat) (s : RunState) (w : σ) :
    (m.calls l left k s w).2.1.round = s.round := by
  induction left generalizing k s w with
  | zero => rfl
  | succ left ih =>
    rw [calls]
    split
    · exact (ih _ _ _).trans (RunState.round_afterCall ..)
    · rfl

/-- Unless the last stage is over, all rounds that are left are done. -/
theorem round_of_rounds (untimed : ∀ w, l.isOver (m.elapsed w) = false) {left : Nat}
    {s : RunState} {w : σ} (stage : (m.rounds l left s w).2.1.stage < l.maxStages) :
    (m.rounds l left s w).2.1.round = s.round + left := by
  induction left generalizing s w with
  | zero => rfl
  | succ left ih =>
    rw [rounds] at stage ⊢
    by_cases now : s.stage < l.maxStages
    · rw [if_pos now] at stage ⊢
      dsimp only at stage ⊢
      rw [untimed, if_neg Bool.false_ne_true] at stage ⊢
      have next : (m.round l s w).2.1.round = s.round + 1 :=
        congrArg (· + 1) (m.round_calls l.maxStages 0 s w)
      have rest := ih stage
      dsimp only
      omega
    · rw [if_neg now] at stage
      exact absurd stage now

/-- **Rounds can be cut anywhere**, as long as the time is not up. -/
theorem rounds_cut (untimed : ∀ w, l.isOver (m.elapsed w) = false) {n N : Nat} (le : n ≤ N)
    (s : RunState) (w : σ) :
    let first := m.rounds l (n - s.round) s w
    let second := m.rounds l (N - first.2.1.round) first.2.1 first.2.2
    m.rounds l (N - s.round) s w = (first.1 ++ second.1, second.2) := by
  intro first second
  have parts : N - s.round = (n - s.round) + (N - s.round - (n - s.round)) := by omega
  have rest : m.rounds l (N - s.round - (n - s.round)) first.2.1 first.2.2 = second := by
    by_cases stage : first.2.1.stage < l.maxStages
    · have round : first.2.1.round = s.round + (n - s.round) := m.round_of_rounds untimed stage
      have left : N - s.round - (n - s.round) = N - first.2.1.round := by omega
      rw [left]
    · rw [m.rounds_of_ended stage]
      exact (m.rounds_of_ended stage _ _).symm
  rw [parts, m.rounds_add untimed, ← rest]

end Cut

/-! ### Machines that agree -/

section Agree

variable {σ τ β : Type} {R : σ → τ → Prop}

/-- The same records and the same state, and machines in related states. -/
structure Matches (R : σ → τ → Prop) (r : β × RunState × σ) (r' : β × RunState × τ) : Prop where
  records : r.1 = r'.1
  state : r.2.1 = r'.2.1
  related : R r.2.2 r'.2.2

/-- From related states, the calls of the two machines look the same to the loop and lead to related
states. -/
structure Agrees (R : σ → τ → Prop) (m : Machine σ) (m' : Machine τ) : Prop where
  status : ∀ {w v} k b, R w v → (m.call k b w).1.1 = (m'.call k b v).1.1
  effort : ∀ {w v} k b, R w v → (m.call k b w).1.1 = .successful →
    (m.call k b w).1.2 = (m'.call k b v).1.2
  call : ∀ {w v} k b, R w v → R (m.call k b w).2 (m'.call k b v).2
  size : ∀ {w v}, R w v → m.size w = m'.size v
  save : ∀ {w v} s, R w v → R (m.save s w) (m'.save s v)

namespace Agrees

variable {m : Machine σ} {m' : Machine τ}

/-- Machines that agree make the same calls. -/
theorem calls (h : Agrees R m m') (l : Limits) (left k : Nat) (s : RunState) {w : σ} {v : τ}
    (related : R w v) : Matches R (m.calls l left k s w) (m'.calls l left k s v) := by
  induction left generalizing k s w v with
  | zero => exact ⟨rfl, rfl, related⟩
  | succ left ih =>
    rw [Machine.calls, Machine.calls]
    split
    · have state : s.afterCall l.expenditure k (m.call k s.batches w).1.1
          (m.call k s.batches w).1.2 =
          s.afterCall l.expenditure k (m'.call k s.batches v).1.1 (m'.call k s.batches v).1.2 := by
        rw [← h.status k s.batches related]
        exact s.afterCall_congr (h.effort k s.batches related)
      have rest := ih (k + 1)
        (s.afterCall l.expenditure k (m'.call k s.batches v).1.1 (m'.call k s.batches v).1.2)
        (h.call k s.batches related)
      dsimp only
      rw [state]
      refine ⟨?_, rest.state, rest.related⟩
      dsimp only
      rw [rest.records, h.status k s.batches related]
    · exact ⟨rfl, rfl, related⟩

/-- Machines that agree make the same rounds. -/
theorem round (h : Agrees R m m') (l : Limits) (s : RunState) {w : σ} {v : τ}
    (related : R w v) : Matches R (m.round l s w) (m'.round l s v) := by
  obtain ⟨records, state, related'⟩ := h.calls l l.maxStages 0 s related
  unfold Machine.round
  dsimp only
  rw [records, state, h.size related']
  exact ⟨rfl, rfl, h.save _ related'⟩

/-- **Machines that agree make the same rounds**, as long as the time is not up. -/
theorem rounds (h : Agrees R m m') {l : Limits} (untimed : ∀ w, l.isOver (m.elapsed w) = false)
    (untimed' : ∀ v, l.isOver (m'.elapsed v) = false) (left : Nat) (s : RunState) {w : σ} {v : τ}
    (related : R w v) : Matches R (m.rounds l left s w) (m'.rounds l left s v) := by
  induction left generalizing s w v with
  | zero => exact ⟨rfl, rfl, related⟩
  | succ left ih =>
    rw [Machine.rounds, Machine.rounds]
    split
    · obtain ⟨record, state, related'⟩ := h.round l s related
      dsimp only
      rw [untimed, untimed', if_neg Bool.false_ne_true, if_neg Bool.false_ne_true, record, state]
      obtain ⟨records, state', related''⟩ := ih (m'.round l s v).2.1 related'
      exact ⟨congrArg _ records, state', related''⟩
    · exact ⟨rfl, rfl, related⟩

end Agrees
end Agree

end Machine

variable {α ω υ : Type}

namespace Oracle

/-- The effort depends on the instance alone. -/
def Spends (o : Oracle α ω) (effort : Instance α → Int) : Prop :=
  ∀ i w, (o.ask i w).1.effort = effort i

/-- The time is never up on the clock of the oracle. -/
def Untimed (o : Oracle α ω) (params : Parameters) : Prop :=
  ∀ began now, ¬params.timeLimit ≤ Limits.seconds (o.clock now - o.clock began)

end Oracle

variable [Scalar α]

/-! ### Calls from the same instance -/

/-- The two calls look the same to the loop, and leave the same instance. -/
structure CallResult.Alike (a b : CallResult α ω) : Prop where
  status : a.status = b.status
  inst : a.inst = b.inst
  effort : a.status = .successful → a.memory.effort = b.memory.effort

namespace Reduction

variable (r : Reduction α υ) {o : Oracle α ω} {params : Parameters}
  {verdict : Instance α → Verdict} {effort : Instance α → Int}

/-- The effort that is remembered after a success is that of the accepted instance. -/
theorem effort_pass (spends : o.Spends effort) (params : Parameters) (batches : Nat)
    (i : Instance α) (memory : ModuleState) (session : Session α ω)
    (success : (r.pass o params batches i memory session).success = true) :
    (r.pass o params batches i memory session).memory.effort =
      effort ((r.pass o params batches i memory session).base.toInstance i.solution) := by
  refine r.pass_keeps o params batches i memory session
    (P := fun p => p.success = true → p.memory.effort = effort (p.base.toInstance i.solution))
    (fun none => absurd none Bool.false_ne_true) (fun _ _ _ h => h) (fun p h => ?_) success
  unfold Pass.probe
  dsimp only
  split
  · exact h
  · exact fun _ => spends _ p.session.state

/-- What a module does to an instance does not depend on what it remembers. -/
theorem execute_congr (judges : o.Judges params.passCodes verdict) (spends : o.Spends effort)
    (batches : Nat) (i : Instance α) (memory memory' : ModuleState)
    (session session' : Session α ω) : (r.execute o params batches i memory session).Alike
      (r.execute o params batches i memory' session') := by
  have alike := r.alike_pass judges batches i memory memory' session session'
  have spent := r.effort_pass spends params batches i memory session
  have spent' := r.effort_pass spends params batches i memory' session'
  unfold execute
  split
  · exact ⟨rfl, rfl, fun success => nomatch success⟩
  · dsimp only
    rw [← alike.success, ← alike.base] at spent'
    rw [← alike.success, ← alike.base]
    split
    · rename_i success
      exact ⟨rfl, rfl, fun _ => (spent success).trans (spent' success).symm⟩
    · exact ⟨rfl, rfl, fun success => nomatch success⟩

end Reduction

/-- **Calls from the same instance with the same number of batches are alike**, whatever the module
remembers and whatever has been asked before. -/
theorem ModuleKind.call_congr (k : ModuleKind) (target : Option Settings) {o : Oracle α ω}
    {params : Parameters} {verdict : Instance α → Verdict} {effort : Instance α → Int}
    (judges : o.Judges params.passCodes verdict) (spends : o.Spends effort) (batches : Nat)
    (i : Instance α) (memory memory' : ModuleState) (session session' : Session α ω) :
    (k.call target o params batches i memory session).Alike
      (k.call target o params batches i memory' session') := by
  unfold ModuleKind.call Reduction.call
  split
  · have alike := Reduction.execute_congr (k.reduction target (Scope.ofRun params i)).reduction
      judges spends batches i
      { memory with stats := { memory.stats with calls := memory.stats.calls + 1 } }
      { memory' with stats := { memory'.stats with calls := memory'.stats.calls + 1 } } session
      session'
    exact ⟨alike.status, alike.inst, alike.effort⟩
  · exact ⟨rfl, rfl, fun success => nomatch success⟩

namespace World

/-- The two are at the same instance, and have a memory for each module. -/
structure SameInstance (w v : World α ω) : Prop where
  inst : w.inst = v.inst
  complete : w.memories.length = ModuleKind.all.length
  complete' : v.memories.length = ModuleKind.all.length

omit [Scalar α] in
/-- At the beginning the instance is the same, whatever the session. -/
theorem sameInstance_start (i : Instance α) (session session' : Session α ω) :
    SameInstance (start i session) (start i session') := ⟨rfl, rfl, rfl⟩

variable {o : Oracle α ω} {params : Parameters} {verdict : Instance α → Verdict}
  {effort : Instance α → Int}

/-- Two runs at the same instance are called alike. -/
theorem call_congr (judges : o.Judges params.passCodes verdict) (spends : o.Spends effort)
    (target : Option Settings) (k batches : Nat) {w v : World α ω} (same : w.SameInstance v) :
    (w.call o params target k batches).1.1 = (v.call o params target k batches).1.1 ∧
      ((w.call o params target k batches).1.1 = .successful →
        (w.call o params target k batches).1.2 = (v.call o params target k batches).1.2) ∧
      (w.call o params target k batches).2.SameInstance (v.call o params target k batches).2 := by
  obtain ⟨inst, complete, complete'⟩ := same
  have kept := length_memories_call o params target k batches w
  have kept' := length_memories_call o params target k batches v
  suffices (w.call o params target k batches).1.1 = (v.call o params target k batches).1.1 ∧
      ((w.call o params target k batches).1.1 = .successful →
        (w.call o params target k batches).1.2 = (v.call o params target k batches).1.2) ∧
      (w.call o params target k batches).2.inst = (v.call o params target k batches).2.inst by
    obtain ⟨status, effort, inst'⟩ := this
    exact ⟨status, effort, inst', kept.trans complete, kept'.trans complete'⟩
  by_cases bound : k < ModuleKind.all.length
  · have found : ModuleKind.all[k]? = some ModuleKind.all[k] := List.getElem?_eq_getElem bound
    have memory := List.getElem?_eq_getElem (complete ▸ bound : k < w.memories.length)
    have memory' := List.getElem?_eq_getElem (complete' ▸ bound : k < v.memories.length)
    obtain ⟨status, inst', effort⟩ := ModuleKind.all[k].call_congr target judges spends batches
      v.inst w.memories[k] v.memories[k] w.session v.session
    unfold World.call
    rw [found, memory, memory', inst]
    exact ⟨status, effort, inst'⟩
  · have none : ModuleKind.all[k]? = none := List.getElem?_eq_none (Nat.le_of_not_lt bound)
    unfold World.call
    rw [none]
    exact ⟨rfl, fun _ => rfl, inst⟩

/-- The machines of two sessions agree on the same instances. -/
theorem agrees_machine (judges : o.Judges params.passCodes verdict) (spends : o.Spends effort)
    (target : Option Settings) (began began' : Nat) :
    Machine.Agrees SameInstance (machine o params target began)
      (machine o params target began') where
  status k b same := (call_congr judges spends target k b same).1
  effort k b same := (call_congr judges spends target k b same).2.1
  call k b same := (call_congr judges spends target k b same).2.2
  size same := congrArg (fun i => i.problem.size params.tolerance) same.inst
  save {w v} s same := by
    refine ⟨?_, ?_, ?_⟩
    · exact (save_inst params s w).1.trans (same.inst.trans (save_inst params s v).1.symm)
    · exact (congrArg List.length (memories_save params s w)).trans same.complete
    · exact (congrArg List.length (memories_save params s v)).trans same.complete'

end World

namespace Run

/-- A run without a check of its instance is its rounds. -/
theorem reduce_eq_rounds (o : Oracle α ω) {params : Parameters} (mode : params.mode = .reduceOnly)
    (n : Nat) (target : Option Settings) (s : RunState) (i : Instance α) (session : Session α ω) :
    let m := World.machine o params target (o.clock session.state)
    let r := reduce o { params with maxRounds := n } target s i session
    m.rounds (m.limits params) (n - s.round) s (World.start i session) =
      (r.1.rounds, r.1.state, r.2) := by
  intro m r
  have opened : m.opening { params with maxRounds := n } (World.start i session) =
      (none, World.start i session) := if_pos mode
  have idle : ¬((none : Option Verdict) = some .okay ∨ params.mode = .reproduceOnly) := by
    rw [mode]
    simp
  have done : m.body { params with maxRounds := n } s
      (m.opening { params with maxRounds := n } (World.start i session)) =
      m.rounds (m.limits params) (n - s.round) s (World.start i session) := by
    rw [opened]
    exact if_neg idle
  rw [← done]
  rfl

/-- **Resuming changes nothing.**  Without a check of the instance and without a time limit, and
with an oracle whose verdict and effort depend on the instance alone, a run may be cut after any
round and taken up by a new one, which knows only the state and the instance that are left: the
final instance and state are the same, and so are the records of both together. -/
theorem reduce_resumed (o : Oracle α ω) (params : Parameters) (target : Option Settings)
    (s : RunState) (i : Instance α) (session session' session'' : Session α ω)
    {verdict : Instance α → Verdict} {effort : Instance α → Int}
    (judges : o.Judges params.passCodes verdict) (spends : o.Spends effort)
    (mode : params.mode = .reduceOnly) (untimed : o.Untimed params) {n N : Nat} (le : n ≤ N) :
    let first := reduce o { params with maxRounds := n } target s i session
    let second := reduce o { params with maxRounds := N } target first.1.state first.2.inst session'
    let whole := reduce o { params with maxRounds := N } target s i session''
    second.2.inst = whole.2.inst ∧ second.1.state = whole.1.state ∧
      first.1.rounds ++ second.1.rounds = whole.1.rounds := by
  intro first second whole
  let machine := fun session : Session α ω => World.machine o params target (o.clock session.state)
  let l := (machine session).limits params
  have never (session : Session α ω) (w : World α ω) :
      l.isOver ((machine session).elapsed w) = false :=
    decide_eq_false (untimed session.state w.session.state)
  have agrees (session session' : Session α ω) :
      Machine.Agrees World.SameInstance (machine session) (machine session') :=
    World.agrees_machine judges spends target _ _
  have first_eq : (machine session).rounds l (n - s.round) s (World.start i session) =
      (first.1.rounds, first.1.state, first.2) := reduce_eq_rounds o mode n target s i session
  have second_eq : (machine session').rounds l (N - first.1.state.round) first.1.state
        (World.start first.2.inst session') = (second.1.rounds, second.1.state, second.2) :=
    reduce_eq_rounds o mode N target first.1.state first.2.inst session'
  have whole_eq : (machine session'').rounds l (N - s.round) s (World.start i session'') =
      (whole.1.rounds, whole.1.state, whole.2) := reduce_eq_rounds o mode N target s i session''
  -- The run without the cut, made in two parts.
  let part := (machine session'').rounds l (n - s.round) s (World.start i session'')
  let rest := (machine session'').rounds l (N - part.2.1.round) part.2.1 part.2.2
  have cut : (whole.1.rounds, whole.1.state, whole.2) = (part.1 ++ rest.1, rest.2) :=
    whole_eq.symm.trans ((machine session'').rounds_cut (never session'') le s _)
  -- Its first part leads to the state and the instance of the first run.
  have agreed := (agrees session session'').rounds (never session) (never session'') (n - s.round) s
    (World.sameInstance_start i session session'')
  rw [first_eq] at agreed
  have state : first.1.state = part.2.1 := agreed.state
  have taken : (World.start first.2.inst session').SameInstance part.2.2 :=
    ⟨agreed.related.inst, rfl, agreed.related.complete'⟩
  -- From there it goes on as the second run does.
  have agreed' := (agrees session' session'').rounds (never session') (never session'')
    (N - first.1.state.round) first.1.state taken
  rw [second_eq, state] at agreed'
  obtain ⟨rounds, state', last⟩ : whole.1.rounds = part.1 ++ rest.1 ∧ whole.1.state = rest.2.1 ∧
      whole.2 = rest.2.2 := by
    simpa only [Prod.ext_iff] using cut
  have records : first.1.rounds = part.1 := agreed.records
  have records' : second.1.rounds = rest.1 := agreed'.records
  refine ⟨?_, ?_, ?_⟩
  · rw [last]
    exact agreed'.related.inst
  · rw [state']
    exact agreed'.state
  · rw [rounds, records, records']

/-- Four batches at first, and then as many as an expenditure of three allows. -/
def threeProbes : Parameters := { fourBatches with mode := .reduceOnly, expenditure := 3 }

/-- A run over the program `blend` with so many rounds. -/
def blendRounds (n : Nat) (s : RunState) (i : Instance Rat) : Summary × World Rat Unit :=
  reduce (Oracle.ofFunction showsFirstRow) { threeProbes with maxRounds := n } none s i
    (.start () .empty)

/-- The run over `blend` is cut after two rounds, when the batches have been adapted and a stage is
under way. -/
theorem reduce_resumed_blend :
    let i : Instance Rat := { settings := {}, problem := .blend, solution := .unknown }
    let first := blendRounds 2 (RunState.start threeProbes) i
    let second := blendRounds 9 first.1.state first.2.inst
    let whole := blendRounds 9 (RunState.start threeProbes) i
    first.1.state = { round := 2, stage := 1, success := 1, batches := 3 } ∧
      second.1.rounds.length = 4 ∧
      second.2.inst = whole.2.inst ∧ second.1.state = whole.1.state ∧
        first.1.rounds ++ second.1.rounds = whole.1.rounds := by
  have judges : (Oracle.ofFunction showsFirstRow).Judges threeProbes.passCodes
      fun i => Verdict.classify [] (showsFirstRow i).retcode := fun _ _ => rfl
  have spends : (Oracle.ofFunction showsFirstRow).Spends fun i => (showsFirstRow i).effort :=
    fun _ _ => rfl
  have never : ¬threeProbes.timeLimit ≤ Limits.seconds 0 := by decide +kernel
  exact ⟨by decide +kernel, by decide +kernel,
    reduce_resumed (Oracle.ofFunction showsFirstRow) threeProbes none _ _ _ _ _ judges spends rfl
      (fun _ _ => never) (by decide)⟩

end Run
end MipShrink
