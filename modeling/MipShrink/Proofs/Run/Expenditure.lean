/-
# What an expenditure buys

With an expenditure `E` the number of batches follows the effort `e` of the last accepted probe of a
successful call: it becomes `⌈E / e⌉`.  A call with `n` batches makes at most `n` probes, whatever
elements it skips (`Pass.Uses.foldl`).  So as long as this number is in use no call makes more than
`⌈E / e⌉` probes, and the last of them begins before the expenditure is used up, if each of them
costs `e` (`Run.probes_within_expenditure`).

The number in use is part of the state.  It is the same in the next rounds, and it is saved with the
state after each round (`Machine.mem_saved`), so that a run that takes up a saved state begins with
it.
-/

import MipShrink.Proofs.Reduction.Trials
import MipShrink.Proofs.Run.Recording

namespace MipShrink

variable {α ω υ σ : Type}

/-! ### The number of batches -/

namespace RunState

variable {E e : Int}

/-- **The number of batches is the quotient rounded up.** -/
theorem adapted_eq_ceil (budget : 0 < E) (costly : 0 < e) (batches : Nat) :
    (adapted E e batches : Int) = ((E : Rat) / e).ceil ∧
      (adapted E e batches : Int) * e < E + e := by
  obtain ⟨a, rfl⟩ := Int.eq_ofNat_of_zero_le (Int.le_of_lt budget)
  obtain ⟨b, rfl⟩ := Int.eq_ofNat_of_zero_le (Int.le_of_lt costly)
  have positive : 0 < b := Int.natCast_pos.1 costly
  let n := (a + b - 1) / b
  have adapted : adapted a b batches = n := if_pos ⟨budget, costly⟩
  have division : b * n + (a + b - 1) % b = a + b - 1 := Nat.div_add_mod _ _
  have remainder : (a + b - 1) % b < b := Nat.mod_lt _ positive
  have enough : a ≤ n * b := by
    rw [Nat.mul_comm]
    omega
  have sparing : n * b < a + b := by
    rw [Nat.mul_comm]
    omega
  have sparing' : (n : Int) * b < a + b := by exact_mod_cast sparing
  have divisor : (0 : Rat) < ((b : Int) : Rat) := Rat.intCast_pos.2 costly
  rw [adapted]
  refine ⟨Int.le_antisymm ?_ (Rat.ceil_le_iff.2 ?_), sparing'⟩
  · have below : ((n : Int) - 1) * b < a := by
      rw [Int.sub_mul]
      omega
    have below' : (((n : Int) - 1 : Int) : Rat) < ((a : Int) : Rat) / ((b : Int) : Rat) := by
      rw [Rat.lt_div_iff divisor, ← Rat.intCast_mul]
      exact Rat.intCast_lt_intCast.2 below
    exact Int.le_of_sub_one_lt (Rat.lt_ceil_iff.2 below')
  · rw [← Rat.not_lt, Rat.lt_div_iff divisor, ← Rat.intCast_mul, Rat.intCast_lt_intCast]
    have enough' : (a : Int) ≤ (n : Int) * b := by exact_mod_cast enough
    exact Int.not_lt.2 enough'

/-- With a positive expenditure and effort there is one batch at least. -/
theorem adapted_pos (budget : 0 < E) (costly : 0 < e) (batches : Nat) :
    0 < adapted E e batches := by
  obtain ⟨ceil, -⟩ := adapted_eq_ceil budget costly batches
  have positive : (0 : Int) < ((E : Rat) / e).ceil := by
    refine Rat.lt_ceil_iff.2 ((Rat.lt_div_iff (Rat.intCast_pos.2 costly)).2 ?_)
    rw [← Rat.intCast_mul, Int.zero_mul]
    exact Rat.intCast_lt_intCast.2 budget
  omega

/-- So many probes and no more, each of the effort `e`. -/
theorem within_expenditure (budget : 0 < E) (costly : 0 < e) (batches : Nat) {p : Nat}
    (le : p ≤ adapted E e batches) : ((p : Int) - 1) * e < E := by
  obtain ⟨-, sparing⟩ := adapted_eq_ceil budget costly batches
  have product : (p : Int) * e ≤ adapted E e batches * e :=
    Int.mul_le_mul_of_nonneg_right (Int.ofNat_le.2 le) (Int.le_of_lt costly)
  rw [Int.sub_mul]
  omega

end RunState

/-! ### The probes of a call -/

variable [Scalar α]

namespace Pass

variable {c : Setup α ω} {p : Pass α ω} {size : Nat}

/-- There have been so many probes since the history had the length `before`, and each of them has
tried `size` of the elements that have been met so far. -/
structure Uses (size before met : Nat) (p : Pass α ω) : Prop where
  room : p.batch < size
  probes : ∃ n, p.session.history.length = before + n ∧ n * size + p.batch ≤ met

/-- A probe makes the history longer by one. -/
theorem length_history_probe (c : Setup α ω) (p : Pass α ω) :
    (p.probe c).session.history.length = p.session.history.length + 1 := by
  rw [session_probe, Session.history_ask]
  rfl

/-- A step meets one element and keeps within the number of probes. -/
theorem Uses.step {before met : Nat} (h : p.Uses size before met) (r : Reduction α υ) (u : υ) :
    (p.step r c size u).Uses size before (met + 1) := by
  obtain ⟨room, n, length, le⟩ := h
  unfold Pass.step
  split
  · dsimp only
    split
    · rename_i full
      have size' : p.batch + 1 = size := by omega
      refine ⟨by rw [batch_probe]; omega, n + 1, ?_, ?_⟩
      · rw [length_history_probe, length]
        rfl
      · rw [batch_probe, Nat.add_mul]
        omega
    · rename_i partial'
      exact ⟨Nat.lt_of_not_le partial', n, length, by dsimp only; omega⟩
  · exact ⟨room, n, length, by omega⟩

/-- All steps of a pass together keep within the number of probes. -/
theorem Uses.foldl {before met : Nat} (h : p.Uses size before met) (r : Reduction α υ)
    (us : List υ) : (us.foldl (Pass.step r c size) p).Uses size before (met + us.length) := by
  induction us generalizing p met with
  | nil => exact h
  | cons u us ih =>
    rw [List.foldl_cons, List.length_cons, Nat.add_comm us.length, ← Nat.add_assoc]
    exact ih (h.step r u)

/-- The last batch may be a smaller one. -/
theorem Uses.finish {before met : Nat} (h : p.Uses size before met) : ∃ n,
    (p.finish c).session.history.length = before + n ∧ n ≤ (met + size - 1) / size := by
  obtain ⟨room, n, length, le⟩ := h
  have positive : 0 < size := by omega
  unfold Pass.finish
  split
  · refine ⟨n + 1, by rw [length_history_probe, length]; rfl, ?_⟩
    rw [Nat.le_div_iff_mul_le positive, Nat.add_mul]
    omega
  · refine ⟨n, length, ?_⟩
    rw [Nat.le_div_iff_mul_le positive]
    omega

end Pass

/-- The effort of the latest probe that showed the defect, and the given one if none did.  The
latest probe comes first. -/
def Probe.lastEffort (passCodes : List Int) (effort : Int) (history : List (Probe α)) : Int :=
  ((history.find? (showsDefect passCodes)).map fun q => q.answer.effort).getD effort

/-- The call has added the probes `new` to the history, no more than batches were asked for, and its
effort is that of the last one that was accepted. -/
structure CallResult.Metered (passCodes : List Int) (batches : Nat) (memory : ModuleState)
    (session : Session α ω) (new : List (Probe α)) (res : CallResult α ω) : Prop where
  history : res.session.history = new ++ session.history
  probes : 0 < batches → new.length ≤ batches
  effort : res.memory.effort = Probe.lastEffort passCodes memory.effort new

namespace Reduction

variable (r : Reduction α υ) (o : Oracle α ω) (params : Parameters) (batches : Nat)
  (i : Instance α) (memory : ModuleState) (session : Session α ω)

/-- A call makes no more probes than there are groups of its eligible elements. -/
theorem probes_pass :
    let k := (r.eligible (Draft.ofInstance i)).length
    let size := batchSize k batches
    ∃ n, (r.pass o params batches i memory session).session.history.length =
      session.history.length + n ∧ n ≤ (k + size - 1) / size := by
  intro k size
  let p : Pass α ω := ⟨.ofInstance i, .ofInstance i, 0, false, memory, session⟩
  have begun : p.Uses size session.history.length 0 :=
    ⟨batchSize_pos .., 0, rfl, by show 0 * size + 0 ≤ 0; omega⟩
  have met := begun.foldl r (r.eligible (Draft.ofInstance i))
    (c := { oracle := o, params := params, solution := i.solution, start := i.problem })
  rw [Nat.zero_add] at met
  exact met.finish

/-- The effort that a module remembers is that of its last accepted probe. -/
theorem history_pass : ∃ new,
    (r.pass o params batches i memory session).session.history = new ++ session.history ∧
      (r.pass o params batches i memory session).memory.effort =
        Probe.lastEffort params.passCodes memory.effort new := by
  refine r.pass_keeps o params batches i memory session
    (P := fun p => ∃ new, p.session.history = new ++ session.history ∧
      p.memory.effort = Probe.lastEffort params.passCodes memory.effort new)
    ⟨[], rfl, rfl⟩ (fun _ _ _ h => h) fun p ⟨new, history, effort⟩ => ?_
  let c : Pass.Setup α ω :=
    { oracle := o, params := params, solution := i.solution, start := i.problem }
  refine ⟨p.question c :: new, ?_, ?_⟩
  · rw [Pass.session_probe, Session.history_ask, history]
    rfl
  · have verdict : (p.session.ask o params (p.draft.flush.toInstance i.solution)).1 =
        (p.question c).verdict params.passCodes := rfl
    unfold Pass.probe Probe.lastEffort
    dsimp only
    rw [verdict]
    by_cases okay : (p.question c).verdict params.passCodes = .okay
    · have hidden : ¬(p.question c).showsDefect params.passCodes = true := by
        simp [Probe.showsDefect, okay]
      rw [if_pos okay, List.find?_cons_of_neg hidden]
      exact effort
    · have shows : (p.question c).showsDefect params.passCodes = true := by
        simp [Probe.showsDefect, okay]
      rw [if_neg okay, List.find?_cons_of_pos shows]
      rfl

/-- A pass makes no more probes than it has batches, and knows the effort of the latest accepted
one. -/
theorem execute_metered : ∃ new,
    (r.execute o params batches i memory session).Metered params.passCodes batches memory session
      new := by
  unfold execute
  split
  · exact ⟨[], rfl, fun _ => Nat.zero_le _, rfl⟩
  · rename_i present
    rw [List.isEmpty_iff] at present
    obtain ⟨n, length, le⟩ := r.probes_pass o params batches i memory session
    obtain ⟨new, history, effort⟩ := r.history_pass o params batches i memory session
    have counted : new.length = n := by
      rw [history, List.length_append] at length
      omega
    have probes (asked : 0 < batches) : new.length ≤ batches := by
      have groups := (groups_le_batches (List.length_pos_iff.2 present) rfl).1 asked
      omega
    refine ⟨new, ?_⟩
    dsimp only
    split
    · exact ⟨history, probes, effort⟩
    · exact ⟨history, probes, effort⟩

/-- **A call makes at most as many probes as batches are asked for**, and remembers the effort of
the last one that was accepted. -/
theorem call_metered (name : String) : ∃ new,
    (r.call name o params batches i memory session).Metered params.passCodes batches memory session
      new := by
  unfold call
  split
  · obtain ⟨new, metered⟩ := r.execute_metered o params batches i memory.counted session
    exact ⟨new, metered.history, metered.probes, metered.effort⟩
  · exact ⟨[], rfl, fun _ => Nat.zero_le _, rfl⟩

end Reduction

/-- So does a call of any module of a run. -/
theorem World.call_metered (o : Oracle α ω) (params : Parameters) (target : Option Settings)
    (k batches : Nat) (w : World α ω) : ∃ new,
    (w.call o params target k batches).2.session.history = new ++ w.session.history ∧
      (0 < batches → new.length ≤ batches) ∧
      ∀ q, new.find? (Probe.showsDefect params.passCodes) = some q →
        (w.call o params target k batches).1.2 = q.answer.effort := by
  unfold call
  cases ModuleKind.all[k]? with
  | none => exact ⟨[], rfl, fun _ => Nat.zero_le _, fun q found => nomatch found⟩
  | some kind =>
    cases w.memories[k]? with
    | none => exact ⟨[], rfl, fun _ => Nat.zero_le _, fun q found => nomatch found⟩
    | some memory =>
      obtain ⟨new, history, probes, effort⟩ :=
        Reduction.call_metered (kind.reduction target (Scope.ofRun params w.inst)).reduction o
          params batches w.inst memory w.session kind.name
      refine ⟨new, history, probes, fun q found => effort.trans ?_⟩
      unfold Probe.lastEffort
      rw [found]
      rfl

namespace Called

/-- The probes of a call, the latest first. -/
def probed (c : Called (World α ω)) : List (Probe α) :=
  c.after.session.history.take (c.after.session.history.length - c.before.session.history.length)

/-- The last probe of a call that was accepted. -/
def lastAccepted? (passCodes : List Int) (c : Called (World α ω)) : Option (Probe α) :=
  c.probed.find? (Probe.showsDefect passCodes)

omit [Scalar α] in
/-- What a call has asked is what is new in the history. -/
theorem probed_eq {c : Called (World α ω)} {new : List (Probe α)}
    (history : c.after.session.history = new ++ c.before.session.history) : c.probed = new := by
  unfold probed
  rw [history, List.length_append, Nat.add_sub_cancel, List.take_left]

variable {o : Oracle α ω} {params : Parameters} {target : Option Settings} {began : Nat}
  {l : Limits} {s : RunState} {c : Called (World α ω)}

/-- What a call that is due has asked, and what it has spent. -/
theorem metered_of_isDue (due : (World.machine o params target began).IsDue l s c) :
    (0 < s.batches → c.probed.length ≤ s.batches) ∧
      ∀ q, c.lastAccepted? params.passCodes = some q → c.effort = q.answer.effort := by
  obtain ⟨new, history, probes, effort⟩ :=
    c.before.call_metered o params target c.module c.batches
  have called :
      c.before.call o params target c.module c.batches = ((c.status, c.effort), c.after) :=
    due.call
  rw [called] at history effort
  unfold lastAccepted?
  rw [probed_eq history, ← due.batches]
  exact ⟨probes, effort⟩

/-- **A call that is due makes at most as many probes as there are batches in the state.** -/
theorem length_probed_le (due : (World.machine o params target began).IsDue l s c)
    (positive : 0 < s.batches) : c.probed.length ≤ s.batches :=
  (metered_of_isDue due).1 positive

/-- The effort of a call is that of its latest accepted probe. -/
theorem effort_eq (due : (World.machine o params target began).IsDue l s c) {q : Probe α}
    (last : c.lastAccepted? params.passCodes = some q) : c.effort = q.answer.effort :=
  (metered_of_isDue due).2 q last

end Called

/-! ### Saved states -/

namespace Machine

/-- The machine that keeps a list of what it saves. -/
def saving (m : Machine σ) : Machine (σ × List (RunState × σ)) :=
  { count := m.count
    check := fun w => ((m.check w.1).1, (m.check w.1).2, w.2)
    call := fun k b w =>
      let r := m.call k b w.1
      (r.1, r.2, w.2)
    size := fun w => m.size w.1
    save := fun s w => (m.save s w.1, w.2 ++ [(s, w.1)])
    stats := fun w => m.stats w.1
    probes := fun w => m.probes w.1
    elapsed := fun w => m.elapsed w.1 }

/-- A machine that remembers what it saved is the machine itself besides. -/
theorem projects_saving (m : Machine σ) : Projects Prod.fst m.saving m := by
  constructor <;> intros <;> rfl

/-- The states that a run saves, in order, each with the calls that have been made until then. -/
def saved (m : Machine σ) (p : Parameters) (s : RunState) (w : σ) :
    List (RunState × List (Called σ)) :=
  (m.recording.saving.run p s ((w, []), [])).2.2.map fun e => (e.1, e.2.2)

/-- What has been saved is where the calls made until then have led. -/
structure Saved (m : Machine σ) (l : Limits) (s₀ s : RunState)
    (v : (σ × List (Called σ)) × List (RunState × σ × List (Called σ))) : Prop where
  recorded : m.Recorded l s₀ s v.1.2
  made : ∀ e ∈ v.2, e.2.2 <+: v.1.2
  replay : ∀ e ∈ v.2, s₀.replay l.expenditure e.2.2 = { e.1 with round := s₀.round }

namespace Saved

variable {m : Machine σ} {l : Limits} {s₀ s : RunState}
  {v : (σ × List (Called σ)) × List (RunState × σ × List (Called σ))}

/-- A call keeps the record of what was saved. -/
theorem call {k : Nat} (h : m.Saved l s₀ s v) (position : k ≤ s.stage)
    (stage : s.stage < l.maxStages) :
    m.Saved l s₀ (s.afterCall l.expenditure k (m.call k s.batches v.1.1).1.1
      (m.call k s.batches v.1.1).1.2) (m.recording.saving.call k s.batches v).2 where
  recorded := h.recorded.call position stage
  made e mem := (h.made e mem).trans (List.prefix_append ..)
  replay := h.replay

/-- Saving keeps the record of what was saved. -/
theorem save (h : m.Saved l s₀ s v) :
    m.Saved l s₀ (endRound s) (m.recording.saving.save (endRound s) v) where
  recorded := h.recorded.endRound
  made e mem := by
    rcases List.mem_append.1 mem with mem | mem
    · exact h.made e mem
    · obtain rfl := List.mem_singleton.1 mem
      exact List.prefix_refl _
  replay e mem := by
    rcases List.mem_append.1 mem with mem | mem
    · exact h.replay e mem
    · obtain rfl := List.mem_singleton.1 mem
      exact h.recorded.endRound.replay

/-- A round keeps the record of what was saved. -/
theorem round (h : m.Saved l s₀ s v) : m.Saved l s₀ (m.recording.saving.round l s v).2.1
    (m.recording.saving.round l s v).2.2 := by
  obtain ⟨-, -, ended⟩ := calls_end (m := m.recording.saving) (l := l) (w := v)
    (I := fun _ s v => m.Saved l s₀ s v) (fun _ _ _ position stage h => h.call position stage)
    (Nat.le_refl (l.maxStages + 0)) h
  exact ended.save

end Saved

/-- **A saved state is the one that the calls made until then lead to**, apart from the number of
its round. -/
theorem mem_saved {m : Machine σ} {p : Parameters} {s state : RunState} {w : σ}
    {calls : List (Called σ)} (mem : (state, calls) ∈ m.saved p s w) :
    calls <+: m.called p s w ∧
      s.replay p.expenditure calls = { state with round := s.round } := by
  have begun : (m.recording.saving.opening p ((w, []), [])).2.1.2 = [] ∧
      (m.recording.saving.opening p ((w, []), [])).2.2 = [] := by
    unfold opening
    split
    · exact ⟨rfl, rfl⟩
    · exact ⟨rfl, rfl⟩
  have ended : m.Saved (m.limits p) s (m.recording.saving.run p s ((w, []), [])).1.state
      (m.recording.saving.run p s ((w, []), [])).2 := by
    refine run_keeps_state (m := m.recording.saving) (J := fun s' v => m.Saved (m.limits p) s s' v)
      (fun s' v _ h => h.round) ⟨?_, fun e mem => ?_, fun e mem => ?_⟩
    · rw [begun.1]
      exact Recorded.nil ..
    · rw [begun.2] at mem
      cases mem
    · rw [begun.2] at mem
      cases mem
  have all : (m.recording.saving.run p s ((w, []), [])).2.1.2 = m.called p s w :=
    (congrArg (fun r => r.2.2) (m.recording.projects_saving.run p s ((w, []), []))).symm
  obtain ⟨e, place, same⟩ := List.mem_map.1 mem
  obtain ⟨rfl, rfl⟩ := Prod.mk.inj same
  exact ⟨all ▸ ended.made e place, ended.replay e place⟩

end Machine

/-! ### Runs -/

namespace Run

/-- The calls of a run. -/
def called (o : Oracle α ω) (params : Parameters) (target : Option Settings) (s : RunState)
    (i : Instance α) (session : Session α ω) : List (Called (World α ω)) :=
  (World.machine o params target (o.clock session.state)).called params s (World.start i session)

/-- The states that a run saves after its rounds, each with the calls made until then. -/
def saved (o : Oracle α ω) (params : Parameters) (target : Option Settings) (s : RunState)
    (i : Instance α) (session : Session α ω) : List (RunState × List (Called (World α ω))) :=
  (World.machine o params target (o.clock session.state)).saved params s (World.start i session)

variable {o : Oracle α ω} {params : Parameters} {target : Option Settings} {s : RunState}
  {i : Instance α} {session : Session α ω} {earlier : List (Called (World α ω))}
  {c : Called (World α ω)}

/-- A call is made with the number of batches that the calls before it have led to, and makes at
most as many probes. -/
theorem length_probed_le (made : earlier ++ [c] <+: called o params target s i session) {n : Nat}
    (same : (s.replay params.expenditure earlier).batches = n) (positive : 0 < n) :
    c.batches = n ∧ c.probed.length ≤ n := by
  have due := Machine.isDue_of_called _ _ _ _ made
  subst same
  exact ⟨due.batches, Called.length_probed_le due positive⟩

/-- A success with an effort sets the number of batches. -/
theorem batches_replay
    (made : earlier ++ [c] <+: called o params target s i session)
    (success : c.status = .successful) {q : Probe α}
    (last : c.lastAccepted? params.passCodes = some q) :
    (s.replay params.expenditure (earlier ++ [c])).batches =
      RunState.adapted params.expenditure q.answer.effort
        (s.replay params.expenditure earlier).batches := by
  have effort : c.effort = q.answer.effort :=
    Called.effort_eq (Machine.isDue_of_called _ _ _ _ made) last
  rw [RunState.replay_concat, effort]
  unfold RunState.afterCall
  rw [if_pos success]

/-- **An expenditure bounds the probes.**  Let a call be successful, and let the last probe that it
has accepted have an effort `e > 0`.  Then the number of batches is `n = ⌈E / e⌉`, which is at least
one, and as long as it is in use every call makes `p` probes with `(p - 1) e < E`:

* calls later in the run, before which the number is still `n`,
* calls of any run that begins in a state that was saved after a round with this number, before it
  changes there.  Oracle, parameters, instance and files of that run do not matter. -/
theorem probes_within_expenditure (budget : 0 < params.expenditure)
    (made : earlier ++ [c] <+: called o params target s i session)
    (success : c.status = .successful) {q : Probe α}
    (last : c.lastAccepted? params.passCodes = some q) (costly : 0 < q.answer.effort) :
    let E := params.expenditure
    let e := q.answer.effort
    let state := fun calls => s.replay E calls
    let n := (state (earlier ++ [c])).batches
    (n : Int) = ((E : Rat) / e).ceil ∧ 1 ≤ n ∧
      (∀ between d, earlier ++ [c] ++ between ++ [d] <+: called o params target s i session →
        (state (earlier ++ [c] ++ between)).batches = n →
          d.batches = n ∧ ((d.probed.length : Int) - 1) * e < E) ∧
      ∀ resumed between,
        (resumed, earlier ++ [c] ++ between) ∈ saved o params target s i session →
        (state (earlier ++ [c] ++ between)).batches = n → resumed.batches = n ∧
        ∀ {ω' : Type} (o' : Oracle α ω') (params' : Parameters) (target' : Option Settings)
          (i' : Instance α) (session' : Session α ω') (later : List (Called (World α ω')))
          (d : Called (World α ω')),
          later ++ [d] <+: called o' params' target' resumed i' session' →
          (resumed.replay params'.expenditure later).batches = n →
            d.batches = n ∧ ((d.probed.length : Int) - 1) * e < E := by
  intro E e state n
  have number : n = RunState.adapted E e (state earlier).batches :=
    batches_replay made success last
  have positive : 0 < n := number ▸ RunState.adapted_pos budget costly _
  have bounded {p : Nat} (le : p ≤ n) : ((p : Int) - 1) * e < E :=
    RunState.within_expenditure budget costly _ (number ▸ le)
  refine ⟨?_, positive, fun between d made' same => ?_, fun resumed between mem same => ⟨?_, ?_⟩⟩
  · rw [number]
    exact (RunState.adapted_eq_ceil budget costly _).1
  · obtain ⟨batches, le⟩ := length_probed_le made' same positive
    exact ⟨batches, bounded le⟩
  · have replayed := (Machine.mem_saved mem).2
    exact (congrArg RunState.batches replayed).symm.trans same
  · intro ω' o' params' target' i' session' later d made' same'
    obtain ⟨batches, le⟩ := length_probed_le made' same' positive
    exact ⟨batches, bounded le⟩

/-- With an expenditure of `100`, the first call is successful with an effort of `25`, so that all
later calls have four batches. -/
theorem probes_within_expenditure_blend :
    let i : Instance Rat := { settings := {}, problem := .blend, solution := .unknown }
    let o : Oracle Rat Unit := .ofFunction fun _ => ⟨⟨1⟩, .unknown, 25⟩
    let params : Parameters :=
      { Parameters.standard with
        mode := .reduceOnly, expenditure := 100, maxRounds := 2, firstStage := 0 }
    let s := RunState.start params
    let calls := called o params none s i (.start () .empty)
    ∃ c q, [] ++ [c] <+: calls ∧ c.status = .successful ∧
      c.lastAccepted? params.passCodes = some q ∧ q.answer.effort = 25 ∧
      (s.replay 100 [c]).batches = 4 ∧
      ∀ between d, [] ++ [c] ++ between ++ [d] <+: calls →
        (s.replay 100 ([] ++ [c] ++ between)).batches = 4 →
          d.batches = 4 ∧ ((d.probed.length : Int) - 1) * 25 < 100 := by
  intro i o params s calls
  have first : calls.head?.map (fun c => (c.status,
      (c.lastAccepted? params.passCodes).map fun q => q.answer.effort,
      (s.replay 100 [c]).batches)) = some (.successful, some 25, 4) := by decide +kernel
  obtain ⟨c, place, facts⟩ := Option.map_eq_some_iff.1 first
  simp only [Prod.mk.injEq] at facts
  obtain ⟨success, spent, number⟩ := facts
  obtain ⟨q, last, effort⟩ := Option.map_eq_some_iff.1 spent
  obtain ⟨rest, split⟩ := List.head?_eq_some_iff.1 place
  have made : [] ++ [c] <+: calls := ⟨rest, split.symm⟩
  have costly : 0 < q.answer.effort := by
    rw [effort]
    decide
  have bounds := probes_within_expenditure (s := s) (by decide) made success last costly
  have later := bounds.2.2.1
  rw [effort] at later
  refine ⟨c, q, made, success, last, effort, number, fun between d made' same => ?_⟩
  obtain ⟨batches, within⟩ := later between d made' (same.trans number.symm)
  exact ⟨batches.trans number, within⟩

end Run
end MipShrink
