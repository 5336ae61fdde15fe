/-
# The trials of a call

Each probe of a call is a *trial* of the elements that have been changed since the probe before it.
The trials of a call are read off the record that it keeps of its groups (`Reduction.tracked`) and
the history of its probes, and do not depend on what the counters are.

A call counts its trials (`Reduction.call_accounts`): its counter of probes grows by their number,
the counter of accepted batches by the number of those in which the defect showed, and the counter
of changes by the number of elements in these.  No trial is empty, and a successful call has a trial
in which the defect showed.  All of this holds for every program, eligible elements that are not
admissible any more when they are met included.
-/

import MipShrink.Proofs.Reduction.Partition
import MipShrink.Proofs.Run.Commitment

namespace MipShrink

variable {α ω υ : Type}

/-- A probe of a call, with the number of elements in its batch. -/
structure Trial (α : Type) where
  units : Nat
  probe : Probe α

namespace Trial

/-- The trials in which the defect showed. -/
def accepted (passCodes : List Int) (trials : List (Trial α)) : List (Trial α) :=
  trials.filter fun t => t.probe.showsDefect passCodes

/-- The number of elements in all batches. -/
def total (trials : List (Trial α)) : Nat :=
  (trials.map units).sum

/-- The accepted trials of two parts are put together. -/
theorem accepted_append (passCodes : List Int) (l l' : List (Trial α)) :
    accepted passCodes (l ++ l') = accepted passCodes l ++ accepted passCodes l' :=
  List.filter_append ..

/-- The elements of two parts add up. -/
theorem total_append (l l' : List (Trial α)) : total (l ++ l') = total l + total l' := by
  unfold total
  rw [List.map_append, List.sum_append]

/-- Trials that are not empty change an element each. -/
theorem length_le_total {trials : List (Trial α)} (nonempty : ∀ t ∈ trials, 0 < t.units) :
    trials.length ≤ total trials := by
  induction trials with
  | nil => exact Nat.le_refl _
  | cons t trials ih =>
    have first := nonempty t List.mem_cons_self
    have rest := ih fun t' mem => nonempty t' (List.mem_cons_of_mem _ mem)
    have sum : total (t :: trials) = t.units + total trials := List.sum_cons
    rw [List.length_cons, sum]
    omega

end Trial

namespace Stats

/-- The counters after a trial. -/
def tried (passCodes : List Int) (s : Stats) (t : Trial α) : Stats :=
  if t.probe.showsDefect passCodes then
    { s with
      probes := s.probes + 1
      accepted := s.accepted + 1
      changes := s.changes + t.units }
  else { s with probes := s.probes + 1 }

/-- The counters have grown from `s` to `s'` by what there is in the trials. -/
structure Grown (passCodes : List Int) (trials : List (Trial α)) (s s' : Stats) : Prop where
  calls : s'.calls = s.calls
  successes : s'.successes = s.successes
  probes : s'.probes = s.probes + trials.length
  accepted : s'.accepted = s.accepted + (Trial.accepted passCodes trials).length
  changes : s'.changes = s.changes + Trial.total (Trial.accepted passCodes trials)

variable {passCodes : List Int} {trials : List (Trial α)} {s s' : Stats}

/-- Without trials the counters stay. -/
theorem Grown.refl (passCodes : List Int) (s : Stats) : Grown passCodes ([] : List (Trial α)) s s :=
  ⟨rfl, rfl, rfl, rfl, rfl⟩

/-- A trial counts its probe, and its elements if the defect showed. -/
theorem Grown.tried (h : Grown passCodes trials s s') (t : Trial α) :
    Grown passCodes (trials ++ [t]) s (s'.tried passCodes t) := by
  obtain ⟨calls, successes, probes, accepted, changes⟩ := h
  have split := Trial.accepted_append passCodes trials [t]
  unfold Stats.tried
  by_cases shows : t.probe.showsDefect passCodes = true
  · have last : Trial.accepted passCodes [t] = [t] := by simp [Trial.accepted, shows]
    have one : Trial.total [t] = t.units := by simp [Trial.total]
    rw [if_pos shows]
    constructor <;> simp only [split, last, one, Trial.total_append, List.length_append,
      List.length_singleton] <;> omega
  · have last : Trial.accepted passCodes [t] = [] := by simp [Trial.accepted, shows]
    rw [if_neg shows]
    constructor <;> simp only [split, last, List.append_nil, List.length_append,
      List.length_singleton] <;> omega

end Stats

namespace Session

/-- What was asked since is what is new in the history. -/
theorem since_eq {session session' : Session α ω} {new : List (Probe α)}
    (history : session'.history = new ++ session.history) :
    session'.since session.history.length = new.reverse := by
  unfold since
  simp [history]

end Session

variable [Scalar α]

/-! ### Probes -/

namespace Pass

/-- What a probe asks, and how it is answered. -/
def question (c : Setup α ω) (p : Pass α ω) : Probe α :=
  let asked := p.draft.flush.toInstance c.solution
  ⟨asked, (c.oracle.ask asked p.session.state).1⟩

/-- The trial that a probe makes. -/
def trial (c : Setup α ω) (p : Pass α ω) : Trial α :=
  { units := p.batch, probe := p.question c }

/-- What the call has counted is what it has tried, and it succeeds only if the defect showed. -/
structure Accounts (passCodes : List Int) (memory : ModuleState) (trials : List (Trial α))
    (p : Pass α ω) : Prop where
  grown : memory.stats.Grown passCodes trials p.memory.stats
  success : p.success = true → Trial.accepted passCodes trials ≠ []

variable {c : Setup α ω} {memory : ModuleState} {trials : List (Trial α)} {p : Pass α ω}

/-- **A probe is counted.** -/
theorem Accounts.probe (h : p.Accounts c.params.passCodes memory trials) :
    (p.probe c).Accounts c.params.passCodes memory (trials ++ [p.trial c]) := by
  have grown := h.grown.tried (p.trial c)
  have verdict : (p.session.ask c.oracle c.params (p.draft.flush.toInstance c.solution)).1 =
      (p.question c).verdict c.params.passCodes := rfl
  unfold Stats.tried at grown
  unfold Pass.probe
  dsimp only
  rw [verdict]
  by_cases okay : (p.question c).verdict c.params.passCodes = .okay
  · have hidden : ¬(p.trial c).probe.showsDefect c.params.passCodes = true := by
      simp [Probe.showsDefect, trial, okay]
    rw [if_neg hidden] at grown
    rw [if_pos okay]
    refine ⟨grown, fun success => ?_⟩
    rw [Trial.accepted_append]
    exact List.append_ne_nil_of_left_ne_nil (h.success success) _
  · have shows : (p.trial c).probe.showsDefect c.params.passCodes = true := by
      simp [Probe.showsDefect, trial, okay]
    have last : Trial.accepted c.params.passCodes [p.trial c] = [p.trial c] := by
      simp [Trial.accepted, shows]
    rw [if_pos shows] at grown
    rw [if_neg okay]
    refine ⟨grown, fun _ => ?_⟩
    rw [Trial.accepted_append, last]
    exact List.concat_ne_nil _ _

end Pass

/-! ### Calls -/

namespace Tracked

/-- The trials that are recorded, the session of the call having begun as it is given. -/
def trials (session : Session α ω) (t : Tracked α ω υ) : List (Trial α) :=
  (t.groups.zip (t.pass.session.since session.history.length)).map fun e =>
    { units := e.1.length, probe := e.2 }

variable {c : Pass.Setup α ω} {session : Session α ω} {us : List υ} {t : Tracked α ω υ}

/-- A probe adds the trial of its batch. -/
theorem trials_probe (told : t.Tells session us) :
    (t.probe c).trials session = t.trials session ++ [t.pass.trial c] := by
  obtain ⟨new, before, length⟩ := told.history
  have after : (t.probe c).pass.session.history =
      (t.pass.question c :: new) ++ session.history := by
    show (t.pass.probe c).session.history = _
    rw [Pass.session_probe, Session.history_ask, before]
    rfl
  unfold trials Pass.trial
  have pairs : (t.groups ++ [t.begun]).zip (new.reverse ++ [t.pass.question c]) =
      t.groups.zip new.reverse ++ [(t.begun, t.pass.question c)] :=
    List.zip_append (length.symm.trans List.length_reverse.symm)
  rw [Session.since_eq before, Session.since_eq after, List.reverse_cons, told.batch]
  exact (congrArg (List.map _) pairs).trans List.map_append

omit [Scalar α] in
/-- There is a trial for each group and for each probe since the session began. -/
theorem trials_eq (told : t.Tells session us) :
    (t.trials session).map Trial.units = t.groups.map List.length ∧
      t.pass.session.history = ((t.trials session).map Trial.probe).reverse ++ session.history := by
  obtain ⟨new, history, length⟩ := told.history
  have groups : t.groups.length = new.reverse.length := length.symm.trans List.length_reverse.symm
  unfold trials
  rw [Session.since_eq history, List.map_map, List.map_map]
  constructor
  · have lengths := congrArg (List.map List.length) (List.map_fst_zip (Nat.le_of_eq groups))
    rwa [List.map_map] at lengths
  · have probes : (t.groups.zip new.reverse).map Prod.snd = new.reverse :=
      List.map_snd_zip (Nat.le_of_eq groups.symm)
    have new' : ((t.groups.zip new.reverse).map Prod.snd).reverse = new := by
      rw [probes, List.reverse_reverse]
    rw [history]
    exact congrArg (· ++ session.history) new'.symm

/-- The record is complete, and the call accounts for it. -/
structure Kept (passCodes : List Int) (memory : ModuleState) (session : Session α ω) (size : Nat)
    (t : Tracked α ω υ) : Prop where
  told : ∃ us, t.Tells session us
  filled : t.Filled size
  accounts : t.pass.Accounts passCodes memory (t.trials session)

variable {memory : ModuleState} {size : Nat}

/-- A probe counts its trial. -/
theorem accounts_probe (told : t.Tells session us)
    (h : t.pass.Accounts c.params.passCodes memory (t.trials session)) :
    (t.probe c).pass.Accounts c.params.passCodes memory ((t.probe c).trials session) := by
  rw [trials_probe told]
  exact h.probe

/-- An element that is not admissible any more is passed over. -/
theorem Kept.step (h : t.Kept c.params.passCodes memory session size) (r : Reduction α υ) (u : υ) :
    (t.step r c size u).Kept c.params.passCodes memory session size := by
  obtain ⟨⟨us, told⟩, filled, accounts⟩ := h
  by_cases admissible : r.admissible c.start t.pass.draft u = true
  · obtain ⟨told', filled'⟩ := told.step filled admissible
    refine ⟨⟨_, told'⟩, filled', ?_⟩
    have changed : (t.change r u).pass.Accounts c.params.passCodes memory
        ((t.change r u).trials session) := ⟨accounts.grown, accounts.success⟩
    rw [step_of_admissible admissible]
    split
    · exact accounts_probe (told.change r u) changed
    · exact changed
  · have same : t.step r c size u = t := if_neg admissible
    rw [same]
    exact ⟨⟨us, told⟩, filled, accounts⟩

/-- All steps of a pass keep the account. -/
theorem Kept.foldl (h : t.Kept c.params.passCodes memory session size) (r : Reduction α υ)
    (us : List υ) :
    (us.foldl (Tracked.step r c size) t).Kept c.params.passCodes memory session size :=
  List.foldlRecOn us _ h fun _ h u _ => h.step r u

/-- **In the end each group is a trial, and none of them is empty.** -/
theorem Kept.finish (h : t.Kept c.params.passCodes memory session size) :
    let t' := t.finish c
    (∃ us, t'.Tells session us) ∧ (∀ g ∈ t'.groups, 0 < g.length) ∧
      t'.pass.Accounts c.params.passCodes memory (t'.trials session) := by
  obtain ⟨⟨us, told⟩, filled, accounts⟩ := h
  obtain ⟨told', cut⟩ := told.finish (c := c) filled
  refine ⟨⟨us, told'⟩, cut.nonempty, ?_⟩
  unfold Tracked.finish
  split
  · exact accounts_probe told accounts
  · exact accounts

end Tracked

/-- What a call has counted is what it has tried.  Its trials are the probes that it adds to the
history, none of them is empty, and a success goes back to one in which the defect showed. -/
structure CallResult.Accounts (passCodes : List Int) (memory : ModuleState)
    (session : Session α ω) (trials : List (Trial α)) (res : CallResult α ω) : Prop where
  history : res.session.history = (trials.map Trial.probe).reverse ++ session.history
  asked : res.session.probes = session.probes + trials.length
  nonempty : ∀ t ∈ trials, 0 < t.units
  success : res.status = .successful → Trial.accepted passCodes trials ≠ []
  calls : res.memory.stats.calls =
    memory.stats.calls + if res.status = .didNotRun then 0 else 1
  successes : res.memory.stats.successes =
    memory.stats.successes + if res.status = .successful then 1 else 0
  probes : res.memory.stats.probes = memory.stats.probes + trials.length
  accepted : res.memory.stats.accepted =
    memory.stats.accepted + (Trial.accepted passCodes trials).length
  changes : res.memory.stats.changes =
    memory.stats.changes + Trial.total (Trial.accepted passCodes trials)

/-- The memory of a module when a call has been counted. -/
def ModuleState.counted (memory : ModuleState) : ModuleState :=
  { memory with stats := { memory.stats with calls := memory.stats.calls + 1 } }

namespace Reduction

variable (r : Reduction α υ) (o : Oracle α ω) (params : Parameters) (batches : Nat)
  (i : Instance α) (memory : ModuleState) (session : Session α ω)

/-- The record of a call keeps the account to its end. -/
theorem kept_tracked :
    let t := r.tracked o params batches i memory session
    (∃ us, t.Tells session us) ∧ (∀ g ∈ t.groups, 0 < g.length) ∧
      t.pass.Accounts params.passCodes memory (t.trials session) := by
  let c : Pass.Setup α ω :=
    { oracle := o, params := params, solution := i.solution, start := i.problem }
  let t : Tracked α ω υ :=
    { pass := ⟨.ofInstance i, .ofInstance i, 0, false, memory, session⟩, groups := [], begun := [] }
  have begun : t.Kept c.params.passCodes memory session
      (batchSize (r.eligible (.ofInstance i)).length batches) :=
    ⟨⟨[], rfl, rfl, rfl, [], rfl, rfl⟩,
      ⟨fun g mem => absurd mem List.not_mem_nil, batchSize_pos ..⟩, .refl ..,
      fun success => absurd success Bool.noConfusion⟩
  exact (begun.foldl r (r.eligible (.ofInstance i))).finish

/-- A call leaves its session and its memory as they are when its record ends. -/
theorem execute_eq_tracked :
    let res := r.execute o params batches i memory session
    let t := r.tracked o params batches i memory session
    res.session = t.pass.session ∧ res.memory = t.pass.memory ∧ res.status ≠ .didNotRun ∧
      (res.status = .successful → t.pass.success = true) := by
  intro res t
  by_cases nothing : (r.eligible (Draft.ofInstance i)).isEmpty = true
  · have executed : res = ⟨.notAdmissible, i, memory, session⟩ := if_pos nothing
    have empty : r.eligible (Draft.ofInstance i) = [] := List.isEmpty_iff.1 nothing
    have tracked : t = { pass := ⟨.ofInstance i, .ofInstance i, 0, false, memory, session⟩
                         groups := [], begun := [] } := by
      show r.tracked o params batches i memory session = _
      unfold tracked
      dsimp only
      rw [empty]
      rfl
    rw [executed, tracked]
    exact ⟨rfl, rfl, CallStatus.noConfusion, CallStatus.noConfusion⟩
  · have pass : t.pass = r.pass o params batches i memory session := r.pass_tracked ..
    have executed : res =
        let p := r.pass o params batches i memory session
        if p.success then ⟨.successful, p.base.toInstance i.solution, p.memory, p.session⟩
        else ⟨.unsuccessful, i, p.memory, p.session⟩ := if_neg nothing
    rw [executed, pass]
    dsimp only
    split
    · rename_i success
      exact ⟨rfl, rfl, CallStatus.noConfusion, fun _ => success⟩
    · exact ⟨rfl, rfl, CallStatus.noConfusion, CallStatus.noConfusion⟩

/-- The trials of a call. -/
def trials (name : String) : List (Trial α) :=
  if params.isEnabled name then
    (r.tracked o params batches i memory.counted session).trials session
  else []

/-- **A call accounts for its trials**, whether it is switched on or off. -/
theorem call_accounts (name : String) :
    (r.call name o params batches i memory session).Accounts params.passCodes memory session
      (r.trials o params batches i memory session name) := by
  unfold call trials
  by_cases enabled : params.isEnabled name = true
  · rw [if_pos enabled, if_pos enabled]
    obtain ⟨⟨us, told⟩, nonempty, accounts⟩ :=
      r.kept_tracked o params batches i memory.counted session
    obtain ⟨units, history⟩ := Tracked.trials_eq told
    obtain ⟨sameSession, sameMemory, ran, success⟩ :=
      r.execute_eq_tracked o params batches i memory.counted session
    have grown := accounts.grown
    rw [← sameMemory] at grown
    rw [← sameSession] at history
    have length := congrArg List.length units
    rw [List.length_map, List.length_map] at length
    have asked := told.probes
    rw [← sameSession, ← length] at asked
    refine ⟨history, asked, fun t mem => ?_, fun h => accounts.success (success h), ?_, ?_,
      grown.probes, grown.accepted, grown.changes⟩
    · obtain ⟨g, group, same⟩ := List.mem_map.1 (units ▸ List.mem_map_of_mem mem)
      rw [← same]
      exact nonempty g group
    · exact grown.calls.trans (congrArg (memory.stats.calls + ·) (if_neg ran).symm)
    · have before := grown.successes
      dsimp only
      split
      · exact congrArg (· + 1) before
      · exact before
  · rw [if_neg enabled, if_neg enabled]
    exact ⟨rfl, rfl, fun t mem => absurd mem List.not_mem_nil, CallStatus.noConfusion, rfl, rfl,
      rfl, rfl, rfl⟩

end Reduction
end MipShrink
