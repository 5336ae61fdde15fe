/-
# The statistics add up

A run keeps four sets of counters: its session counts the probes, every module counts its calls and
what became of them, every round lists the statuses of its calls, and the summary tells whether
something has been reduced.  They are changed in different places, and agree at the end of every run
from the beginning (`Run.statistics_add_up`).

What a module has counted is compared with the calls of the run: with their statuses, which are
those that the rounds list (`Machine.statuses_called`), and with the trials that they have made.
The step is one call, which accounts for its trials (`Stats.Counts.call`).
-/

import MipShrink.Proofs.Reduction.Trials
import MipShrink.Proofs.Run.Recording

namespace MipShrink

variable {α ω σ : Type}

/-! ### The statuses of a module -/

namespace Called

/-- The statuses of the calls of the module with the given number. -/
def statuses (j : Nat) (calls : List (Called σ)) : List CallStatus :=
  (calls.filter fun c => c.module == j).map status

/-- The statuses of two parts are put together. -/
theorem statuses_append (j : Nat) (l l' : List (Called σ)) :
    statuses j (l ++ l') = statuses j l ++ statuses j l' := by
  unfold statuses
  rw [List.filter_append, List.map_append]

/-- A call counts for its own module only. -/
theorem statuses_singleton (j : Nat) (c : Called σ) :
    statuses j [c] = if c.module = j then [c.status] else [] := by
  unfold statuses
  by_cases own : c.module = j <;> simp [own]

end Called

namespace Machine

variable (m : Machine σ) (l : Limits)

/-- The calls of a round from module `k` on are recorded in their order, one for each module. -/
theorem statuses_calls (left k : Nat) (s : RunState) (w : σ) (calls : List (Called σ)) :
    ∃ new, (m.recording.calls l left k s (w, calls)).2.2.2 = calls ++ new ∧
      ∀ j, Called.statuses j new =
        if j < k then [] else ((m.recording.calls l left k s (w, calls)).1[j - k]?).toList := by
  induction left generalizing k s w calls with
  | zero => exact ⟨[], (List.append_nil _).symm, fun j => by simp [Called.statuses, Machine.calls]⟩
  | succ left ih =>
    rw [Machine.calls]
    split
    · obtain ⟨new, recorded, statuses⟩ := ih (k + 1)
        (s.afterCall l.expenditure k (m.call k s.batches w).1.1 (m.call k s.batches w).1.2)
        (m.call k s.batches w).2 (calls ++ [m.record k s.batches w])
      refine ⟨m.record k s.batches w :: new, ?_, fun j => ?_⟩
      · rw [List.append_assoc] at recorded
        exact recorded
      · have first : (m.record k s.batches w).module = k := rfl
        rw [← List.singleton_append, Called.statuses_append, Called.statuses_singleton, statuses,
          first]
        rcases Nat.lt_trichotomy j k with below | rfl | above
        · rw [if_neg (by omega), if_pos (by omega), if_pos below]
          rfl
        · rw [if_pos rfl, if_pos (by omega), if_neg (by omega), Nat.sub_self]
          rfl
        · have later : j - k = j - (k + 1) + 1 := by omega
          rw [if_neg (by omega), if_neg (by omega), if_neg (by omega), later]
          rfl
    · exact ⟨[], (List.append_nil _).symm, fun j => by simp [Called.statuses]⟩

/-- A round records the calls that it lists. -/
theorem statuses_round (s : RunState) (w : σ) (calls : List (Called σ)) :
    let r := m.recording.round l s (w, calls)
    ∃ new, r.2.2.2 = calls ++ new ∧ ∀ j, Called.statuses j new = (r.1.statuses[j]?).toList := by
  obtain ⟨new, recorded, statuses⟩ := m.statuses_calls l l.maxStages 0 s w calls
  exact ⟨new, recorded, statuses⟩

/-- Rounds record the calls that they list. -/
theorem statuses_rounds (left : Nat) (s : RunState) (w : σ) (calls : List (Called σ)) :
    let r := m.recording.rounds l left s (w, calls)
    ∃ new, r.2.2.2 = calls ++ new ∧
      ∀ j, Called.statuses j new = r.1.filterMap fun r => r.statuses[j]? := by
  induction left generalizing s w calls with
  | zero => exact ⟨[], (List.append_nil _).symm, fun j => rfl⟩
  | succ left ih =>
    dsimp only
    rw [rounds]
    split
    · obtain ⟨new, recorded, statuses⟩ := m.statuses_round l s w calls
      generalize m.recording.round l s (w, calls) = r at recorded statuses ⊢
      obtain ⟨record, s', w', calls'⟩ := r
      obtain rfl : calls' = calls ++ new := recorded
      by_cases ended : l.isOver (m.recording.elapsed (w', calls ++ new)) = true
      · rw [if_pos ended]
        refine ⟨new, rfl, fun j => ?_⟩
        rw [statuses]
        cases found : record.statuses[j]? <;> simp [found]
      · rw [if_neg ended]
        obtain ⟨rest, recorded', statuses'⟩ := ih s' w' (calls ++ new)
        refine ⟨new ++ rest, recorded'.trans (List.append_assoc ..), fun j => ?_⟩
        rw [Called.statuses_append, statuses, statuses']
        cases found : record.statuses[j]? <;> simp [found]
    · exact ⟨[], (List.append_nil _).symm, fun j => rfl⟩

/-- **The rounds list the statuses of all calls**, those of a module at its place. -/
theorem statuses_called (p : Parameters) (s : RunState) (w : σ) (j : Nat) :
    Called.statuses j (m.called p s w) =
      (m.run p s w).1.rounds.filterMap fun r => r.statuses[j]? := by
  have none : (m.recording.opening p (w, [])).2.2 = [] := by
    unfold opening
    split <;> rfl
  rw [m.run_recording p s w []]
  show Called.statuses j (m.recording.body p s (m.recording.opening p (w, []))).2.2.2 =
    (m.recording.body p s (m.recording.opening p (w, []))).1.filterMap fun r => r.statuses[j]?
  unfold body
  split
  · show Called.statuses j (m.recording.opening p (w, [])).2.2 = []
    rw [none]
    rfl
  · obtain ⟨new, recorded, statuses⟩ := m.statuses_rounds (m.recording.limits p)
      (p.maxRounds - s.round) s (m.recording.opening p (w, [])).2.1
      (m.recording.opening p (w, [])).2.2
    have all : (m.recording.loop p s (m.recording.opening p (w, [])).2).2.2.2 =
      (m.recording.opening p (w, [])).2.2 ++ new := recorded
    rw [all, none, List.nil_append]
    exact statuses j

end Machine

/-! ### What a module has counted -/

namespace Stats

/-- The counters of a module whose calls have had the given statuses and made the given trials. -/
structure Counts (passCodes : List Int) (statuses : List CallStatus) (trials : List (Trial α))
    (s : Stats) : Prop where
  calls : s.calls = statuses.countP fun status => status != .didNotRun
  successes : s.successes = statuses.count .successful
  probes : s.probes = trials.length
  accepted : s.accepted = (Trial.accepted passCodes trials).length
  changes : s.changes = Trial.total (Trial.accepted passCodes trials)
  successes_le : s.successes ≤ s.accepted
  nonempty : ∀ t ∈ trials, 0 < t.units

variable {passCodes : List Int} {statuses : List CallStatus} {trials : List (Trial α)}
  {memory : ModuleState}

/-- At the beginning all counters are zero. -/
theorem Counts.start (passCodes : List Int) :
    Counts passCodes [] ([] : List (Trial α)) ModuleState.start.stats :=
  ⟨rfl, rfl, rfl, rfl, rfl, Nat.le_refl _, fun _ mem => absurd mem List.not_mem_nil⟩

/-- No batch that has been accepted is empty. -/
theorem Counts.accepted_le_changes {s : Stats} (h : s.Counts passCodes statuses trials) :
    s.accepted ≤ s.changes := by
  rw [h.accepted, h.changes]
  exact Trial.length_le_total fun t mem => h.nonempty t (List.mem_filter.1 mem).1

/-- There are no more accepted batches than probes. -/
theorem Counts.accepted_le_probes {s : Stats} (h : s.Counts passCodes statuses trials) :
    s.accepted ≤ s.probes := by
  rw [h.accepted, h.probes]
  exact List.length_filter_le ..

/-- **A call adds its status and its trials.** -/
theorem Counts.call (h : memory.stats.Counts passCodes statuses trials) {session : Session α ω}
    {new : List (Trial α)} {res : CallResult α ω}
    (accounts : res.Accounts passCodes memory session new) :
    res.memory.stats.Counts passCodes (statuses ++ [res.status]) (trials ++ new) where
  calls := by
    rw [accounts.calls, h.calls, List.countP_append]
    by_cases idle : res.status = .didNotRun <;> simp [idle]
  successes := by
    rw [accounts.successes, h.successes, List.count_append]
    by_cases successful : res.status = .successful <;> simp [successful]
  probes := by
    rw [accounts.probes, h.probes, List.length_append]
  accepted := by
    rw [accounts.accepted, h.accepted, Trial.accepted_append, List.length_append]
  changes := by
    rw [accounts.changes, h.changes, Trial.accepted_append, Trial.total_append]
  successes_le := by
    have before := h.successes_le
    rw [accounts.successes, accounts.accepted]
    by_cases successful : res.status = .successful
    · have some := List.length_pos_iff.2 (accounts.success successful)
      rw [if_pos successful]
      omega
    · rw [if_neg successful]
      omega
  nonempty t mem := by
    rcases List.mem_append.1 mem with mem | mem
    · exact h.nonempty t mem
    · exact accounts.nonempty t mem

end Stats

variable [Scalar α]

namespace World

/-- The trials of a call of the module with the given number. -/
def trials (o : Oracle α ω) (params : Parameters) (target : Option Settings) (k batches : Nat)
    (w : World α ω) : List (Trial α) :=
  match ModuleKind.all[k]?, w.memories[k]? with
  | some kind, some memory =>
    (kind.reduction target (Scope.ofRun params w.inst)).reduction.trials o params batches w.inst
      memory w.session kind.name
  | _, _ => []

/-- **A call of a module that is there accounts for its trials**; any other call does nothing. -/
theorem call_cases (o : Oracle α ω) (params : Parameters) (target : Option Settings)
    (k batches : Nat) (w : World α ω) :
    (∃ (memory : ModuleState) (res : CallResult α ω), w.memories[k]? = some memory ∧
      res.Accounts params.passCodes memory w.session (w.trials o params target k batches) ∧
      w.call o params target k batches = ((res.status, res.memory.effort),
        { inst := res.inst, memories := w.memories.set k res.memory, session := res.session })) ∨
    (ModuleKind.all[k]? = none ∨ w.memories[k]? = none) ∧
      w.trials o params target k batches = [] ∧
      w.call o params target k batches = ((.didNotRun, -1), w) := by
  unfold call trials
  cases found : ModuleKind.all[k]? with
  | none => exact .inr ⟨.inl rfl, rfl, rfl⟩
  | some kind =>
    cases remembered : w.memories[k]? with
    | none => exact .inr ⟨.inr rfl, rfl, rfl⟩
    | some memory =>
      exact .inl ⟨memory, kind.call target o params batches w.inst memory w.session, rfl,
        Reduction.call_accounts .., rfl⟩

end World

namespace Called

/-- The trials of a call. -/
def trials (o : Oracle α ω) (params : Parameters) (target : Option Settings)
    (c : Called (World α ω)) : List (Nat × Trial α) :=
  (c.before.trials o params target c.module c.batches).map fun t => (c.module, t)

end Called

namespace Trial

/-- The trials of the module with the given number. -/
def ofModule (j : Nat) (trials : List (Nat × Trial α)) : List (Trial α) :=
  (trials.filter fun e => e.1 == j).map Prod.snd

omit [Scalar α] in
/-- The trials of two parts are put together. -/
theorem ofModule_append (j : Nat) (l l' : List (Nat × Trial α)) :
    ofModule j (l ++ l') = ofModule j l ++ ofModule j l' := by
  unfold ofModule
  rw [List.filter_append, List.map_append]

omit [Scalar α] in
/-- The trials of a call belong to its module. -/
theorem ofModule_map (j k : Nat) (l : List (Trial α)) :
    ofModule j (l.map fun t => (k, t)) = if k = j then l else [] := by
  unfold ofModule
  by_cases own : k = j <;> simp [List.filter_map, Function.comp_def, own]

end Trial

/-! ### The books of a run -/

/-- What one element of a list gains, the sum gains. -/
theorem sum_map_set {β : Type} (f : β → Nat) {l : List β} {k n : Nat} {a b : β}
    (place : l[k]? = some a) (gain : f b = f a + n) :
    ((l.set k b).map f).sum = (l.map f).sum + n := by
  induction l generalizing k with
  | nil => exact absurd place (Option.some_ne_none a).symm
  | cons c l ih =>
    cases k with
    | zero =>
      obtain rfl : c = a := Option.some.inj place
      rw [List.set_cons_zero, List.map_cons, List.map_cons, List.sum_cons, List.sum_cons, gain]
      omega
    | succ k =>
      rw [List.set_cons_succ, List.map_cons, List.map_cons, List.sum_cons, List.sum_cons,
        ih place]
      omega

namespace World

variable {o : Oracle α ω} {params : Parameters} {target : Option Settings} {i : Instance α}
  {opening : Session α ω} {w : World α ω} {calls : List (Called (World α ω))}

/-- The books of a run that has made some calls since its opening. -/
structure Balanced (o : Oracle α ω) (params : Parameters) (target : Option Settings)
    (i : Instance α) (opening : Session α ω) (w : World α ω) (calls : List (Called (World α ω))) :
    Prop where
  history : w.session.history =
    ((calls.flatMap (Called.trials o params target)).map fun e => e.2.probe).reverse ++
      opening.history
  asked : w.session.probes =
    opening.probes + (w.memories.map fun (memory : ModuleState) => memory.stats.probes).sum
  complete : w.memories.length = ModuleKind.all.length
  counts : ∀ j (memory : ModuleState), w.memories[j]? = some memory →
    memory.stats.Counts params.passCodes (Called.statuses j calls)
      (Trial.ofModule j (calls.flatMap (Called.trials o params target)))
  kept : (∀ (j : Nat) (memory : ModuleState), w.memories[j]? = some memory →
    memory.stats.successes = 0) → w.inst = i

/-- What a call adds to the books of a module. -/
theorem counts_concat (j k batches began : Nat) (w : World α ω)
    (calls : List (Called (World α ω))) :
    let calls' := calls ++ [(machine o params target began).record k batches w]
    Called.statuses j calls' = Called.statuses j calls ++
      (if k = j then [(w.call o params target k batches).1.1] else []) ∧
    Trial.ofModule j (calls'.flatMap (Called.trials o params target)) =
      Trial.ofModule j (calls.flatMap (Called.trials o params target)) ++
        (if k = j then w.trials o params target k batches else []) := by
  intro calls'
  constructor
  · rw [Called.statuses_append, Called.statuses_singleton]
    rfl
  · rw [List.flatMap_append, Trial.ofModule_append, List.flatMap_singleton]
    exact congrArg _ (Trial.ofModule_map j k _)

/-- The probes of a call follow those of the calls before it. -/
theorem probes_concat (o : Oracle α ω) (params : Parameters) (target : Option Settings)
    (k batches began : Nat) (w : World α ω) (calls : List (Called (World α ω))) :
    ((calls ++ [(machine o params target began).record k batches w]).flatMap
      (Called.trials o params target)).map (fun e => e.2.probe) =
      (calls.flatMap (Called.trials o params target)).map (fun e => e.2.probe) ++
        (w.trials o params target k batches).map Trial.probe := by
  rw [List.flatMap_append, List.map_append, List.flatMap_singleton]
  exact congrArg _ List.map_map

/-- If no module counts a success after a call, it has had none, and the instance is kept. -/
theorem Balanced.kept_call (h : Balanced o params target i opening w calls) {k batches : Nat}
    {memory : ModuleState} {res : CallResult α ω} (remembered : w.memories[k]? = some memory)
    (accounts : res.Accounts params.passCodes memory w.session (w.trials o params target k batches))
    (called : w.call o params target k batches = ((res.status, res.memory.effort),
      { inst := res.inst, memories := w.memories.set k res.memory, session := res.session }))
    (none : ∀ (j : Nat) (memory' : ModuleState),
      (w.memories.set k res.memory)[j]? = some memory' → memory'.stats.successes = 0) :
    (w.call o params target k batches).2.inst = i := by
  obtain ⟨inside, -⟩ := List.getElem?_eq_some_iff.1 remembered
  have gain := accounts.successes
  rw [none k res.memory (List.getElem?_set_self inside)] at gain
  have failed : res.status ≠ .successful := by
    intro successful
    rw [if_pos successful] at gain
    omega
  rw [if_neg failed] at gain
  have failed' : (w.call o params target k batches).1.1 ≠ .successful := by
    rw [called]
    exact failed
  rw [inst_call_of_failed failed']
  refine h.kept fun j memory' place => ?_
  rcases eq_or_ne k j with rfl | other
  · obtain rfl : memory = memory' := Option.some.inj (remembered.symm.trans place)
    omega
  · exact none j memory' ((List.getElem?_set_ne other).trans place)

/-- A call of a module that is there is entered in the books of that module only. -/
theorem Balanced.call_present (h : Balanced o params target i opening w calls) {k batches : Nat}
    {memory : ModuleState} {res : CallResult α ω} (remembered : w.memories[k]? = some memory)
    (accounts : res.Accounts params.passCodes memory w.session (w.trials o params target k batches))
    (called : w.call o params target k batches = ((res.status, res.memory.effort),
      { inst := res.inst, memories := w.memories.set k res.memory, session := res.session }))
    (began : Nat) :
    Balanced o params target i opening (w.call o params target k batches).2
      (calls ++ [(machine o params target began).record k batches w]) := by
  obtain ⟨inside, -⟩ := List.getElem?_eq_some_iff.1 remembered
  constructor
  case history =>
    rw [probes_concat, List.reverse_append, List.append_assoc, ← h.history, called]
    exact accounts.history
  case asked =>
    have sum := sum_map_set (fun memory : ModuleState => memory.stats.probes) remembered
      accounts.probes
    have asked := accounts.asked
    have before := h.asked
    rw [called]
    dsimp only
    omega
  case complete =>
    rw [called]
    exact (List.length_set ..).trans h.complete
  case counts =>
    intro j memory' place
    obtain ⟨statuses, trials⟩ := counts_concat (o := o) j k batches began w calls
    rw [statuses, trials, called]
    rw [called] at place
    rcases eq_or_ne k j with rfl | other
    · obtain rfl : res.memory = memory' :=
        Option.some.inj ((List.getElem?_set_self inside).symm.trans place)
      rw [if_pos rfl, if_pos rfl]
      exact (h.counts k memory remembered).call accounts
    · rw [if_neg other, if_neg other, List.append_nil, List.append_nil]
      exact h.counts j memory' ((List.getElem?_set_ne other).symm.trans place)
  case kept =>
    intro none
    refine h.kept_call remembered accounts called fun j memory' place => none j memory' ?_
    rw [called]
    exact place

/-- A call of a module that is missing leaves the books as they are. -/
theorem Balanced.call_missing (h : Balanced o params target i opening w calls) {k batches : Nat}
    (missing : ModuleKind.all[k]? = none ∨ w.memories[k]? = none)
    (nothing : w.trials o params target k batches = [])
    (called : w.call o params target k batches = ((.didNotRun, -1), w)) (began : Nat) :
    Balanced o params target i opening (w.call o params target k batches).2
      (calls ++ [(machine o params target began).record k batches w]) := by
  constructor
  case history =>
    rw [probes_concat, nothing, called]
    exact (List.append_nil _).symm ▸ h.history
  case asked => exact called ▸ h.asked
  case complete => exact called ▸ h.complete
  case counts =>
    intro j memory place
    rw [called] at place
    have other : k ≠ j := by
      -- There are as many memories as modules, so that both are missing at place `k`.
      rintro rfl
      have inside : k < ModuleKind.all.length :=
        h.complete ▸ (List.getElem?_eq_some_iff.1 place).1
      rcases missing with missing | missing
      · exact absurd (List.getElem?_eq_none_iff.1 missing) (Nat.not_le_of_lt inside)
      · exact Option.some_ne_none memory (place.symm.trans missing)
    obtain ⟨statuses, trials⟩ := counts_concat (o := o) j k batches began w calls
    rw [statuses, trials, if_neg other, if_neg other, List.append_nil, List.append_nil]
    exact h.counts j memory place
  case kept => exact called ▸ h.kept

/-- **A call keeps the books balanced.** -/
theorem Balanced.call (h : Balanced o params target i opening w calls) (k batches began : Nat) :
    Balanced o params target i opening (w.call o params target k batches).2
      (calls ++ [(machine o params target began).record k batches w]) := by
  rcases w.call_cases o params target k batches with
    ⟨memory, res, remembered, accounts, called⟩ | ⟨missing, nothing, called⟩
  · exact h.call_present remembered accounts called began
  · exact h.call_missing missing nothing called began

omit [Scalar α] in
/-- Saving a run is no probe. -/
theorem probes_save (params : Parameters) (s : RunState) (w : World α ω) :
    (w.save params s).session.probes = w.session.probes := by
  unfold World.save
  split
  · rfl
  · split <;> rfl

/-- Saving a run keeps the balance. -/
theorem Balanced.save (h : Balanced o params target i opening w calls) (s : RunState) :
    Balanced o params target i opening (w.save params s) calls := by
  obtain ⟨inst, history⟩ := w.save_inst params s
  have memories := w.memories_save params s
  refine ⟨history ▸ h.history, ?_, memories ▸ h.complete, memories ▸ h.counts, ?_⟩
  · rw [probes_save, memories]
    exact h.asked
  · rw [inst, memories]
    exact h.kept

/-- At the beginning the balance is zero. -/
theorem Balanced.start (o : Oracle α ω) (params : Parameters) (target : Option Settings)
    (i : Instance α) (session : Session α ω) :
    Balanced o params target i session (World.start i session) [] where
  history := rfl
  asked := rfl
  complete := List.length_map _
  counts j memory place := by
    obtain ⟨kind, -, rfl⟩ := List.mem_map.1 (List.mem_of_getElem? place)
    exact .start params.passCodes
  kept _ := rfl

omit [Scalar α] in
/-- The statistics of a world list what its modules have counted. -/
theorem stats_getElem? {m : Nat} {name : String} {stats : Stats}
    (listed : w.stats[m]? = some (name, stats)) :
    ∃ memory : ModuleState, w.memories[m]? = some memory ∧ memory.stats = stats := by
  unfold World.stats at listed
  rw [List.getElem?_map, Option.map_eq_some_iff] at listed
  obtain ⟨⟨kind, memory⟩, zipped, same⟩ := listed
  exact ⟨memory, (List.getElem?_zip_eq_some.1 zipped).2, congrArg Prod.snd same⟩

omit [Scalar α] in
/-- The statistics list the modules in order, each with its counters. -/
theorem stats_map (complete : w.memories.length = ModuleKind.all.length) :
    w.stats.map Prod.fst = ModuleKind.all.map ModuleKind.name ∧
      w.stats.map (fun m => m.2) = w.memories.map fun (memory : ModuleState) => memory.stats := by
  unfold World.stats
  rw [List.map_map, List.map_map]
  constructor
  · have kinds : (ModuleKind.all.zip w.memories).map Prod.fst = ModuleKind.all :=
      List.map_fst_zip (Nat.le_of_eq complete.symm)
    have names := congrArg (List.map ModuleKind.name) kinds
    rwa [List.map_map] at names
  · have memories : (ModuleKind.all.zip w.memories).map Prod.snd = w.memories :=
      List.map_snd_zip (Nat.le_of_eq complete)
    have counters := congrArg (List.map ModuleState.stats) memories
    rwa [List.map_map] at counters

end World

/-- The counters of the module with the given number agree with the statuses that the rounds list at
its place and with the trials that it has made. -/
structure Stats.Tallies (passCodes : List Int) (rounds : List RoundRecord)
    (trials : List (Trial α)) (m : Nat) (s : Stats) : Prop where
  calls : s.calls = rounds.countP fun r => (r.statuses[m]?).any (· != .didNotRun)
  successes : s.successes = rounds.countP fun r => r.statuses[m]? == some .successful
  probes : s.probes = trials.length
  accepted : s.accepted = (Trial.accepted passCodes trials).length
  changes : s.changes = Trial.total (Trial.accepted passCodes trials)
  successes_le : s.successes ≤ s.accepted
  accepted_le_changes : s.accepted ≤ s.changes
  accepted_le_probes : s.accepted ≤ s.probes

omit [Scalar α] in
/-- Counters that fit the calls of a module tally with its rounds and trials. -/
theorem Stats.Counts.tallies {passCodes : List Int} {rounds : List RoundRecord}
    {trials : List (Trial α)} {m : Nat} {s : Stats}
    (h : s.Counts passCodes (rounds.filterMap fun r => r.statuses[m]?) trials) :
    s.Tallies passCodes rounds trials m where
  calls := by
    rw [h.calls, List.countP_filterMap]
    refine List.countP_congr fun r _ => ?_
    cases r.statuses[m]? <;> simp
  successes := by
    rw [h.successes, List.count_filterMap]
  probes := h.probes
  accepted := h.accepted
  changes := h.changes
  successes_le := h.successes_le
  accepted_le_changes := h.accepted_le_changes
  accepted_le_probes := h.accepted_le_probes

namespace Run

variable (o : Oracle α ω) (params : Parameters) (target : Option Settings) (s : RunState)
  (i : Instance α)

/-- The trials of a run in their order, each with the number of its module. -/
def trials (session : Session α ω) : List (Nat × Trial α) :=
  ((World.machine o params target (o.clock session.state)).called params s
    (World.start i session)).flatMap (Called.trials o params target)

/-- **The books of a run are balanced in the end.** -/
theorem balanced (session : Session α ω) :
    let m := World.machine o params target (o.clock session.state)
    World.Balanced o params target i (opened o params target i session).session
      (reduce o params target s i session).2 (m.called params s (World.start i session)) := by
  intro m
  have begun : World.Balanced o params target i (opened o params target i session).session
      (m.recording.opening params (World.start i session, [])).2.1
      (m.recording.opening params (World.start i session, [])).2.2 := by
    unfold opened Machine.opening
    split
    · exact .start o params target i session
    · exact .start o params target i (session.ask o params i).2
  have ended : World.Balanced o params target i (opened o params target i session).session
      (m.recording.run params s (World.start i session, [])).2.1
      (m.recording.run params s (World.start i session, [])).2.2 :=
    Machine.run_keeps (m := m.recording)
      (P := fun v => World.Balanced o params target i (opened o params target i session).session
        v.1 v.2)
      (fun k b v h => h.call k b _) (fun s v h => h.save s) begun
  have recorded : (reduce o params target s i session).2 =
      (m.recording.run params s (World.start i session, [])).2.1 :=
    congrArg Prod.snd (m.run_recording params s (World.start i session) [])
  rw [recorded]
  exact ended

/-- The opening makes the probe of the check, if there is one. -/
theorem opened_session (state : ω) (files : FileStore α) :
    let session := Session.start state files
    let initial := (reduce o params target s i session).1.initial
    (opened o params target i session).session.history =
      (if initial.isSome then [⟨i, (o.ask i state).1⟩] else []) ∧
    (opened o params target i session).session.probes = if initial.isSome then 1 else 0 := by
  intro session initial
  let m := World.machine o params target (o.clock state)
  by_cases unchecked : params.mode = .reduceOnly
  · have opening : m.opening params (World.start i session) = (none, World.start i session) :=
      if_pos unchecked
    have first : initial = none := congrArg Prod.fst opening
    have second : opened o params target i session = World.start i session :=
      congrArg Prod.snd opening
    rw [first, second]
    exact ⟨rfl, rfl⟩
  · let asked := session.ask o params i
    have opening : m.opening params (World.start i session) =
      (some asked.1, World.start i asked.2) := if_neg unchecked
    have first : initial = some asked.1 := congrArg Prod.fst opening
    have second : opened o params target i session = World.start i asked.2 :=
      congrArg Prod.snd opening
    rw [first, second]
    exact ⟨rfl, rfl⟩

/-- **The statistics add up**, after a run from the beginning.

The history is what the trials and the check at the start, if it was made, have asked, and nothing
else.  The probes are those of the modules and the check.  The statistics are those of the nine
modules.  Each of them has been called as often as the rounds list it with a status that says that
it ran, and has been successful as often as they say so.  It counts its trials, those in which the
defect showed, and the elements that it has changed in these.  If none of them has been successful
then the instance is the one at the start. -/
theorem statistics_add_up (state : ω) (files : FileStore α) :
    let session := Session.start state files
    let r := reduce o params target s i session
    let summary := r.1
    let trials := trials o params target s i session
    let check : List (Probe α) :=
      if summary.initial.isSome then [⟨i, (o.ask i state).1⟩] else []
    r.2.session.history = (trials.map fun e => e.2.probe).reverse ++ check ∧
      summary.probes = (summary.modules.map fun m => m.2.probes).sum +
        (if summary.initial.isSome then 1 else 0) ∧
      summary.modules.map Prod.fst = ModuleKind.all.map ModuleKind.name ∧
      (∀ (m : Nat) (name : String) (stats : Stats), summary.modules[m]? = some (name, stats) →
        stats.Tallies params.passCodes summary.rounds (Trial.ofModule m trials) m) ∧
      (summary.reduced = false → r.2.inst = i) := by
  intro session r summary trials check
  have books := balanced o params target s i session
  obtain ⟨history, probes⟩ := opened_session o params target s i state files
  obtain ⟨names, counters⟩ := World.stats_map books.complete
  have listed : summary.modules = r.2.stats := rfl
  refine ⟨?_, ?_, names, fun m name stats place => ?_, fun unreduced => ?_⟩
  · exact books.history.trans (congrArg (_ ++ ·) history)
  · have sum : (summary.modules.map fun m => m.2.probes) =
        r.2.memories.map fun (memory : ModuleState) => memory.stats.probes := by
      have fields := congrArg (List.map Stats.probes) counters
      rwa [List.map_map, List.map_map] at fields
    rw [sum, Nat.add_comm]
    exact books.asked.trans (congrArg (· + _) probes)
  · obtain ⟨memory, remembered, rfl⟩ := World.stats_getElem? place
    have counts := books.counts m memory remembered
    rw [Machine.statuses_called] at counts
    exact counts.tallies
  · refine books.kept fun j memory remembered => ?_
    have counted : memory.stats ∈ summary.modules.map fun m => m.2 := by
      rw [listed, counters]
      exact List.mem_map_of_mem (List.mem_of_getElem? remembered)
    obtain ⟨e, mem, same⟩ := List.mem_map.1 counted
    have failed := List.any_eq_false.1 unreduced e mem
    rw [← same]
    simpa using failed

end Run
end MipShrink
