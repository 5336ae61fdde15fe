/-
# A run never faults

A run with strict look-ups goes through the same rounds as a run, over any list of modules among the
nine (`Run.reduceStrict`).  Next to the instance it has the coefficients as they are stored, and
every look-up of a coefficient is made there.

For every program that has been built, whatever the reference, the settings, the parameters, the
oracle and the state in which the run begins, the strict run ends, and as the run does
(`Run.reduceStrict_eq_ok`): no item is missed, no coefficient is written outside of the matrix,
nothing is divided by zero, and no round has more statuses than there is room for.  Only the number
of modules is tested on the way (`Run.reduceStrict_of_many`).
-/

import MipShrink.Proofs.Run.Commitment
import MipShrink.Proofs.Strict.Calls
import MipShrink.Proofs.Strict.Rounds

namespace MipShrink

variable {α ω : Type} [Scalar α]

namespace Strict

/-- How large the program is. -/
def size (t : Tolerance α) (m : Storage α) (p : Problem α) : Except Fault ProblemSize := do
  let rows ← (List.range m.nrows).mapM fun i => row m i p
  let columns ← (List.range m.ncols).mapM fun j => column j p
  return {
    rows := rows.countP fun r => !r.isRedundant
    cols := columns.countP fun c => !c.flags.fixed
    nnz := m.nnz
    nonintegral := (rows.flatMap Row.coeffs).countP fun e => !Within.integral t.epsilon e.2 }

/-- The size of a program that is backed is found without fault. -/
theorem size_eq_ok (t : Tolerance α) {m : Storage α} {p : Problem α} (h : m.Backs p) :
    size t m p = .ok (p.size t) := by
  have rows : (List.range m.nrows).mapM (fun i => row m i p) = .ok (p.rows.map id) := by
    rw [h.nrows]
    exact mapM_range_eq_ok fun i r found => row_eq_ok h found
  have columns : (List.range m.ncols).mapM (fun j => column j p) = .ok (p.columns.map id) := by
    rw [h.ncols]
    exact mapM_range_eq_ok fun j c found => column_eq_ok found
  unfold size Problem.size
  rw [rows, ok_bind, columns, ok_bind, List.map_id, List.map_id, h.nnz]
  rfl

end Strict

namespace World

/-- Call the module with the given number among some modules. -/
def callAmong (kinds : List ModuleKind) (o : Oracle α ω) (params : Parameters)
    (target : Option Settings) (k batches : Nat) (w : World α ω) :
    (CallStatus × Int) × World α ω :=
  match kinds[k]?, w.memories[k]? with
  | some kind, some memory =>
    let r := kind.call target o params batches w.inst memory w.session
    ((r.status, r.memory.effort),
      { inst := r.inst, memories := w.memories.set k r.memory, session := r.session })
  | _, _ => ((.didNotRun, -1), w)

/-- Some modules, as the loop sees them. -/
def machineOf (kinds : List ModuleKind) (o : Oracle α ω) (params : Parameters)
    (target : Option Settings) (began : Nat) : Machine (World α ω) :=
  { machine o params target began with
    count := kinds.length
    call := callAmong kinds o params target
    stats := fun w => (kinds.zip w.memories).map fun e => (e.1.name, e.2.stats) }

/-- Before the first probe of a run with some modules. -/
def startOf (kinds : List ModuleKind) (i : Instance α) (session : Session α ω) : World α ω :=
  { inst := i, memories := kinds.map fun _ => ModuleState.start, session := session }

/-- Call the module with the given number, which has to be there. -/
def callStrict (v : Conversion α) (kinds : List ModuleKind) (o : Oracle α ω) (params : Parameters)
    (target : Option Settings) (k batches : Nat) (w : World α ω × Storage α) :
    Except Fault ((CallStatus × Int) × World α ω × Storage α) := do
  let kind ← Strict.get k kinds
  let memory ← Strict.get k w.1.memories
  let (r, m) ← (kind.strict target (Scope.ofRun params w.1.inst)).call v kind.name o params batches
    w.2 w.1.inst memory w.1.session
  return ((r.status, r.memory.effort),
    { inst := r.inst, memories := w.1.memories.set k r.memory, session := r.session }, m)

/-- Some modules, as the strict loop sees them. -/
def strictMachine (v : Conversion α) (kinds : List ModuleKind) (o : Oracle α ω)
    (params : Parameters) (target : Option Settings) (began : Nat) :
    StrictMachine (World α ω × Storage α) :=
  let m := machineOf kinds o params target began
  { count := m.count
    check := fun w => ((m.check w.1).1, (m.check w.1).2, w.2)
    call := callStrict v kinds o params target
    size := fun w => Strict.size params.tolerance w.2 w.1.inst.problem
    save := fun s w => (m.save s w.1, w.2)
    stats := fun w => m.stats w.1
    probes := fun w => m.probes w.1
    elapsed := fun w => m.elapsed w.1 }

/-- The program of the world is backed, and every module has a memory. -/
structure Ready (kinds : List ModuleKind) (w : World α ω × Storage α) (x : World α ω) : Prop where
  world : w.1 = x
  backed : w.2.Backs x.inst.problem
  memories : x.memories.length = kinds.length

/-- **A module that is there is called without fault.** -/
theorem callStrict_eq_ok {v : Conversion α} (lawful : v.Lawful) {kinds : List ModuleKind}
    (o : Oracle α ω) (params : Parameters) (target : Option Settings) {k : Nat} (batches : Nat)
    {w : World α ω × Storage α} {x : World α ω} (below : k < kinds.length)
    (ready : Ready kinds w x) :
    ∃ w', callStrict v kinds o params target k batches w =
        .ok ((callAmong kinds o params target k batches x).1, w') ∧
      Ready kinds w' (callAmong kinds o params target k batches x).2 := by
  obtain ⟨w, m⟩ := w
  obtain ⟨rfl, backed, memories⟩ := ready
  have module := List.getElem?_eq_getElem below
  have remembered : k < w.memories.length := Nat.lt_of_lt_of_eq below memories.symm
  have memory := List.getElem?_eq_getElem remembered
  obtain ⟨m', called, kept⟩ := StrictReduction.call_eq_ok lawful
    (kinds[k].follows_strict target (Scope.ofRun params w.inst)) backed kinds[k].name o params
    batches w.memories[k] w.session
  unfold callStrict callAmong
  rw [Strict.get_eq_ok module, Strict.ok_bind, Strict.get_eq_ok memory, Strict.ok_bind, called,
    module, memory]
  exact ⟨_, rfl, rfl, kept, (List.length_set ..).trans memories⟩

/-- The machine with strict look-ups simulates the machine without them. -/
theorem simulates_strictMachine {v : Conversion α} (lawful : v.Lawful) (kinds : List ModuleKind)
    (o : Oracle α ω) (params : Parameters) (target : Option Settings) (began : Nat) :
    (strictMachine v kinds o params target began).Simulates (Ready kinds)
      (machineOf kinds o params target began) where
  count := rfl
  check := by
    rintro ⟨w, m⟩ _ ⟨rfl, backed, memories⟩
    exact ⟨rfl, rfl, backed, memories⟩
  call := fun batches below ready =>
    callStrict_eq_ok lawful o params target batches below ready
  size := by
    rintro ⟨w, m⟩ _ ⟨rfl, backed, -⟩
    exact Strict.size_eq_ok _ backed
  save := by
    rintro s ⟨w, m⟩ _ ⟨rfl, backed, memories⟩
    refine ⟨rfl, ?_, (congrArg List.length (w.memories_save params s)).trans memories⟩
    show m.Backs (w.save params s).inst.problem
    rw [(w.save_inst params s).1]
    exact backed
  stats := by
    rintro ⟨w, m⟩ _ ⟨rfl, -, -⟩
    rfl
  probes := by
    rintro ⟨w, m⟩ _ ⟨rfl, -, -⟩
    rfl
  elapsed := by
    rintro ⟨w, m⟩ _ ⟨rfl, -, -⟩
    rfl

end World

namespace Run

/-- Run some modules on an instance from a state. -/
def reduceWith (kinds : List ModuleKind) (o : Oracle α ω) (params : Parameters)
    (target : Option Settings) (s : RunState) (i : Instance α) (session : Session α ω) :
    Summary × World α ω :=
  (World.machineOf kinds o params target (o.clock session.state)).run params s
    (World.startOf kinds i session)

/-- Run some modules with strict look-ups, the coefficients being stored from the start. -/
def reduceStrict (v : Conversion α) (kinds : List ModuleKind) (o : Oracle α ω)
    (params : Parameters) (target : Option Settings) (s : RunState) (i : Instance α)
    (session : Session α ω) : Except Fault (Summary × World α ω × Storage α) :=
  (World.strictMachine v kinds o params target (o.clock session.state)).run params s
    (World.startOf kinds i session, Storage.ofProblem v i.problem)

/-- More modules than a run can hold are refused. -/
theorem reduceStrict_of_many (v : Conversion α) {kinds : List ModuleKind}
    (many : 16 < kinds.length) (o : Oracle α ω) (params : Parameters) (target : Option Settings)
    (s : RunState) (i : Instance α) (session : Session α ω) :
    reduceStrict v kinds o params target s i session = .error (.modules kinds.length) := by
  unfold reduceStrict StrictMachine.run
  exact if_pos many

/-- **A run never faults.**  For every program that has been built and at most 16 modules among the
nine, the run with strict look-ups ends as the run does, from whatever state it begins; with all
nine modules it is the run of this library. -/
theorem reduceStrict_eq_ok {v : Conversion α} (lawful : v.Lawful) {b : Builder α} {p : Problem α}
    (built : b.build = .ok p) {kinds : List ModuleKind} (few : kinds.length ≤ 16)
    (settings : Settings) (solution : Solution α) (target : Option Settings) (o : Oracle α ω)
    (params : Parameters) (s : RunState) (session : Session α ω) :
    let i : Instance α := { settings := settings, problem := p, solution := solution }
    (∃ m, reduceStrict v kinds o params target s i session =
      .ok ((reduceWith kinds o params target s i session).1,
        (reduceWith kinds o params target s i session).2, m)) ∧
    reduceWith ModuleKind.all o params target s i session =
      reduce o params target s i session := by
  intro i
  have backed : (Storage.ofProblem v p).Backs p := Storage.backs_ofProblem lawful
    (Builder.canonical_build built) (Builder.lt_ncols_of_build built)
  have ready : World.Ready kinds (World.startOf kinds i session, Storage.ofProblem v p)
      (World.startOf kinds i session) := ⟨rfl, backed, List.length_map ..⟩
  obtain ⟨⟨w, m⟩, ran, ended⟩ := StrictMachine.run_eq_ok
    (World.simulates_strictMachine lawful kinds o params target (o.clock session.state)) few params
    s ready
  obtain rfl : w = _ := ended.world
  exact ⟨⟨m, ran⟩, rfl⟩

/-- Sixteen modules, the last of them in use before the others, and a reference of the wrong
length. -/
theorem reduceStrict_eq_ok_crowded :
    let b : Builder Rat :=
      (((Builder.start "pair" 2 2).addEntry 0 0 (3 / 2)).addEntry 0 1 1).addEntry 1 1 (-2)
    let kinds := ModuleKind.all ++ ModuleKind.all.take 7
    let i : Instance Rat :=
      { settings := {}, problem := b.toProblem, solution := ⟨.feasible, [1, 2, 3], [4]⟩ }
    let o : Oracle Rat Unit := .ofFunction fun _ => ⟨⟨1⟩, .unknown, 1⟩
    let params := { Parameters.standard with firstStage := 12, maxStages := 400, expenditure := 5 }
    let run := reduceWith kinds o params none (RunState.start params) i (.start () .empty)
    b.build = .ok b.toProblem ∧ kinds.length = 16 ∧
      ∃ m, reduceStrict (.sorting Rat) kinds o params none (RunState.start params) i
        (.start () .empty) = .ok (run.1, run.2, m) := by
  intro b kinds i o params run
  have built : b.build = .ok b.toProblem :=
    (Builder.build_eq_ok_iff b _).2 ⟨by decide +kernel, rfl⟩
  have many : kinds.length = 16 := rfl
  exact ⟨built, many, (reduceStrict_eq_ok Conversion.lawful_sorting built (Nat.le_of_eq many) {}
    ⟨.feasible, [1, 2, 3], [4]⟩ none o params (RunState.start params) (.start () .empty)).1⟩

end Run
end MipShrink
