/-
# Calls without a buffer

A *direct* reduction changes an instance at once, its coefficients included.  A direct call makes
each batch from the last accepted instance: it applies the units one by one until the batch is
full, asks the oracle, and goes on with the batch as the accepted instance or without it.  There is
no draft and nothing waits to be written.

Six of the reductions change no coefficient, and are direct as they stand (`Reduction.direct`).
The other three note what becomes of coefficients; as direct reductions they write it.
-/

import MipShrink.Modules

namespace MipShrink

variable {α ω υ : Type}

/-- A way of simplifying an instance that changes it at once. -/
structure DirectReduction (α υ : Type) where
  candidates : Problem α → Settings → List υ
  /-- Is the element worth changing?  The first argument is the program when the call began. -/
  admissible : Problem α → Instance α → υ → Bool
  apply : υ → Instance α → Instance α

/-- A batch: the instance with its units applied, how many they are, and the units after it. -/
structure Batch (α υ : Type) where
  inst : Instance α
  count : Nat
  rest : List υ

/-- What a call leaves behind, its counters apart. -/
structure Outcome (α ω : Type) where
  status : CallStatus
  inst : Instance α
  session : Session α ω

/-- The outcome of a call. -/
def CallResult.outcome (r : CallResult α ω) : Outcome α ω :=
  { status := r.status, inst := r.inst, session := r.session }

namespace DirectReduction

/-- Apply units one by one to an instance to which `n` units of the batch have been applied, until
they are `size`.  A unit that is not admissible any more is passed over. -/
def fill (q : DirectReduction α υ) (start : Problem α) (size : Nat) :
    List υ → Nat → Instance α → Batch α υ
  | [], n, x => { inst := x, count := n, rest := [] }
  | u :: us, n, x =>
    if q.admissible start x u then
      if size ≤ n + 1 then { inst := q.apply u x, count := n + 1, rest := us }
      else q.fill start size us (n + 1) (q.apply u x)
    else q.fill start size us n x

/-- A batch leaves no more elements than there were. -/
theorem length_rest_fill_le (q : DirectReduction α υ) (start : Problem α) (size : Nat)
    (us : List υ) (n : Nat) (x : Instance α) :
    (q.fill start size us n x).rest.length ≤ us.length := by
  induction us generalizing n x with
  | nil => exact Nat.le_refl _
  | cons u us ih =>
    rw [fill]
    split
    · split
      · exact Nat.le_succ _
      · exact Nat.le_succ_of_le (ih _ _)
    · exact Nat.le_succ_of_le (ih _ _)

/-- A batch to which a unit has been added leaves fewer units. -/
theorem length_rest_fill_lt (q : DirectReduction α υ) (start : Problem α) (size : Nat)
    (us : List υ) (n : Nat) (x : Instance α) (added : (q.fill start size us n x).count ≠ n) :
    (q.fill start size us n x).rest.length < us.length := by
  induction us generalizing n x with
  | nil => exact absurd rfl added
  | cons u us ih =>
    rw [fill] at added ⊢
    split
    · split
      · exact Nat.lt_succ_self _
      · exact Nat.lt_succ_of_le (length_rest_fill_le ..)
    · rename_i passed
      rw [if_neg passed] at added
      exact Nat.lt_succ_of_lt (ih n x added)

variable [Scalar α]

/-- Try batch after batch.  Each is made from the instance that was accepted last, which is the
input as long as none was. -/
def search (q : DirectReduction α υ) (o : Oracle α ω) (params : Parameters) (input : Instance α)
    (size : Nat) (us : List υ) (accepted : Option (Instance α)) (session : Session α ω) :
    Option (Instance α) × Session α ω :=
  let batch := q.fill input.problem size us 0 (accepted.getD input)
  if batch.count = 0 then (accepted, session)
  else
    let r := session.ask o params batch.inst
    q.search o params input size batch.rest (if r.1 = .okay then accepted else some batch.inst) r.2
termination_by us.length
decreasing_by
  exact q.length_rest_fill_lt input.problem size us 0 (accepted.getD input) ‹_›

/-- A call of a direct reduction on an instance. -/
def execute (q : DirectReduction α υ) (o : Oracle α ω) (params : Parameters) (batches : Nat)
    (i : Instance α) (session : Session α ω) : Outcome α ω :=
  let us := (q.candidates i.problem i.settings).filter (q.admissible i.problem i)
  if us.isEmpty then { status := .notAdmissible, inst := i, session := session }
  else
    match q.search o params i (batchSize us.length batches) us none session with
    | (some x, session) => { status := .successful, inst := x, session := session }
    | (none, session) => { status := .unsuccessful, inst := i, session := session }

end DirectReduction

namespace Instance

/-- The instance with its program changed. -/
def mapProblem (f : Problem α → Problem α) (i : Instance α) : Instance α :=
  { i with problem := f i.problem }

end Instance

namespace Reduction

/-- A reduction that changes no coefficients, as a direct one. -/
def direct (r : Reduction α υ) : DirectReduction α υ :=
  { candidates := r.candidates
    admissible := fun start i u => r.admissible start (Draft.ofInstance i) u
    apply := fun u i => (r.apply u (Draft.ofInstance i)).toInstance i.solution }

end Reduction

variable [Scalar α]

namespace Row

/-- The row with the value `x` put in for column `j`. -/
def putIn (j : Nat) (x : α) (r : Row α) : Row α :=
  match r.coeff? j with
  | some a => (r.shift (a * x)).setCoeff j 0
  | none => r

/-- A coefficient rounded, unless it is equal to its nearest integer. -/
def nearest (a : α) : α :=
  if Scalar.round a == a then a else Scalar.round a

/-- The row with its coefficients rounded and those that become zero removed. -/
def roundEntries (r : Row α) : Row α :=
  dropZeros { r with coeffs := r.coeffs.map fun e => (e.1, nearest e.2) }

/-- The row made integral, with its sides outside of the activity at the point. -/
def makeIntegral (tol : α) (point : Option (List α)) (r : Row α) : Row α :=
  Reduction.roundSides tol (point.map fun x => (Reduction.roundCoeffs r).activity x) r.roundEntries

end Row

namespace Problem

/-- The program with its column `j` fixed at a value, which is put in everywhere. -/
def eliminate (j : Nat) (p : Problem α) : Problem α :=
  match p.columns[j]? with
  | none => p
  | some c =>
    let x := Reduction.singleValue c
    { p with
      offset := p.offset + c.cost * x
      columns := p.columns.modify j (Reduction.fixColumn x)
      rows := p.rows.map (Row.putIn j x) }

end Problem

namespace DirectReduction

/-- Take out columns with a single value. -/
def fixing (s : Scope α) : DirectReduction α Nat :=
  { (Reduction.fixing s).direct with apply := fun j i => i.mapProblem (Problem.eliminate j) }

/-- Take out coefficients. -/
def coefficient (s : Scope α) : DirectReduction α (Nat × Nat) :=
  { (Reduction.coefficient s).direct with
    apply := fun e i => i.mapProblem fun p => p.mapRow e.1 (Row.putIn e.2 (s.valueOf e.2 p)) }

/-- Make rows integral. -/
def consround (s : Scope α) : DirectReduction α Nat :=
  { (Reduction.consround s).direct with
    apply := fun k i => i.mapProblem fun p =>
      p.mapRow k (Row.makeIntegral s.tolerance.feasibility (s.solution.point? p.ncols)) }

end DirectReduction

namespace ModuleKind

/-- The reduction of a module as a direct one. -/
def direct (k : ModuleKind) (target : Option Settings) (s : Scope α) :
    DirectReduction α (k.reduction target s).Element :=
  match k with
  | constraint => (Reduction.constraint s).direct
  | collapse => (Reduction.collapse s).direct
  | objective => (Reduction.objective s).direct
  | side => (Reduction.side s).direct
  | fixing => DirectReduction.fixing s
  | coefficient => DirectReduction.coefficient s
  | varround => (Reduction.varround s).direct
  | consround => DirectReduction.consround s
  | setting => (Reduction.setting target).direct

end ModuleKind
end MipShrink
