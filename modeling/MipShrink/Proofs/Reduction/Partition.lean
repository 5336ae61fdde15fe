/-
# A call tries every eligible element once

A call tests each element again before it changes it, on a draft that has been changed meanwhile.
The test never fails: changing an element leaves every other element as admissible as it was
(`ModuleKind.independent`), and so does going back to the draft that was accepted last.

Hence the elements that a call changes are the eligible elements, each of them once and in their
order, and its probes cut them in groups of the size of a batch, whatever the oracle answers
(`ModuleKind.tries_all`).  To say so, a call keeps a record of the elements that it changes and of
the groups that it probes, and does nothing else differently (`Reduction.pass_tracked`).
-/

import MipShrink.Proofs.Reduction.Bounds
import MipShrink.Proofs.Settings.Approach

namespace MipShrink

variable {α ω υ : Type}

/-! ### Groups -/

/-- The list cut in groups of the given size, of which the last one may be smaller. -/
structure Cut (size : Nat) (us : List υ) (groups : List (List υ)) : Prop where
  flatten : groups.flatten = us
  full : ∀ g ∈ groups.dropLast, g.length = size
  nonempty : ∀ g ∈ groups, 0 < g.length
  length_le : ∀ g ∈ groups, g.length ≤ size

/-- Full groups have as many elements as their number times their size. -/
theorem length_flatten_of_full {size : Nat} {groups : List (List υ)}
    (full : ∀ g ∈ groups, g.length = size) : groups.flatten.length = groups.length * size := by
  induction groups with
  | nil => simp
  | cons g groups ih =>
    have first : g.length = size := full g (List.mem_cons_self ..)
    have rest := ih fun g' mem => full g' (List.mem_cons_of_mem _ mem)
    rw [List.flatten_cons, List.length_append, List.length_cons, Nat.add_mul, rest, first]
    omega

/-- Only the last group may be smaller, so the number of groups is the quotient rounded up. -/
theorem Cut.length_eq {size : Nat} {us : List υ} {groups : List (List υ)} (h : Cut size us groups)
    (pos : 0 < size) : groups.length = (us.length + size - 1) / size := by
  rw [← h.flatten]
  rcases List.eq_nil_or_concat groups with rfl | ⟨init, last, rfl⟩
  · simp only [List.flatten_nil, List.length_nil]
    exact (Nat.div_eq_of_lt (by omega)).symm
  · rw [List.concat_eq_append] at h ⊢
    have full := h.full
    rw [List.dropLast_concat] at full
    have before := length_flatten_of_full full
    have member : last ∈ init ++ [last] := List.mem_concat_self
    have lower := h.nonempty last member
    have upper := h.length_le last member
    rw [List.flatten_concat, List.length_append, List.length_append, before, List.length_singleton]
    refine (Nat.div_eq_of_lt_le ?_ ?_).symm
    · rw [Nat.add_mul]
      omega
    · rw [Nat.add_mul, Nat.add_mul]
      omega

/-- There are no more groups than batches are asked for, and a single one if none are. -/
theorem groups_le_batches {k n groups : Nat} (pos : 0 < k)
    (count : groups = (k + batchSize k n - 1) / batchSize k n) :
    (0 < n → groups ≤ n) ∧ (n = 0 → groups = 1) := by
  constructor
  · intro asked
    have quotient := Nat.div_add_mod (k + n - 1) n
    have remainder := Nat.mod_lt (k + n - 1) asked
    have size : (k + n - 1) / n ≤ batchSize k n := by
      unfold batchSize
      rw [if_neg (by omega)]
      exact Nat.le_max_left ..
    have enough : k ≤ batchSize k n * n := by
      have le := Nat.mul_le_mul_left n size
      rw [Nat.mul_comm]
      omega
    have fits : (k + batchSize k n - 1) / batchSize k n < n + 1 := by
      have positive := batchSize_pos k n
      refine Nat.div_lt_of_lt_mul ?_
      rw [Nat.mul_add]
      omega
    omega
  · rintro rfl
    have size : batchSize k 0 = k := by
      unfold batchSize
      rw [if_pos rfl]
      omega
    rw [count, size]
    exact Nat.div_eq_of_lt_le (by omega) (by omega)

/-! ### Independence -/

/-- Changing an element leaves the others as admissible as they are. -/
def DirectReduction.Independent (q : DirectReduction α υ) : Prop :=
  ∀ (start : Problem α) (x : Instance α) (u v : υ), q.admissible start x u = true → u ≠ v →
    q.admissible start (q.apply u x) v = q.admissible start x v

namespace Problem

/-- Only the column itself counts. -/
theorem columnHas_congr {p p' : Problem α} {v : Nat} (same : p'.columns[v]? = p.columns[v]?)
    (f : Column α → Bool) : p'.columnHas v f = p.columnHas v f := by
  unfold columnHas
  rw [same]

/-- Only the row itself counts. -/
theorem rowHas_congr {p p' : Problem α} {v : Nat} (same : p'.rows[v]? = p.rows[v]?)
    (f : Row α → Bool) : p'.rowHas v f = p.rowHas v f := by
  unfold rowHas
  rw [same]

/-- Changing a column leaves the other columns alone. -/
theorem columns_mapColumn_of_ne {u v : Nat} (ne : u ≠ v) (f : Column α → Column α)
    (p : Problem α) : (p.mapColumn u f).columns[v]? = p.columns[v]? :=
  List.getElem?_modify_ne _ _ ne

/-- Changing a row leaves the other rows alone. -/
theorem rows_mapRow_of_ne {u v : Nat} (ne : u ≠ v) (f : Row α → Row α) (p : Problem α) :
    (p.mapRow u f).rows[v]? = p.rows[v]? :=
  List.getElem?_modify_ne _ _ ne

/-- A column that was changed has what its image has. -/
theorem columnHas_mapColumn (j : Nat) (f : Column α → Column α) (g : Column α → Bool)
    (p : Problem α) : (p.mapColumn j f).columnHas j g = p.columnHas j fun c => g (f c) := by
  unfold columnHas mapColumn
  rw [List.getElem?_modify_eq]
  exact Option.any_map ..

/-- A row that was changed has what its image has. -/
theorem rowHas_mapRow (i : Nat) (f : Row α → Row α) (g : Row α → Bool) (p : Problem α) :
    (p.mapRow i f).rowHas i g = p.rowHas i fun r => g (f r) := by
  unfold rowHas mapRow
  rw [List.getElem?_modify_eq]
  exact Option.any_map ..

variable [Scalar α]

/-- Eliminating a column leaves the other columns alone. -/
theorem columns_eliminate_of_ne {u v : Nat} (ne : u ≠ v) (p : Problem α) :
    (p.eliminate u).columns[v]? = p.columns[v]? := by
  unfold eliminate
  split
  · rfl
  · exact List.getElem?_modify_ne _ _ ne

end Problem

variable [Scalar α]

namespace Row

/-- Putting a value in for a column leaves the coefficients of the other columns alone. -/
theorem coeff?_putIn_of_ne {j k : Nat} (ne : k ≠ j) (x : α) (r : Row α) :
    (r.putIn j x).coeff? k = r.coeff? k := by
  unfold putIn
  split
  · rw [coeff?_setCoeff, beq_false_of_ne ne]
    unfold coeff?
    rw [coeffs_shift]
    rfl
  · rfl

end Row

/-- Putting in a value for a column leaves the coefficients at other positions. -/
theorem Problem.hasEntry_putIn {e e' : Nat × Nat} (ne : e ≠ e') (x : α) (p : Problem α) :
    (p.mapRow e.1 (Row.putIn e.2 x)).rowHas e'.1
        (fun r => !r.isRedundant && (r.coeff? e'.2).isSome) =
      p.rowHas e'.1 fun r => !r.isRedundant && (r.coeff? e'.2).isSome := by
  by_cases row : e.1 = e'.1
  · have column : e'.2 ≠ e.2 := fun same => ne (Prod.ext row same.symm)
    rw [row, rowHas_mapRow]
    simp only [Row.isRedundant_putIn, Row.coeff?_putIn_of_ne column]
  · exact rowHas_congr (rows_mapRow_of_ne row _ p) _

/-- **No module changes what it tests of other elements.** -/
theorem ModuleKind.independent (k : ModuleKind) (target : Option Settings) (s : Scope α) :
    (k.direct target s).Independent := by
  intro start x u v admissible ne
  cases k with
  | constraint =>
    have row := Problem.rows_mapRow_of_ne ne (Row.assignFlag .redundant true) x.problem
    exact congrArg (· && _) (Problem.rowHas_congr row _)
  | collapse => exact Problem.columnHas_congr (Problem.columns_mapColumn_of_ne ne _ x.problem) _
  | objective => exact Problem.columnHas_congr (Problem.columns_mapColumn_of_ne ne _ x.problem) _
  | side => exact Problem.rowHas_congr (Problem.rows_mapRow_of_ne ne _ x.problem) _
  | fixing => exact Problem.columnHas_congr (Problem.columns_eliminate_of_ne ne x.problem) _
  | coefficient => exact congrArg (· && _) (Problem.hasEntry_putIn ne _ x.problem)
  | varround => exact Problem.columnHas_congr (Problem.columns_mapColumn_of_ne ne _ x.problem) _
  | consround => exact Problem.rowHas_congr (Problem.rows_mapRow_of_ne ne _ x.problem) _
  | setting =>
    cases target with
    | none => rfl
    | some t =>
      obtain ⟨name, w, w', here, there⟩ := Settings.exists_of_differsAt admissible
      exact (Settings.differsAt_copyFrom here there v).trans (if_neg (Ne.symm ne))

/-! ### Calls with a record -/

/-- Where a call stands, with the groups of elements that it has probed and the elements that it has
changed since. -/
structure Tracked (α ω υ : Type) where
  pass : Pass α ω
  groups : List (List υ)
  begun : List υ

namespace Tracked

/-- A probe with a record. -/
def probe (c : Pass.Setup α ω) (t : Tracked α ω υ) : Tracked α ω υ :=
  { pass := t.pass.probe c, groups := t.groups ++ [t.begun], begun := [] }

/-- A step with a record: an element that is changed joins the open group. -/
def step (r : Reduction α υ) (c : Pass.Setup α ω) (size : Nat) (t : Tracked α ω υ) (u : υ) :
    Tracked α ω υ :=
  if r.admissible c.start t.pass.draft u then
    let p := { t.pass with draft := r.apply u t.pass.draft, batch := t.pass.batch + 1 }
    let t := { t with pass := p, begun := t.begun ++ [u] }
    if size ≤ p.batch then t.probe c else t
  else t

/-- The end with a record. -/
def finish (c : Pass.Setup α ω) (t : Tracked α ω υ) : Tracked α ω υ :=
  if 0 < t.pass.batch then t.probe c else t

/-- Keeping a record changes nothing in a step. -/
theorem pass_step (r : Reduction α υ) (c : Pass.Setup α ω) (size : Nat) (t : Tracked α ω υ)
    (u : υ) : (t.step r c size u).pass = t.pass.step r c size u := by
  unfold step Pass.step
  split
  · dsimp only
    split <;> rfl
  · rfl

/-- Keeping a record changes nothing at the end. -/
theorem pass_finish (c : Pass.Setup α ω) (t : Tracked α ω υ) :
    (t.finish c).pass = t.pass.finish c := by
  unfold finish Pass.finish
  split <;> rfl

end Tracked

namespace Reduction

/-- The passage over all eligible elements, with its record. -/
def tracked (r : Reduction α υ) (o : Oracle α ω) (params : Parameters) (batches : Nat)
    (i : Instance α) (memory : ModuleState) (session : Session α ω) : Tracked α ω υ :=
  let d := Draft.ofInstance i
  let units := r.eligible d
  let c : Pass.Setup α ω :=
    { oracle := o, params := params, solution := i.solution, start := i.problem }
  let p : Pass α ω :=
    { draft := d, base := d, batch := 0, success := false, memory := memory, session := session }
  (units.foldl (Tracked.step r c (batchSize units.length batches))
    { pass := p, groups := [], begun := [] }).finish c

/-- **The record changes nothing.** -/
theorem pass_tracked (r : Reduction α υ) (o : Oracle α ω) (params : Parameters) (batches : Nat)
    (i : Instance α) (memory : ModuleState) (session : Session α ω) :
    (r.tracked o params batches i memory session).pass =
      r.pass o params batches i memory session := by
  unfold tracked pass
  dsimp only
  rw [Tracked.pass_finish]
  refine congrArg (Pass.finish _) (List.foldl_hom Tracked.pass fun t u => ?_).symm
  exact (Tracked.pass_step ..).symm

end Reduction

/-! ### What the record says -/

namespace Pass

variable {c : Setup α ω}

/-- After a probe the next batch is empty. -/
theorem batch_probe (p : Pass α ω) : (p.probe c).batch = 0 := by
  unfold probe
  dsimp only
  split <;> rfl

/-- A probe asks about the draft with everything written. -/
theorem session_probe (p : Pass α ω) : (p.probe c).session =
    (p.session.ask c.oracle c.params (p.draft.flush.toInstance c.solution)).2 := by
  unfold probe
  dsimp only
  split <;> rfl

end Pass

namespace Tracked

/-- The record tells the elements `us`, and a group for each probe since the session began. -/
structure Tells (session : Session α ω) (us : List υ) (t : Tracked α ω υ) : Prop where
  units : t.groups.flatten ++ t.begun = us
  batch : t.pass.batch = t.begun.length
  probes : t.pass.session.probes = session.probes + t.groups.length
  history : ∃ new, t.pass.session.history = new ++ session.history ∧
    new.length = t.groups.length

/-- The groups are full, and the batch is not. -/
structure Filled (size : Nat) (t : Tracked α ω υ) : Prop where
  groups : ∀ g ∈ t.groups, g.length = size
  begun : t.begun.length < size

variable {c : Pass.Setup α ω} {session : Session α ω} {us : List υ} {t : Tracked α ω υ}

/-- A probe closes the group that was open, and the record goes on telling the truth. -/
theorem Tells.probe (h : t.Tells session us) : (t.probe c).Tells session us where
  units := by
    show (t.groups ++ [t.begun]).flatten ++ [] = us
    rw [List.append_nil, List.flatten_concat]
    exact h.units
  batch := Pass.batch_probe t.pass
  probes := by
    show (t.pass.probe c).session.probes = _ + (t.groups ++ [t.begun]).length
    rw [Pass.session_probe, Session.probes_ask, h.probes, List.length_append]
    rfl
  history := by
    obtain ⟨new, before, length⟩ := h.history
    let asked := t.pass.draft.flush.toInstance c.solution
    refine ⟨⟨asked, (c.oracle.ask asked t.pass.session.state).1⟩ :: new, ?_, ?_⟩
    · show (t.pass.probe c).session.history = _
      rw [Pass.session_probe, Session.history_ask, before]
      rfl
    · show new.length + 1 = (t.groups ++ [t.begun]).length
      rw [length, List.length_append]
      rfl

/-- The record with one more element in the batch. -/
def change (r : Reduction α υ) (u : υ) (t : Tracked α ω υ) : Tracked α ω υ :=
  { t with
    pass := { t.pass with draft := r.apply u t.pass.draft, batch := t.pass.batch + 1 }
    begun := t.begun ++ [u] }

/-- An element that is admissible is changed, and a probe follows if the batch is full. -/
theorem step_of_admissible {r : Reduction α υ} {u : υ}
    (admissible : r.admissible c.start t.pass.draft u = true) (size : Nat) : t.step r c size u =
      if size ≤ (t.change r u).pass.batch then (t.change r u).probe c else t.change r u :=
  if_pos admissible

omit [Scalar α] in
/-- An element that is changed joins the group that is open. -/
theorem Tells.change (h : t.Tells session us) (r : Reduction α υ) (u : υ) :
    (t.change r u).Tells session (us ++ [u]) where
  units := by
    show t.groups.flatten ++ (t.begun ++ [u]) = us ++ [u]
    rw [← List.append_assoc, h.units]
  batch := by
    show t.pass.batch + 1 = (t.begun ++ [u]).length
    rw [List.length_append, ← h.batch]
    rfl
  probes := h.probes
  history := h.history

/-- An element that is admissible is changed and recorded. -/
theorem Tells.step {r : Reduction α υ} {size : Nat} {u : υ} (h : t.Tells session us)
    (filled : t.Filled size) (admissible : r.admissible c.start t.pass.draft u = true) :
    (t.step r c size u).Tells session (us ++ [u]) ∧ (t.step r c size u).Filled size := by
  have room := filled.begun
  have told := h.change r u
  have length : (t.change r u).begun.length = t.begun.length + 1 := List.length_append
  have batch := told.batch
  rw [step_of_admissible admissible]
  by_cases full : size ≤ (t.change r u).pass.batch
  · rw [if_pos full]
    refine ⟨told.probe, fun g mem => ?_, by show 0 < size; omega⟩
    rcases List.mem_append.1 mem with mem | mem
    · exact filled.groups g mem
    · obtain rfl := List.mem_singleton.1 mem
      omega
  · rw [if_neg full]
    exact ⟨told, filled.groups, by omega⟩

/-- The last batch is probed if it has been begun. -/
theorem Tells.finish {size : Nat} (h : t.Tells session us) (filled : t.Filled size) :
    (t.finish c).Tells session us ∧ Cut size us (t.finish c).groups := by
  have room := filled.begun
  unfold Tracked.finish
  by_cases begun : 0 < t.pass.batch
  · rw [if_pos begun]
    -- What is left in the batch is the last group, the only one that may be smaller.
    refine ⟨h.probe, ?_, fun g mem => ?_, fun g mem => ?_, fun g mem => ?_⟩
    · rw [← h.units]
      exact List.flatten_concat
    · have init : (t.probe c).groups.dropLast = t.groups := List.dropLast_concat
      rw [init] at mem
      exact filled.groups g mem
    · rcases List.mem_append.1 mem with mem | mem
      · have full := filled.groups g mem
        omega
      · obtain rfl := List.mem_singleton.1 mem
        have batch := h.batch
        omega
    · rcases List.mem_append.1 mem with mem | mem
      · exact Nat.le_of_eq (filled.groups g mem)
      · obtain rfl := List.mem_singleton.1 mem
        exact Nat.le_of_lt room
  · rw [if_neg begun]
    have batch := h.batch
    have empty : t.begun = [] := List.eq_nil_of_length_eq_zero (by omega)
    have units := h.units
    rw [empty, List.append_nil] at units
    refine ⟨h, units, fun g mem => ?_, fun g mem => ?_, fun g mem => ?_⟩
    · exact filled.groups g ((List.dropLast_sublist _).subset mem)
    · have full := filled.groups g mem
      omega
    · exact Nat.le_of_eq (filled.groups g mem)

end Tracked

/-! ### Every element is admissible when it is met -/

/-- The elements are admissible on the draft of a call and on the one that was accepted last. -/
structure Pass.Ready (touches : υ → Nat × Nat → Prop) (q : DirectReduction α υ)
    (c : Pass.Setup α ω) (us : List υ) (p : Pass α ω) : Prop where
  sound : p.draft.Sound touches
  fresh : ∀ u ∈ us, p.draft.Fresh touches u
  draft : ∀ u ∈ us, q.admissible c.start (p.draft.settled c.solution) u = true
  canonical : p.base.problem.Canonical
  settled : p.base.pending = []
  base : ∀ u ∈ us, q.admissible c.start (p.base.settled c.solution) u = true

/-- Flushing does not change what a draft stands for. -/
theorem Draft.settled_flush (solution : Solution α) (d : Draft α) :
    d.flush.settled solution = d.settled solution :=
  settled_of_pending_eq_nil solution d.pending_flush

namespace Reduction.Buffers

variable {r : Reduction α υ} {q : DirectReduction α υ} {touches : υ → Nat × Nat → Prop}
  {c : Pass.Setup α ω} {us : List υ} {u : υ} {p : Pass α ω}

/-- Whatever the answer of a probe, the elements are admissible after it. -/
theorem ready_probe (ready : p.Ready touches q c us) : (p.probe c).Ready touches q c us := by
  unfold Pass.probe
  dsimp only
  split
  · exact { ready with
      sound := Draft.sound_of_pending_eq_nil ready.canonical ready.settled
      fresh := fun u _ => Draft.fresh_of_pending_eq_nil ready.settled u
      draft := ready.base }
  · have accepted : ∀ u ∈ us, q.admissible c.start (p.draft.flush.settled c.solution) u = true := by
      rw [Draft.settled_flush]
      exact ready.draft
    exact {
      sound := ready.sound.flush
      fresh := fun u _ => Draft.fresh_of_pending_eq_nil p.draft.pending_flush u
      draft := accepted
      canonical := ready.sound.flush.problem
      settled := p.draft.pending_flush
      base := accepted }

/-- **The first element is admissible, and changing it leaves the others admissible.** -/
theorem ready_step (h : r.Buffers q touches) (independent : q.Independent) (size : Nat)
    (nodup : (u :: us).Nodup) (ready : p.Ready touches q c (u :: us)) :
    r.admissible c.start p.draft u = true ∧ (p.step r c size u).Ready touches q c us := by
  have first : u ∈ u :: us := List.mem_cons_self ..
  have later {v : υ} (mem : v ∈ us) : v ∈ u :: us := List.mem_cons_of_mem _ mem
  have other {v : υ} (mem : v ∈ us) : u ≠ v := by
    rintro rfl
    exact (List.nodup_cons.1 nodup).1 mem
  have tested := ready.draft u first
  have admissible : r.admissible c.start p.draft u = true := by
    rw [h.admissible c.solution c.start ready.sound (ready.fresh u first)]
    exact tested
  have changed : ({ p with draft := r.apply u p.draft, batch := p.batch + 1 } :
      Pass α ω).Ready touches q c us :=
    { sound := h.sound u ready.sound
      fresh := fun v mem => h.fresh (ready.fresh v (later mem)) (other mem)
      draft := fun v mem => by
        show q.admissible c.start ((r.apply u p.draft).settled c.solution) v = true
        rw [h.apply c.solution ready.sound (ready.fresh u first),
          independent c.start _ u v tested (other mem)]
        exact ready.draft v (later mem)
      canonical := ready.canonical
      settled := ready.settled
      base := fun v mem => ready.base v (later mem) }
  refine ⟨admissible, ?_⟩
  unfold Pass.step
  rw [if_pos admissible]
  dsimp only
  split
  · exact ready_probe changed
  · exact changed

/-- **The record tells every element.**  The induction is on the elements that are left. -/
theorem tells_foldl (h : r.Buffers q touches) (independent : q.Independent) {size : Nat}
    {session : Session α ω} {done : List υ} {t : Tracked α ω υ} (nodup : us.Nodup)
    (ready : t.pass.Ready touches q c us) (told : t.Tells session done) (filled : t.Filled size) :
    (us.foldl (Tracked.step r c size) t).Tells session (done ++ us) ∧
      (us.foldl (Tracked.step r c size) t).Filled size := by
  induction us generalizing done t with
  | nil =>
    rw [List.append_nil]
    exact ⟨told, filled⟩
  | cons u us ih =>
    obtain ⟨admissible, next⟩ := h.ready_step independent size nodup ready
    rw [← Tracked.pass_step] at next
    obtain ⟨told', filled'⟩ := told.step filled admissible
    have rest := ih (List.nodup_cons.1 nodup).2 next told' filled'
    rw [List.append_assoc] at rest
    exact rest

/-- The record of a call tells the eligible elements, cut in groups. -/
theorem tells_tracked (h : r.Buffers q touches) (independent : q.Independent) (o : Oracle α ω)
    (params : Parameters) (batches : Nat) {i : Instance α} (canonical : i.problem.Canonical)
    (memory : ModuleState) (session : Session α ω) :
    let units := r.eligible (Draft.ofInstance i)
    let t := r.tracked o params batches i memory session
    t.Tells session units ∧ Cut (batchSize units.length batches) units t.groups := by
  let c : Pass.Setup α ω :=
    { oracle := o, params := params, solution := i.solution, start := i.problem }
  let t : Tracked α ω υ :=
    { pass := ⟨.ofInstance i, .ofInstance i, 0, false, memory, session⟩, groups := [], begun := [] }
  have idle : (Draft.ofInstance i).pending = [] := rfl
  have sound : (Draft.ofInstance i).Sound touches := Draft.sound_of_pending_eq_nil canonical idle
  have fresh (u : υ) : (Draft.ofInstance i).Fresh touches u := Draft.fresh_of_pending_eq_nil idle u
  have admissible : ∀ u ∈ r.eligible (Draft.ofInstance i),
      q.admissible i.problem ((Draft.ofInstance i).settled i.solution) u = true := by
    intro u mem
    rw [← h.admissible i.solution i.problem sound (fresh u)]
    exact List.of_mem_filter mem
  have nodup : (r.eligible (Draft.ofInstance i)).Nodup := (h.nodup canonical i.settings).filter _
  have ready : t.pass.Ready touches q c (r.eligible (Draft.ofInstance i)) :=
    ⟨sound, fun u _ => fresh u, admissible, canonical, idle, admissible⟩
  have told : t.Tells session [] := ⟨rfl, rfl, rfl, [], rfl, rfl⟩
  have filled : t.Filled (batchSize (r.eligible (Draft.ofInstance i)).length batches) :=
    ⟨fun g mem => absurd mem List.not_mem_nil, batchSize_pos ..⟩
  obtain ⟨all, full⟩ := h.tells_foldl independent nodup ready told filled
  exact all.finish full

end Reduction.Buffers

namespace ModuleKind

/-- **A call changes every eligible element once and in order, group by group.**  A group has the
size of a batch, and only the last one may be smaller; each is tried in one probe, and nothing is
changed besides.  So there are as many probes as groups, at most as many as batches are asked for,
and a single one if none are. -/
theorem tries_all (k : ModuleKind) (target : Option Settings) (s : Scope α) (o : Oracle α ω)
    (params : Parameters) (batches : Nat) (i : Instance α) (memory : ModuleState)
    (session : Session α ω) (canonical : i.problem.Canonical)
    (present : (k.reduction target s).reduction.eligible (Draft.ofInstance i) ≠ []) :
    let r := (k.reduction target s).reduction
    let units := r.eligible (Draft.ofInstance i)
    let size := batchSize units.length batches
    let t := r.tracked o params batches i memory session
    let session' := (r.execute o params batches i memory session).session
    t.pass = r.pass o params batches i memory session ∧ t.pass.session = session' ∧
      units.Nodup ∧ Cut size units t.groups ∧ t.begun = [] ∧
      t.groups.length = (units.length + size - 1) / size ∧
      session'.probes = session.probes + t.groups.length ∧
      (∃ new, session'.history = new ++ session.history ∧ new.length = t.groups.length) ∧
      (0 < batches → t.groups.length ≤ batches) ∧ (batches = 0 → t.groups.length = 1) := by
  intro r units size t session'
  obtain ⟨touches, buffers⟩ := k.exists_buffers target s
  obtain ⟨told, cut⟩ := buffers.tells_tracked (k.independent target s) o params batches canonical
    memory session
  have pass : t.pass = r.pass o params batches i memory session :=
    r.pass_tracked o params batches i memory session
  have asked : t.pass.session = session' := by
    have eligible : ¬(r.eligible (Draft.ofInstance i)).isEmpty = true := by
      rwa [List.isEmpty_iff]
    show _ = (r.execute o params batches i memory session).session
    unfold Reduction.execute
    rw [if_neg eligible, pass]
    dsimp only
    split <;> rfl
  have count : t.groups.length = (units.length + size - 1) / size :=
    cut.length_eq (batchSize_pos ..)
  have nothing : t.begun = [] :=
    List.append_right_eq_self.1 (told.units.trans cut.flatten.symm)
  refine ⟨pass, asked, (buffers.nodup canonical i.settings).filter _, cut, nothing, count, ?_, ?_,
    groups_le_batches (List.length_pos_iff.2 present) count⟩
  · rw [← asked]
    exact told.probes
  · rw [← asked]
    exact told.history

/-- Three settings that differ from their target, in two batches: the first two are tried together,
and the third one alone, even if the defect disappears each time. -/
theorem tries_all_settings :
    let i : Instance Rat :=
      { settings := { ints := [("gap", 1), ("depth", 2), ("threads", 4)] }
        problem := .blend, solution := .unknown }
    let target : Option Settings := some { ints := [("gap", 0), ("depth", 3), ("threads", 1)] }
    let o : Oracle Rat Unit := .ofFunction fun _ => ⟨⟨0⟩, .unknown, 1⟩
    let r : Reduction Rat (SettingKind × Nat) := .setting target
    let units := r.eligible (Draft.ofInstance i)
    let t := r.tracked o .standard 2 i .start (.start () .empty)
    let size := batchSize units.length 2
    t.groups = [[(.int, 0), (.int, 1)], [(.int, 2)]] ∧
      size = 2 ∧ Cut size units t.groups ∧
      (r.execute o .standard 2 i .start (.start () .empty)).session.probes =
        0 + t.groups.length := by
  intro i target o r units t size
  have groups : t.groups = [[(.int, 0), (.int, 1)], [(.int, 2)]] := by decide +kernel
  have present : units ≠ [] := by
    have length : units.length = 3 := by decide +kernel
    exact List.ne_nil_of_length_eq_add_one length
  obtain ⟨-, -, -, cut, -, -, probes, -, -, -⟩ :=
    tries_all setting target (Scope.ofRun .standard i) o .standard 2 i .start (.start () .empty)
      Problem.canonical_blend present
  exact ⟨groups, by decide +kernel, cut, probes⟩

end ModuleKind
end MipShrink
