/-
# A pass exhausts its module

Changing an element leaves it inadmissible (`ModuleKind.spends`), and leaves every other element as
admissible as it was (`ModuleKind.independent`).  So as long as the oracle never answers that all is
well, a search keeps only those elements admissible that it has not come to yet, and in the end none
(`DirectReduction.search_exhausts`).  A second call finds nothing to do
(`ModuleKind.execute_exhausts`).

That a change leaves its element inadmissible is not a matter of course: an element is tested with
one tolerance and rounded with another, and a setting that is no number differs from itself.
-/

import MipShrink.Proofs.Reduction.Trials
import MipShrink.Proofs.Run.NoReturn

namespace MipShrink

variable {α ω υ : Type}

namespace DirectReduction

/-- Changing an element leaves it inadmissible. -/
def Spends (q : DirectReduction α υ) : Prop :=
  ∀ (start : Problem α) (x : Instance α) (u : υ), q.admissible start x u = true →
    q.admissible start (q.apply u x) u = false

/-- Only elements of the list are admissible. -/
def Leaves (q : DirectReduction α υ) (start : Problem α) (us : List υ) (x : Instance α) : Prop :=
  ∀ u, q.admissible start x u = true → u ∈ us

variable {q : DirectReduction α υ} {start : Problem α} {u : υ} {us : List υ} {x : Instance α}

/-- An element that is changed need not be tried again. -/
theorem Leaves.apply (h : q.Leaves start (u :: us) x) (spends : q.Spends)
    (independent : q.Independent) (admissible : q.admissible start x u = true) :
    q.Leaves start us (q.apply u x) := by
  intro v later
  by_cases same : u = v
  · subst same
    rw [spends start x u admissible] at later
    cases later
  · rw [independent start x u v admissible same] at later
    exact (List.mem_cons.1 (h v later)).resolve_left (Ne.symm same)

/-- Nor need an element that is passed over because it is not admissible. -/
theorem Leaves.pass (h : q.Leaves start (u :: us) x) (passed : ¬q.admissible start x u = true) :
    q.Leaves start us x := by
  intro v admissible
  rcases List.mem_cons.1 (h v admissible) with rfl | mem
  · exact absurd admissible passed
  · exact mem

/-- **After a batch only elements behind it are admissible.** -/
theorem Leaves.fill (h : q.Leaves start us x) (spends : q.Spends) (independent : q.Independent)
    (size n : Nat) :
    q.Leaves start (q.fill start size us n x).rest (q.fill start size us n x).inst := by
  induction us generalizing n x with
  | nil => exact h
  | cons u us ih =>
    rw [DirectReduction.fill]
    by_cases admissible : q.admissible start x u = true
    · have next := h.apply spends independent admissible
      rw [if_pos admissible]
      split
      · exact next
      · exact ih next (n + 1)
    · rw [if_neg admissible]
      exact ih (h.pass admissible) n

/-- If a batch stays empty, then no element is admissible. -/
theorem Leaves.of_fill_empty (h : q.Leaves start us x) {size n : Nat}
    (empty : (q.fill start size us n x).count = n) : q.Leaves start [] x := by
  induction us generalizing n x with
  | nil => exact h
  | cons u us ih =>
    rw [DirectReduction.fill] at empty
    by_cases admissible : q.admissible start x u = true
    · rw [if_pos admissible] at empty
      split at empty
      · exact absurd empty (Nat.succ_ne_self n)
      · -- the rest of the batch only adds to its number of elements
        rcases q.fill_steps start size us (n + 1) (q.apply u x) with ⟨count, -⟩ | ⟨count, -⟩
        · omega
        · omega
    · rw [if_neg admissible] at empty
      exact ih (h.pass admissible) empty

variable [Scalar α]

/-- The history of a search goes on from the one before. -/
theorem exists_history_search (q : DirectReduction α υ) (o : Oracle α ω) (params : Parameters)
    (input : Instance α) (size : Nat) (us : List υ) (accepted : Option (Instance α))
    (session : Session α ω) : ∃ new,
      (q.search o params input size us accepted session).2.history = new ++ session.history := by
  refine q.search_keeps o params input size
    (P := fun _ session' => ∃ new, session'.history = new ++ session.history)
    (fun _ session' y grown _ => ?_) ⟨[], rfl⟩
  obtain ⟨new, history⟩ := grown
  exact ⟨⟨y, (o.ask y session'.state).1⟩ :: new, congrArg (_ :: ·) history⟩

/-- **A search whose batches are all accepted leaves nothing admissible.**  The induction is on the
number of elements that are left; every batch becomes the accepted instance, and what is admissible
on it is behind the batch. -/
theorem search_exhausts (spends : q.Spends) (independent : q.Independent) (o : Oracle α ω)
    (params : Parameters) (input : Instance α) (size : Nat) {accepted : Option (Instance α)}
    {session : Session α ω} {new : List (Probe α)}
    (leaves : q.Leaves input.problem us (accepted.getD input))
    (history : (q.search o params input size us accepted session).2.history =
      new ++ session.history)
    (shown : ∀ p ∈ new, p.verdict params.passCodes ≠ .okay) :
    q.Leaves input.problem []
      ((q.search o params input size us accepted session).1.getD input) := by
  induction left : us.length using Nat.strongRecOn generalizing us accepted session new with
  | _ left ih =>
    rw [search] at history ⊢
    dsimp only at history ⊢
    by_cases empty : (q.fill input.problem size us 0 (accepted.getD input)).count = 0
    · rw [if_pos empty]
      exact leaves.of_fill_empty empty
    · rw [if_neg empty] at history ⊢
      have shorter := q.length_rest_fill_lt input.problem size us 0 (accepted.getD input) empty
      generalize batch : q.fill input.problem size us 0 (accepted.getD input) = b at *
      obtain ⟨later, history'⟩ := q.exists_history_search o params input size b.rest
        (if (session.ask o params b.inst).1 = .okay then accepted else some b.inst)
        (session.ask o params b.inst).2
      -- of the new probes the one of this batch is the oldest, and so the last one in the history
      have probes : later ++ [⟨b.inst, (o.ask b.inst session.state).1⟩] = new := by
        rw [history', Session.history_ask, List.append_cons] at history
        exact List.append_cancel_right history
      have answer : ¬(session.ask o params b.inst).1 = .okay :=
        shown _ (probes ▸ List.mem_concat_self)
      rw [if_neg answer] at history' ⊢
      refine ih _ (left ▸ shorter) ?_ history' (fun p mem => ?_) rfl
      · have behind := leaves.fill spends independent size 0
        rw [batch] at behind
        exact behind
      · exact shown p (probes ▸ List.mem_append_left _ mem)

/-- The instance that a call leaves behind is reached by steps. -/
theorem execute_reaches (q : DirectReduction α υ) (o : Oracle α ω) (params : Parameters)
    (batches : Nat) (i : Instance α) (session : Session α ω) :
    Relation.ReflTransGen (q.Step i.problem) i (q.execute o params batches i session).inst := by
  by_cases successful : (q.execute o params batches i session).status = .successful
  · exact (q.execute_steps successful).to_reflTransGen
  · have same : (q.execute o params batches i session).inst = i := by
      unfold execute at successful ⊢
      dsimp only at successful ⊢
      split
      · rfl
      · rename_i eligible
        rw [if_neg eligible] at successful
        split
        · rename_i found
          rw [found] at successful
          exact absurd rfl successful
        · rfl
    rw [same]

/-- **A call whose batches are all accepted leaves nothing admissible**, if the admissible elements
are among those that it tries. -/
theorem leaves_execute (spends : q.Spends) (independent : q.Independent) (o : Oracle α ω)
    (params : Parameters) (batches : Nat) {i : Instance α} {session : Session α ω}
    (tried : ∀ u, q.admissible i.problem i u = true → u ∈ q.candidates i.problem i.settings)
    {new : List (Probe α)}
    (history : (q.execute o params batches i session).session.history = new ++ session.history)
    (shown : ∀ p ∈ new, p.verdict params.passCodes ≠ .okay) :
    q.Leaves i.problem [] (q.execute o params batches i session).inst := by
  let us := (q.candidates i.problem i.settings).filter (q.admissible i.problem i)
  have leaves : q.Leaves i.problem us i := fun u admissible =>
    List.mem_filter.2 ⟨tried u admissible, admissible⟩
  have exhausted (history : (q.search o params i (batchSize us.length batches) us none
      session).2.history = new ++ session.history) : q.Leaves i.problem []
        ((q.search o params i (batchSize us.length batches) us none session).1.getD i) :=
    search_exhausts spends independent o params i _ leaves history shown
  unfold execute at history ⊢
  dsimp only at history ⊢
  by_cases eligible : us.isEmpty = true
  · rw [if_pos eligible]
    have none : us = [] := List.isEmpty_iff.1 eligible
    rwa [none] at leaves
  · rw [if_neg eligible] at history ⊢
    split at history
    · rename_i found
      rw [found] at exhausted
      exact exhausted history
    · rename_i found
      rw [found] at exhausted
      exact exhausted history

end DirectReduction

/-! ### Changes that leave their element inadmissible -/

namespace Problem

/-- A changed column does not have a property that no changed column has. -/
theorem columnHas_mapColumn_eq_false {f : Column α → Column α} {g : Column α → Bool}
    (never : ∀ c, g (f c) = false) (j : Nat) (p : Problem α) :
    (p.mapColumn j f).columnHas j g = false := by
  rw [columnHas_mapColumn]
  unfold columnHas
  cases p.columns[j]? with
  | none => rfl
  | some c => exact never c

/-- A row that was changed does not have what no changed row has. -/
theorem rowHas_mapRow_eq_false {f : Row α → Row α} {g : Row α → Bool}
    (never : ∀ r, g (f r) = false) (i : Nat) (p : Problem α) :
    (p.mapRow i f).rowHas i g = false := by
  rw [rowHas_mapRow]
  unfold rowHas
  cases p.rows[i]? with
  | none => rfl
  | some r => exact never r

/-- The column that was taken out has no property that a fixed column cannot have. -/
theorem columnHas_eliminate [Scalar α] {f : Column α → Bool}
    (never : ∀ x c, f (Reduction.fixColumn x c) = false) (j : Nat) (p : Problem α) :
    (p.eliminate j).columnHas j f = false := by
  unfold eliminate
  cases column : p.columns[j]? with
  | none =>
    unfold columnHas
    dsimp only
    rw [column]
    rfl
  | some c =>
    exact columnHas_mapColumn_eq_false (never (Reduction.singleValue c)) j p

end Problem

open Rational

namespace Column

variable {tol : Rat}

/-- A domain that has collapsed is not open. -/
theorem isOpen_collapse (nonneg : 0 ≤ tol) (x : Rat) (c : Column Rat) :
    (c.collapse x).isOpen tol = false := by
  have single : Within.below tol (c.collapse x).lower (c.collapse x).upper = false := by
    show Within.below tol x x = false
    unfold Within.below
    rw [decide_eq_false_iff_not, Rat.sub_self]
    grind
  unfold isOpen
  rw [single]
  exact Bool.and_false _

/-- Bounds that are whole or infinite are not fractional. -/
theorem hasFractionalBound_roundBounds (nonneg : 0 ≤ tol) (tol' : Rat) (c : Column Rat) :
    Reduction.hasFractionalBound tol (Reduction.roundBounds tol' c) = false := by
  have integral {infinite : Bool} {a : Rat} (whole : (!infinite && !whole a) = false) :
      (!infinite && !Within.integral tol a) = false := by
    cases infinite with
    | true => rfl
    | false =>
      rw [integral_of_whole nonneg (by simpa using whole)]
      rfl
  unfold Reduction.hasFractionalBound
  rw [integral (whole_lower_roundBounds tol' c), integral (whole_upper_roundBounds tol' c)]
  exact Bool.and_false _

/-- A column that was made integral is integral up to the tolerance by which it is tested. -/
theorem not_fractional_roundColumn {t : Tolerance Rat} (nonneg : 0 ≤ t.admissibility)
    (c : Column Rat) :
    (!Within.integral t.admissibility (Reduction.roundColumn t c).cost ||
      Reduction.hasFractionalBound t.admissibility (Reduction.roundColumn t c)) = false := by
  have cost : (Reduction.roundColumn t c).cost = Scalar.round c.cost := by
    unfold Reduction.roundColumn Reduction.roundBounds
    dsimp only
    split
    · rfl
    · split <;> split <;> rfl
  rw [cost, integral_of_whole nonneg (whole_round c.cost)]
  unfold Reduction.roundColumn
  dsimp only
  split
  · rename_i single
    unfold Reduction.hasFractionalBound
    rw [single]
    rfl
  · exact hasFractionalBound_roundBounds nonneg _ _

end Column

namespace Row

/-- A value that was put in leaves no coefficient. -/
theorem coeff?_putIn_self [Scalar α] (j : Nat) (x : α) (zero : Scalar.isZero (0 : α) = true)
    (r : Row α) : (r.putIn j x).coeff? j = none := by
  unfold putIn
  split
  · rw [coeff?_setCoeff, beq_self_eq_true, if_pos rfl]
    exact if_pos zero
  · assumption

/-- A row that was made integral has no fractions any more. -/
theorem isFractionalRow_makeIntegral {tol : Rat} (nonneg : 0 ≤ tol) (tol' : Rat)
    (point : Option (List Rat)) (r : Row Rat) :
    Reduction.isFractionalRow tol (r.makeIntegral tol' point) = false := by
  rw [Bool.eq_false_iff]
  intro fractional
  have rough := exact_of_isFractionalRow nonneg fractional
  rw [exact_makeIntegral] at rough
  cases rough

end Row

namespace ModuleKind

/-- **No module leaves admissible what it changes**, whatever the reason for the change was; a
target has to be of numbers. -/
theorem spends (k : ModuleKind) {target : Option Settings} (numbers : HasNumbers target)
    {s : Scope Rat} (nonneg : s.tolerance.Nonneg) : (k.direct target s).Spends := by
  have nonneg' := nonneg.admissibility
  intro start x u admissible
  -- What a unit changes fails the test of its own module afterwards, for each for another reason.
  cases k with
  | constraint =>
    have gone : (x.problem.markRedundant u).rowHas u (fun r => !r.isRedundant) = false :=
      Problem.rowHas_mapRow_eq_false (fun _ => rfl) u x.problem
    exact (congrArg (· && _) gone).trans (Bool.false_and _)
  | collapse =>
    exact Problem.columnHas_mapColumn_eq_false (Column.isOpen_collapse nonneg' _) u x.problem
  | objective =>
    refine Problem.columnHas_mapColumn_eq_false (fun c => ?_) u x.problem
    have vanishes : Within.vanishes s.tolerance.admissibility (c.setCost 0).cost = true :=
      decide_eq_true nonneg'
    rw [vanishes]
    exact Bool.and_false _
  | side =>
    refine Problem.rowHas_mapRow_eq_false (fun r => ?_) u x.problem
    rw [Row.hasFreeSide_equate nonneg', Bool.and_false, Bool.false_and]
  | fixing => exact Problem.columnHas_eliminate (fun _ _ => rfl) u x.problem
  | coefficient =>
    have gone : (x.problem.mapRow u.1 (Row.putIn u.2 (s.valueOf u.2 x.problem))).rowHas u.1
        (fun r => !r.isRedundant && (r.coeff? u.2).isSome) = false := by
      refine Problem.rowHas_mapRow_eq_false (fun r => ?_) u.1 x.problem
      rw [Row.coeff?_putIn_self u.2 _ (by decide), Option.isSome_none, Bool.and_false]
    exact (congrArg (· && _) gone).trans (Bool.false_and _)
  | varround =>
    refine Problem.columnHas_mapColumn_eq_false (fun c => ?_) u x.problem
    rw [Column.not_fractional_roundColumn nonneg', Bool.and_false]
  | consround =>
    refine Problem.rowHas_mapRow_eq_false (fun r => ?_) u x.problem
    rw [Row.isFractionalRow_makeIntegral nonneg', Bool.and_false]
  | setting =>
    cases target with
    | none => cases admissible
    | some t => exact Settings.differsAt_copyFrom_self (numbers t rfl) admissible

end ModuleKind

/-! ### Calls after calls -/

/-- The position of every coefficient is listed. -/
theorem Reduction.mem_positions {p : Problem α} {e : Nat × Nat}
    (present : p.rowHas e.1 (fun r => !r.isRedundant && (r.coeff? e.2).isSome) = true) :
    e ∈ positions p := by
  obtain ⟨r, row, entry⟩ := (Option.any_eq_true _ _).1 present
  obtain ⟨a, found⟩ := Option.isSome_iff_exists.1 (Bool.and_eq_true_iff.1 entry).2
  obtain ⟨before, after, coeffs, -⟩ := List.lookup_eq_some_iff.1 found
  have place : (r, e.1) ∈ p.rows.zipIdx.reverse :=
    List.mem_reverse.2 (List.mem_zipIdx_iff_getElem?.2 row)
  refine List.mem_flatMap.2 ⟨(r, e.1), place, List.mem_map.2 ⟨(e.2, a), ?_, rfl⟩⟩
  rw [coeffs]
  exact List.mem_append_right _ (List.mem_cons_self ..)

namespace Problem

/-- What a column has, a column that is there has. -/
theorem lt_ncols_of_columnHas {p : Problem α} {j : Nat} {f : Column α → Bool}
    (h : p.columnHas j f = true) : j < p.ncols := by
  obtain ⟨c, column, -⟩ := (Option.any_eq_true _ _).1 h
  exact (List.getElem?_eq_some_iff.1 column).1

/-- What a row has, a row that is there has. -/
theorem lt_nrows_of_rowHas {p : Problem α} {i : Nat} {f : Row α → Bool}
    (h : p.rowHas i f = true) : i < p.nrows := by
  obtain ⟨r, row, -⟩ := (Option.any_eq_true _ _).1 h
  exact (List.getElem?_eq_some_iff.1 row).1

end Problem

namespace ModuleKind

variable [Scalar α]

/-- Every admissible element is tried. -/
theorem mem_candidates (k : ModuleKind) (target : Option Settings) (s : Scope α)
    {start : Problem α} {x : Instance α} {u : (k.reduction target s).Element}
    (admissible : (k.direct target s).admissible start x u = true) :
    u ∈ (k.direct target s).candidates x.problem x.settings := by
  cases k with
  | constraint =>
    obtain ⟨used, -⟩ := Bool.and_eq_true_iff.1 admissible
    exact Scope.mem_downFrom.2 (Problem.lt_nrows_of_rowHas used)
  | collapse => exact Scope.mem_downFrom.2 (Problem.lt_ncols_of_columnHas admissible)
  | objective => exact Scope.mem_downFrom.2 (Problem.lt_ncols_of_columnHas admissible)
  | side => exact Scope.mem_downFrom.2 (Problem.lt_nrows_of_rowHas admissible)
  | fixing => exact Scope.mem_downFrom.2 (Problem.lt_ncols_of_columnHas admissible)
  | coefficient => exact Reduction.mem_positions (Bool.and_eq_true_iff.1 admissible).1
  | varround => exact List.mem_range.2 (Problem.lt_ncols_of_columnHas admissible)
  | consround => exact List.mem_range.2 (Problem.lt_nrows_of_rowHas admissible)
  | setting =>
    cases target with
    | none => cases admissible
    | some t =>
      obtain ⟨name, v, v', here, -⟩ := Settings.exists_of_differsAt admissible
      exact Settings.mem_places here

/-- A call tests elements by the program with which it began, and the next one by that which the
first one has left; this makes no difference. -/
theorem admissible_of_reaches (k : ModuleKind) {target : Option Settings} {s : Scope α}
    {start : Problem α} {x y : Instance α}
    (reaches : Relation.ReflTransGen ((k.direct target s).Step start) x y) (z : Instance α)
    (u : (k.reduction target s).Element) :
    (k.direct target s).admissible y.problem z u =
      (k.direct target s).admissible x.problem z u := by
  induction reaches with
  | refl => rfl
  | @tail b c _ step ih =>
    rw [← ih]
    cases k with
    | constraint =>
      obtain ⟨i, -, rfl⟩ := step
      have implied : (b.problem.markRedundant i).impliesRow s.tolerance.feasibility u =
          b.problem.impliesRow s.tolerance.feasibility u := by
        unfold Problem.impliesRow
        by_cases row : i = u
        · subst row
          exact Problem.rowHas_mapRow i _ _ b.problem
        · exact Problem.rowHas_congr (Problem.rows_mapRow_of_ne row _ b.problem) _
      exact congrArg (fun implied => _ && (_ || implied)) implied
    | _ => rfl

variable {ω : Type}

/-- **A pass exhausts its module.**  If the oracle never answers in a call that all is well, then
the next call on what the first one has left is not admissible, whatever the number of its batches
is: it asks nothing and leaves everything as it is. -/
theorem execute_exhausts (k : ModuleKind) {target : Option Settings} (numbers : HasNumbers target)
    {s : Scope Rat} (nonneg : s.tolerance.Nonneg) (o : Oracle Rat ω) (params : Parameters)
    (batches : Nat) (i : Instance Rat) (memory : ModuleState) (session : Session Rat ω)
    (canonical : i.problem.Canonical) :
    let r := (k.reduction target s).reduction
    let called := r.execute o params batches i memory session
    (∀ p ∈ called.session.since session.history.length, p.verdict params.passCodes ≠ .okay) →
      ∀ batches' memory' session',
        r.execute o params batches' called.inst memory' session' =
          { status := .notAdmissible, inst := called.inst, memory := memory'
            session := session' } := by
  intro r called shown batches' memory' session'
  let q := k.direct target s
  obtain ⟨touches, buffers⟩ := k.exists_buffers target s
  have direct := k.execute_eq_direct target s o params batches i memory session canonical
  have inst : called.inst = (q.execute o params batches i session).inst :=
    congrArg Outcome.inst direct
  have asked : called.session = (q.execute o params batches i session).session :=
    congrArg Outcome.session direct
  have reaches := q.execute_reaches o params batches i session
  obtain ⟨new, history, -⟩ := q.execute_asks o params batches i session
  -- Every probe has shown the defect, so each unit was changed or had become inadmissible before.
  have leaves : q.Leaves i.problem [] called.inst := by
    rw [inst]
    refine DirectReduction.leaves_execute (k.spends numbers nonneg) (k.independent target s) o
      params batches (fun u => k.mem_candidates target s) history fun p mem => ?_
    rw [← asked] at history
    rw [Session.since_eq history] at shown
    exact shown p (List.mem_reverse.2 mem)
  have canonical' : called.inst.problem.Canonical := by
    rw [inst]
    rcases Relation.reflTransGen_iff_eq_or_transGen.1 reaches with same | leads
    · rw [same]
      exact canonical
    · exact (Leads.result leads canonical (P := fun _ => True) (fun _ _ => trivial)
        fun _ _ _ _ _ => trivial).1
  -- The next call tests by the program that this one has left, and finds the same.
  have none : r.eligible (Draft.ofInstance called.inst) = [] := by
    refine List.filter_eq_nil_iff.2 fun u _ admissible => ?_
    have idle : (Draft.ofInstance called.inst).pending = [] := rfl
    rw [buffers.admissible called.inst.solution _ (Draft.sound_of_pending_eq_nil canonical' idle)
      (Draft.fresh_of_pending_eq_nil idle u), Draft.settled_of_pending_eq_nil _ idle] at admissible
    have before := k.admissible_of_reaches reaches called.inst u
    rw [← inst] at before
    exact absurd (leaves u (before.symm.trans admissible)) List.not_mem_nil
  unfold Reduction.execute
  rw [none]
  rfl

/-- Both rows are rounded, each in a batch of its own, and then there is nothing left to round. -/
theorem execute_exhausts_blend :
    let i : Instance Rat := { settings := {}, problem := .blend, solution := .unknown }
    let o : Oracle Rat Unit := .ofFunction fun _ => ⟨⟨1⟩, .unknown, 1⟩
    let session : Session Rat Unit := .start () .empty
    let r := (consround.reduction none (Scope.ofRun .standard i)).reduction
    let called := r.execute o .standard 2 i .start session
    called.status = .successful ∧
      (∀ p ∈ called.session.since session.history.length,
        p.verdict Parameters.standard.passCodes ≠ .okay) ∧
      r.execute o .standard 1 called.inst called.memory called.session =
        { status := .notAdmissible, inst := called.inst, memory := called.memory
          session := called.session } := by
  intro i o session r called
  have shown : ∀ p ∈ called.session.since session.history.length,
      p.verdict Parameters.standard.passCodes ≠ .okay := by decide +kernel
  have numbers : HasNumbers none := fun _ none => by cases none
  have exhausted := execute_exhausts consround numbers (s := Scope.ofRun .standard i)
    (Tolerance.nonneg_tolerance .standard) o .standard 2 i .start session Problem.canonical_blend
  exact ⟨by decide +kernel, shown, exhausted shown 1 called.memory called.session⟩

end ModuleKind
end MipShrink
