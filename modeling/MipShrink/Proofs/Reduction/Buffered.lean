/-
# The reductions buffer

Each of the nine reductions buffers its direct reduction (`ModuleKind.exists_buffers`): the six
that change no coefficient touch no position, `fixing` touches a column, `coefficient` a single
position and `consround` a row.  So every call does what the direct call does
(`ModuleKind.execute_eq_direct`).
-/

import MipShrink.Proofs.Reduction.Buffering
import MipShrink.Proofs.Reduction.Writes

namespace MipShrink

variable {α ω υ : Type} [Scalar α]

namespace Reduction

/-! ### What all reductions share -/

/-- A reduction that changes no coefficient is direct already. -/
theorem buffers_direct {r : Reduction α υ}
    (nodup : ∀ {p : Problem α}, p.Canonical → ∀ s, (r.candidates p s).Nodup)
    (pending : ∀ u d, (r.apply u d).pending = d.pending)
    (canonical : ∀ {d : Draft α} (u : υ), d.problem.Canonical → (r.apply u d).problem.Canonical) :
    r.Buffers r.direct fun _ _ => False := by
  have idle {d : Draft α} (sound : d.Sound fun (_ : υ) _ => False) : d.pending = [] := by
    cases waits : d.pending with
    | nil => rfl
    | cons e c =>
      obtain ⟨u, touched⟩ := sound.touched e.1 (by rw [waits, List.lookup_cons_self]; simp)
      exact touched.elim
  have whole {d : Draft α} (sound : d.Sound fun (_ : υ) _ => False) (solution : Solution α) :
      Draft.ofInstance (d.settled solution) = d := by
    rw [Draft.settled_of_pending_eq_nil solution (idle sound)]
    cases d
    exact congrArg _ (idle sound).symm
  exact {
    candidates := rfl
    nodup := nodup
    disjoint := fun touched _ => touched.elim
    admissible := fun solution start d u sound _ => by
      show _ = r.admissible start (Draft.ofInstance (d.settled solution)) u
      rw [whole sound]
    apply := fun solution d u sound _ => by
      show _ = (r.apply u (Draft.ofInstance (d.settled solution))).toInstance solution
      rw [whole sound, Draft.settled_of_pending_eq_nil solution ((pending u d).trans (idle sound))]
    canonical := canonical
    sorted := fun u sorted => by
      rw [pending]
      exact sorted
    pending := fun waits => by
      rw [pending] at waits
      exact .inl waits }

/-- Counting down names no number twice. -/
theorem nodup_downFrom (n : Nat) : (Scope.downFrom n).Nodup :=
  List.pairwise_reverse.2 (List.nodup_range.imp Ne.symm)

/-- Items with their keys do not occur twice if neither keys nor the items of a key do. -/
theorem nodup_keyed {κ β γ : Type} (key : κ → γ) {l : List κ} {f : κ → List β}
    (keys : l.Pairwise fun a b => key a ≠ key b) (items : ∀ a ∈ l, (f a).Nodup) :
    (l.flatMap fun a => (f a).map fun b => (key a, b)).Nodup := by
  refine List.pairwise_flatMap.2 ⟨fun a mem => ?_, keys.imp fun ne u left v right eq => ?_⟩
  · exact List.pairwise_map.2 ((items a mem).imp fun ne eq => ne (Prod.mk.inj eq).2)
  · obtain ⟨b, -, rfl⟩ := List.mem_map.1 left
    obtain ⟨b', -, rfl⟩ := List.mem_map.1 right
    exact ne (Prod.mk.inj eq).1

/-- No position is a candidate twice. -/
theorem nodup_positions {p : Problem α} (h : p.Canonical) : (positions p).Nodup := by
  have places : p.rows.zipIdx.Pairwise fun a b => a.2 ≠ b.2 :=
    (pairwise_zipIdx p.rows).imp Nat.ne_of_lt
  have columns : ∀ e ∈ p.rows.zipIdx.reverse, (e.1.coeffs.map Prod.fst).Nodup := fun e mem => by
    have row := List.mem_zipIdx_iff_getElem?.1 (List.mem_reverse.1 mem)
    exact List.pairwise_map.2 ((h.row row).sorted.keys_ne Keyed.isOrder_natBefore)
  have nodup := nodup_keyed Prod.snd (List.pairwise_reverse.2 (places.imp Ne.symm)) columns
  simp only [List.map_map] at nodup
  exact nodup

/-- No place of a setting is a candidate twice. -/
theorem nodup_places (s : Settings) : (places s).Nodup :=
  nodup_keyed id (by decide) fun _ _ => List.nodup_range

/-! ### Fixing -/

/-- Settling a draft leaves its columns alone. -/
theorem columns_settled {d : Draft α} (canonical : d.problem.Canonical) (solution : Solution α) :
    (d.settled solution).problem.columns = d.problem.columns := by
  show (d.problem.write d.pending).columns = _
  rw [canonical.write_eq]

/-- A row of the instance that a draft stands for. -/
theorem row_settled {d : Draft α} (canonical : d.problem.Canonical) (solution : Solution α)
    (i : Nat) : (d.settled solution).problem.rows[i]? =
      (d.problem.rows[i]?).map (Row.overlay d.pending i) :=
  canonical.getElem?_write d.pending i

/-- The row with the value of a column moved out of its sides, its coefficient still in place. -/
def movedOut (j : Nat) (x : α) (r : Row α) : Row α :=
  match r.coeff? j with
  | some a => r.shift (a * x)
  | none => r

/-- Moving a column out of a row leaves its coefficients alone. -/
theorem coeffs_movedOut (j : Nat) (x : α) (r : Row α) : (movedOut j x r).coeffs = r.coeffs := by
  unfold movedOut
  split
  · exact Row.coeffs_shift _ r
  · rfl

/-- Moving a column out changes the constant, the column and the rows. -/
theorem moveOut_eq {p : Problem α} (surplus : p.surplus = {}) (j : Nat) (c : Column α) (x : α) :
    moveOut j c x p =
      { p with
        offset := p.offset + c.cost * x
        columns := p.columns.modify j (fixColumn x)
        rows := p.rows.map (movedOut j x) } := by
  obtain ⟨name, sense, offset, columns, rows, rest⟩ := p
  obtain rfl : rest = {} := surplus
  rfl

/-- Moving a column out keeps a program canonical. -/
theorem canonical_moveOut {p : Problem α} (h : p.Canonical) (j : Nat) (c : Column α) (x : α) :
    (moveOut j c x p).Canonical := by
  rw [moveOut_eq h.surplus]
  refine ⟨fun r' mem' => ?_, h.surplus⟩
  obtain ⟨r, mem, rfl⟩ := List.mem_map.1 mem'
  exact (h.rows r mem).of_coeffs_eq (coeffs_movedOut j x r)

/-- A row from which a column was moved out before the write is one in which its value is put in
after the write. -/
theorem overlay_movedOut {d : Draft α} {j : Nat} (x : α) {i : Nat} {r : Row α}
    (sound : d.Sound fun (j : Nat) position => position.2 = j)
    (fresh : d.Fresh (fun (j : Nat) position => position.2 = j) j)
    (row : d.problem.rows[i]? = some r) :
    Row.overlay (noteErased j d).pending i (movedOut j x r) =
      Row.putIn j x (Row.overlay d.pending i r) := by
  have canonical := sound.problem.row row
  have sorted := (notes_noteErased j d).sorted sound.sorted
  have free : d.pending.lookup (i, j) = none := fresh (i, j) rfl
  have listed : i ∈ (d.problem.column j).map Prod.fst ↔ ∃ a, r.coeff? j = some a := by
    rw [List.mem_map]
    constructor
    · rintro ⟨⟨_, a⟩, mem, rfl⟩
      obtain ⟨r', row', entry⟩ := (Problem.mem_column_iff sound.problem.surplus).1 mem
      obtain rfl : r = r' := Option.some.inj (row.symm.trans row')
      exact ⟨a, entry⟩
    · rintro ⟨a, entry⟩
      exact ⟨(i, a), (Problem.mem_column_iff sound.problem.surplus).2 ⟨r, row, entry⟩, rfl⟩
  unfold movedOut
  cases entry : r.coeff? j with
  | none =>
    unfold Row.putIn
    rw [Row.coeff?_overlay_of_eq_none sound.sorted free, entry]
    refine canonical.overlay_congr sound.sorted sorted fun k => ?_
    have absent : i ∉ (d.problem.column j).map Prod.fst := by
      rw [listed, entry]
      rintro ⟨a, none⟩
      exact absurd none (by simp)
    rw [lookup_noteErased, if_neg fun erased => absent erased.2]
  | some a =>
    have present : i ∈ (d.problem.column j).map Prod.fst := listed.2 ⟨a, entry⟩
    refine canonical.overlay_shift sound.sorted sorted x free entry fun k => ?_
    rw [lookup_noteErased]
    by_cases column : k = j
    · rw [if_pos ⟨column, present⟩, column, beq_self_eq_true, if_pos rfl]
    · have other : (k == j) = false := by simp [column]
      rw [if_neg fun erased => column erased.1, other]
      rfl

/-- Moving a column out and settling is settling and eliminating the column. -/
theorem settled_fixing (s : Scope α) {d : Draft α} {j : Nat}
    (sound : d.Sound fun (j : Nat) position => position.2 = j)
    (fresh : d.Fresh (fun (j : Nat) position => position.2 = j) j) (solution : Solution α) :
    ((fixing s).apply j d).settled solution =
      (d.settled solution).mapProblem (Problem.eliminate j) := by
  unfold fixing Instance.mapProblem Problem.eliminate
  dsimp only
  rw [columns_settled sound.problem]
  cases column : d.problem.columns[j]? with
  | none => rfl
  | some c =>
    have noted := notes_noteErased j d
    have moved := canonical_moveOut sound.problem j c (singleValue c)
    unfold Draft.settled Draft.mapProblem Draft.flush Draft.toInstance
    dsimp only
    rw [noted.problem, noted.settings]
    -- Only the rows are written later, so they are compared one by one.
    refine congrArg (fun p => Instance.mk _ p _) ?_
    rw [moved.write_eq, sound.problem.write_eq, moveOut_eq sound.problem.surplus]
    refine congrArg (fun rows => Problem.mk _ _ _ _ rows _) (List.ext_getElem? fun i => ?_)
    rw [Changes.getElem?_writeTo, List.getElem?_map, List.getElem?_map, Changes.getElem?_writeTo]
    cases row : d.problem.rows[i]? with
    | none => rfl
    | some r => exact congrArg some (overlay_movedOut _ sound fresh row)

/-- Fixing buffers its direct reduction and touches the positions of its column. -/
theorem buffers_fixing (s : Scope α) :
    (fixing s).Buffers (DirectReduction.fixing s) fun j position => position.2 = j where
  candidates := rfl
  nodup _ _ := nodup_downFrom _
  disjoint touched touched' := touched.symm.trans touched'
  admissible solution start d u sound _ := by
    show d.problem.columnHas u _ = (d.settled solution).problem.columnHas u _
    unfold Problem.columnHas
    rw [columns_settled sound.problem]
  apply solution _ _ sound fresh := settled_fixing s sound fresh solution
  canonical {d} j h := by
    have same : (noteErased j d).problem = d.problem := (notes_noteErased j d).problem
    unfold fixing
    dsimp only
    split
    · exact h
    · exact canonical_moveOut (same ▸ h) j _ _
  sorted j h := by
    unfold fixing
    dsimp only
    split
    · exact h
    · exact (notes_noteErased j _).sorted h
  pending {d j position} waits := by
    unfold fixing at waits
    dsimp only at waits
    split at waits
    · exact .inl waits
    · change (noteErased j d).pending.lookup position ≠ none at waits
      rw [lookup_noteErased] at waits
      split at waits
      · rename_i erased
        exact .inr erased.1
      · exact .inl waits

/-! ### Single coefficients -/

/-- Settling a draft keeps the number of its columns. -/
theorem ncols_settled {d : Draft α} (canonical : d.problem.Canonical) (solution : Solution α) :
    (d.settled solution).problem.ncols = d.problem.ncols :=
  congrArg List.length (columns_settled canonical solution)

/-- The value put in for a column depends on the columns only. -/
theorem valueOf_settled {d : Draft α} (canonical : d.problem.Canonical) (s : Scope α)
    (solution : Solution α) (j : Nat) :
    s.valueOf j (d.settled solution).problem = s.valueOf j d.problem := by
  unfold Scope.valueOf Problem.columnHas
  rw [ncols_settled canonical, columns_settled canonical]

/-- A changed row with new coefficients that wait stands for the row that is changed at once. -/
theorem settled_mapRow {d d' : Draft α} (canonical : d.problem.Canonical)
    (sorted : Keyed.Sorted Keyed.positionBefore d.pending) (noted : d.Notes d') {i : Nat}
    {f g : Row α → Row α} (coeffs : ∀ r, (f r).coeffs = r.coeffs)
    (row : ∀ r, d.problem.rows[i]? = some r →
      Row.overlay d'.pending i (f r) = g (Row.overlay d.pending i r))
    (others : ∀ k, k ≠ i → ∀ j, d'.pending.lookup (k, j) = d.pending.lookup (k, j))
    (solution : Solution α) :
    (d'.mapProblem fun p => p.mapRow i f).settled solution =
      (d.settled solution).mapProblem fun p => p.mapRow i g := by
  unfold Draft.settled Draft.mapProblem Draft.flush Draft.toInstance Instance.mapProblem
  dsimp only
  rw [noted.problem, noted.settings,
    canonical.write_mapRow sorted (noted.sorted sorted) coeffs row others]

/-- Nothing happens if the row is left alone, or if there is none. -/
theorem mapRow_settled_eq_self {d : Draft α} (canonical : d.problem.Canonical)
    (solution : Solution α) {i : Nat} {f : Row α → Row α}
    (same : ∀ r, d.problem.rows[i]? = some r →
      f (Row.overlay d.pending i r) = Row.overlay d.pending i r) :
    (d.settled solution).mapProblem (fun p => p.mapRow i f) = d.settled solution := by
  refine congrArg (fun p => Instance.mk _ p _) (Problem.mapRow_eq_self fun r' row' => ?_)
  change (d.settled solution).problem.rows[i]? = some r' at row'
  rw [row_settled canonical] at row'
  obtain ⟨r, row, rfl⟩ := Option.map_eq_some_iff.1 row'
  exact same r row

/-- Whether a column has a value to put in depends on the columns only. -/
theorem hasValue_settled {d : Draft α} (canonical : d.problem.Canonical) (s : Scope α)
    (solution : Solution α) (c : Column α) :
    hasValue s (d.settled solution).problem c = hasValue s d.problem c := by
  unfold hasValue
  rw [ncols_settled canonical]

/-- A coefficient that does not wait may be deleted if it may be deleted after the write. -/
theorem admissible_coefficient (s : Scope α) (start : Problem α) {d : Draft α} {e : Nat × Nat}
    (canonical : d.problem.Canonical) (sorted : Keyed.Sorted Keyed.positionBefore d.pending)
    (free : d.pending.lookup e = none) (solution : Solution α) :
    (coefficient s).admissible start d e =
      (DirectReduction.coefficient s).admissible start (d.settled solution) e := by
  have column : (d.settled solution).problem.columnHas e.2
        (fun c => !c.isRemoved && hasValue s (d.settled solution).problem c) =
      d.problem.columnHas e.2 fun c => !c.isRemoved && hasValue s d.problem c := by
    unfold Problem.columnHas
    simp only [columns_settled canonical, hasValue_settled canonical]
  have row : (d.settled solution).problem.rowHas e.1
        (fun r => !r.isRedundant && (r.coeff? e.2).isSome) =
      d.problem.rowHas e.1 fun r => !r.isRedundant && (r.coeff? e.2).isSome := by
    unfold Problem.rowHas Row.isRedundant
    rw [row_settled canonical, Option.any_map]
    simp only [Row.flags_overlay, Row.coeff?_overlay_of_eq_none sorted free]
  exact (congr (congrArg and row) column).symm

/-- Shifting the sides of a row and settling is settling and putting the value in. -/
theorem settled_coefficient (s : Scope α) {d : Draft α} {e : Nat × Nat}
    (canonical : d.problem.Canonical) (sorted : Keyed.Sorted Keyed.positionBefore d.pending)
    (free : d.pending.lookup e = none) (solution : Solution α) :
    ((coefficient s).apply e d).settled solution = (d.settled solution).mapProblem fun p =>
      p.mapRow e.1 (Row.putIn e.2 (s.valueOf e.2 p)) := by
  unfold coefficient Instance.mapProblem
  dsimp only
  rw [valueOf_settled canonical]
  cases entry : d.problem.matrix.coeff? e.1 e.2 with
  | none =>
    refine (mapRow_settled_eq_self canonical solution fun r row => ?_).symm
    have absent : r.coeff? e.2 = none := by
      unfold Matrix.coeff? at entry
      rw [show d.problem.matrix.rows[e.1]? = some r from row] at entry
      exact entry
    unfold Row.putIn
    rw [Row.coeff?_overlay_of_eq_none sorted free, absent]
  | some a =>
    obtain ⟨r, row, present⟩ := Option.bind_eq_some_iff.1 entry
    have noted := (Draft.Notes.refl d).change e.1 e.2 0
    refine settled_mapRow canonical sorted noted (Row.coeffs_shift _)
      (fun r' row' => ?_) (fun k ne j => ?_) solution
    · obtain rfl : r = r' := Option.some.inj (row.symm.trans row')
      exact (canonical.row row).overlay_shift sorted (noted.sorted sorted) _ free present
        fun j => d.lookup_change_row e.1 e.2 0 j
    · have other : (k, j) ≠ (e.1, e.2) := fun same => ne (congrArg Prod.fst same)
      exact d.lookup_change_of_ne 0 other

/-- Deleting a coefficient buffers its direct reduction and touches its position. -/
theorem buffers_coefficient (s : Scope α) :
    (coefficient s).Buffers (DirectReduction.coefficient s) fun e position => position = e where
  candidates := rfl
  nodup h _ := nodup_positions h
  disjoint touched touched' := touched.symm.trans touched'
  admissible solution start _ e sound fresh :=
    admissible_coefficient s start sound.problem sound.sorted (fresh e rfl) solution
  apply solution _ e sound fresh :=
    settled_coefficient s sound.problem sound.sorted (fresh e rfl) solution
  canonical {d} e h := by
    unfold coefficient
    dsimp only
    split
    · exact h
    · exact h.mapRow e.1 (Row.coeffs_shift _)
  sorted e h := by
    unfold coefficient
    dsimp only
    split
    · exact h
    · exact Changes.sorted_add h e.1 e.2 0
  pending {d e position} waits := by
    unfold coefficient at waits
    dsimp only at waits
    split at waits
    · exact .inl waits
    · change (d.change e.1 e.2 0).pending.lookup position ≠ none at waits
      by_cases same : position = e
      · exact .inr same
      · rw [d.lookup_change_of_ne 0 same] at waits
        exact .inl waits

/-! ### Rounding -/

/-- Rounding keeps what it does not make zero. -/
theorem coeff?_roundEntries {r : Row α} (h : r.Canonical) (j : Nat) :
    r.roundEntries.coeff? j = (r.coeff? j).bind fun a => Row.stored (Row.nearest a) := by
  have sorted := h.sorted
  unfold Row.roundEntries Row.dropZeros Row.coeff?
  dsimp only
  generalize r.coeffs = l at sorted ⊢
  induction l with
  | nil => rfl
  | cons e l ih =>
    obtain ⟨first, rest⟩ := Keyed.sorted_cons.1 sorted
    obtain ⟨j', a⟩ := e
    rw [List.map_cons, List.filter_cons, List.lookup_cons]
    by_cases column : j = j'
    · have later := ih rest
      rw [column, Keyed.isOrder_natBefore.lookup_eq_none first] at later
      rw [column, beq_self_eq_true]
      dsimp only [Option.bind_some]
      unfold Row.stored
      by_cases zero : Scalar.isZero (Row.nearest a) = true
      · rw [if_pos zero, if_neg (by simp [zero])]
        exact later
      · rw [if_neg zero, if_pos (by simp [zero]), List.lookup_cons_self]
    · have other : (j == j') = false := by simp [column]
      rw [other]
      dsimp only
      split
      · rw [List.lookup_cons, other]
        exact ih rest
      · exact ih rest

/-- Rounding the coefficients keeps a row canonical. -/
theorem canonical_roundEntries {r : Row α} (h : r.Canonical) : r.roundEntries.Canonical := by
  constructor
  · refine Keyed.Sorted.filter ?_ _
    exact List.pairwise_map.2 h.sorted
  · intro e mem
    have kept := (List.mem_filter.1 mem).2
    rwa [Bool.not_eq_true'] at kept

/-- A row whose rounded coefficients wait is written as the rounded row. -/
theorem overlay_noteRounded {d : Draft α} {i : Nat} {r : Row α} (canonical : r.Canonical)
    (sorted : Keyed.Sorted Keyed.positionBefore d.pending)
    (fresh : ∀ j, d.pending.lookup (i, j) = none) :
    Row.overlay (noteRounded i r d).pending i r = r.roundEntries := by
  refine (canonical.overlay _ i).ext (canonical_roundEntries canonical) ?_ ?_ ?_ ?_ fun j => ?_
  · rw [Row.name_overlay]
    rfl
  · rw [Row.lhs_overlay]
    rfl
  · rw [Row.rhs_overlay]
    rfl
  · rw [Row.flags_overlay]
    rfl
  · rw [Row.coeff?_overlay ((notes_noteRounded i r d).sorted sorted),
      lookup_noteRounded i canonical, fresh, coeff?_roundEntries canonical]
    cases entry : r.coeff? j with
    | none => rfl
    | some a =>
      have nonzero : Scalar.isZero a = false :=
        canonical.nonzero (j, a) (canonical.coeff?_eq_some_iff.1 entry)
      unfold Row.nearest Row.stored
      dsimp only [Option.bind_some]
      split
      · rw [nonzero]
        rfl
      · rfl

/-- Rounding a row and settling is settling and making the row integral. -/
theorem settled_consround (s : Scope α) {d : Draft α} {i : Nat} (canonical : d.problem.Canonical)
    (sorted : Keyed.Sorted Keyed.positionBefore d.pending)
    (free : ∀ j, d.pending.lookup (i, j) = none) (solution : Solution α) :
    ((consround s).apply i d).settled solution = (d.settled solution).mapProblem fun p =>
      p.mapRow i (Row.makeIntegral s.tolerance.feasibility (s.solution.point? p.ncols)) := by
  unfold consround
  dsimp only
  cases row : d.problem.rows[i]? with
  | none =>
    refine (mapRow_settled_eq_self canonical solution fun r found => ?_).symm
    rw [row] at found
    cases found
  | some r =>
    have noted := notes_noteRounded i r d
    unfold Instance.mapProblem
    dsimp only
    rw [ncols_settled canonical]
    refine settled_mapRow canonical sorted noted (Row.coeffs_roundSides _ _)
      (fun r' row' => ?_) (fun k ne j => lookup_noteRounded_of_ne ne r d j) solution
    obtain rfl : r = r' := Option.some.inj (row.symm.trans row')
    rw [Row.overlay_comm (Row.roundSides_setCoeff _ _),
      overlay_noteRounded (canonical.row row) sorted free,
      (canonical.row row).overlay_eq_self sorted free]
    rfl

/-- Making a row integral buffers its direct reduction and touches the positions of the row. -/
theorem buffers_consround (s : Scope α) :
    (consround s).Buffers (DirectReduction.consround s) fun i position => position.1 = i where
  candidates := rfl
  nodup _ _ := List.nodup_range
  disjoint touched touched' := touched.symm.trans touched'
  admissible solution start d i sound fresh := by
    show d.problem.rowHas i _ = (d.settled solution).problem.rowHas i _
    unfold Problem.rowHas
    rw [row_settled sound.problem]
    cases row : d.problem.rows[i]? with
    | none => rfl
    | some r =>
      rw [Option.map_some, (sound.problem.row row).overlay_eq_self sound.sorted fun j =>
        fresh (i, j) rfl]
  apply solution _ i sound fresh :=
    settled_consround s sound.problem sound.sorted (fun j => fresh (i, j) rfl) solution
  canonical {d} i h := by
    unfold consround
    dsimp only
    split
    · exact h
    · rename_i r _
      have same : (noteRounded i r d).problem = d.problem := (notes_noteRounded i r d).problem
      exact (same ▸ h).mapRow i (Row.coeffs_roundSides _ _)
  sorted i h := by
    unfold consround
    dsimp only
    split
    · exact h
    · exact (notes_noteRounded i _ _).sorted h
  pending {d i position} waits := by
    unfold consround at waits
    dsimp only at waits
    split at waits
    · exact .inl waits
    · rename_i r _
      change (noteRounded i r d).pending.lookup position ≠ none at waits
      by_cases row : position.1 = i
      · exact .inr row
      · rw [lookup_noteRounded_of_ne row] at waits
        exact .inl waits

/-! ### The modules -/

/-- Dropping a row touches no position. -/
theorem buffers_constraint (s : Scope α) :
    (constraint s).Buffers (constraint s).direct fun _ _ => False :=
  buffers_direct (fun _ _ => nodup_downFrom _) (fun _ _ => rfl)
    fun i h => h.mapRow i fun _ => rfl

/-- Collapsing a domain touches no position. -/
theorem buffers_collapse (s : Scope α) :
    (collapse s).Buffers (collapse s).direct fun _ _ => False :=
  buffers_direct (fun _ _ => nodup_downFrom _) (fun _ _ => rfl) fun j h => h.mapColumn j _

/-- Clearing a cost touches no position. -/
theorem buffers_objective (s : Scope α) :
    (objective s).Buffers (objective s).direct fun _ _ => False :=
  buffers_direct (fun _ _ => nodup_downFrom _) (fun _ _ => rfl) fun j h => h.mapColumn j _

/-- Making a row an equation touches no position. -/
theorem buffers_side (s : Scope α) : (side s).Buffers (side s).direct fun _ _ => False :=
  buffers_direct (fun _ _ => nodup_downFrom _) (fun _ _ => rfl) fun i h => h.mapRow i fun _ => rfl

/-- Making a column integral touches no position. -/
theorem buffers_varround (s : Scope α) :
    (varround s).Buffers (varround s).direct fun _ _ => False :=
  buffers_direct (fun _ _ => List.nodup_range) (fun _ _ => rfl) fun j h => h.mapColumn j _

/-- Changing a setting touches no position. -/
theorem buffers_setting (target : Option Settings) :
    (setting target : Reduction α _).Buffers (setting target).direct fun _ _ => False := by
  refine buffers_direct (fun _ s => nodup_places s) (fun u d => ?_) fun {d} u h => ?_
  · cases target <;> rfl
  · cases target <;> exact h

end Reduction

namespace ModuleKind

/-- The reduction of each module buffers its direct reduction. -/
theorem exists_buffers (k : ModuleKind) (target : Option Settings) (s : Scope α) :
    ∃ touches, (k.reduction target s).reduction.Buffers (k.direct target s) touches :=
  match k with
  | constraint => ⟨_, Reduction.buffers_constraint s⟩
  | collapse => ⟨_, Reduction.buffers_collapse s⟩
  | objective => ⟨_, Reduction.buffers_objective s⟩
  | side => ⟨_, Reduction.buffers_side s⟩
  | fixing => ⟨_, Reduction.buffers_fixing s⟩
  | coefficient => ⟨_, Reduction.buffers_coefficient s⟩
  | varround => ⟨_, Reduction.buffers_varround s⟩
  | consround => ⟨_, Reduction.buffers_consround s⟩
  | setting => ⟨_, Reduction.buffers_setting target⟩

/-- **No module is affected by its buffer.**  A call asks the same questions in the same order as
the direct call, and leaves the same instance behind.  The program has to be canonical, as it is
when it is built (`Builder.canonical_build`) and after each call (`Journey.kept`). -/
theorem execute_eq_direct (k : ModuleKind) (target : Option Settings) (s : Scope α)
    (o : Oracle α ω) (params : Parameters) (batches : Nat) (i : Instance α)
    (memory : ModuleState) (session : Session α ω) (canonical : i.problem.Canonical) :
    ((k.reduction target s).reduction.execute o params batches i memory session).outcome =
      (k.direct target s).execute o params batches i session := by
  obtain ⟨touches, buffers⟩ := k.exists_buffers target s
  exact buffers.execute_eq o params batches canonical memory session

/-- Two rows are rounded in one batch, and their coefficients wait together. -/
theorem execute_consround_blend :
    let i : Instance Rat := { settings := {}, problem := .blend, solution := .unknown }
    let o : Oracle Rat Unit := .ofFunction fun _ => ⟨⟨1⟩, .unknown, 1⟩
    let s := Scope.ofRun .standard i
    let called := (consround.reduction none s).reduction.execute o .standard 1 i .start
      (.start () .empty)
    called.status = .successful ∧
      called.outcome = (consround.direct none s).execute o .standard 1 i (.start () .empty) := by
  refine ⟨by decide +kernel, ?_⟩
  exact execute_eq_direct consround none _ _ _ _ _ _ _ Problem.canonical_blend

end ModuleKind
end MipShrink
