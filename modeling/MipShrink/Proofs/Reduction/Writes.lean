/-
# Changes next to the rows they wait for

A change that waits for a row is written in the end as if it had been written at once
(`Row.Canonical.overlay_eq_setCoeff`), and changes for the other rows do not count
(`Row.Canonical.overlay_congr`).  So a program whose row is changed while coefficients wait is
written like one whose row is changed afterwards (`Problem.Canonical.write_mapRow`).

Two reductions note many changes at once: one zero for each coefficient of a column that
disappears (`Reduction.lookup_noteErased`), and the rounded values of a row
(`Reduction.lookup_noteRounded`).
-/

import MipShrink.Proofs.Problem.Canonical
import MipShrink.Proofs.Reduction.Direct

namespace MipShrink

/-- What all elements have, they still have when one of them is changed, if it has it then. -/
theorem forall_mem_modify {β : Type} {P : β → Prop} {f : β → β} {l : List β} {i : Nat}
    (all : ∀ b ∈ l, P b) (changed : ∀ b, l[i]? = some b → P (f b)) : ∀ b ∈ l.modify i f, P b := by
  intro b' mem
  obtain ⟨k, place'⟩ := List.mem_iff_getElem?.1 mem
  rw [List.getElem?_modify] at place'
  obtain ⟨b, place, rfl⟩ := Option.map_eq_some_iff.1 place'
  split
  · rename_i here
    exact changed b (here ▸ place)
  · exact all b (List.mem_of_getElem? place)

/-- The element behind the first ones is changed. -/
theorem modify_append_cons {β : Type} (l : List β) (b : β) (rest : List β) (f : β → β) :
    (l ++ b :: rest).modify l.length f = l ++ f b :: rest := by
  induction l with
  | nil => rfl
  | cons a l ih => exact congrArg (a :: ·) ih

/-- A change of one element that `g` does not see is not seen in the list. -/
theorem map_modify_eq {β γ : Type} {l : List β} {j : Nat} {f : β → β} {g : β → γ}
    (same : ∀ b, l[j]? = some b → g (f b) = g b) : (l.modify j f).map g = l.map g := by
  refine List.ext_getElem? fun k => ?_
  rw [List.getElem?_map, List.getElem?_map]
  by_cases here : j = k
  · subst here
    rw [List.getElem?_modify_eq]
    cases place : l[j]? with
    | none => rfl
    | some b => exact congrArg some (same b place)
  · rw [List.getElem?_modify_ne _ _ here]

/-- The places of a list increase. -/
theorem pairwise_zipIdx {β : Type} (l : List β) : l.zipIdx.Pairwise fun a b => a.2 < b.2 := by
  rw [← List.pairwise_map, List.zipIdx_map_snd]
  exact List.pairwise_lt_range'

variable {α : Type} [Scalar α]

namespace Row

/-- A coefficient for which no change waits is as it was. -/
theorem coeff?_overlay_of_eq_none {c : Changes α} (sorted : Keyed.Sorted Keyed.positionBefore c)
    {i j : Nat} (none : c.lookup (i, j) = none) (r : Row α) :
    (Row.overlay c i r).coeff? j = r.coeff? j := by
  rw [coeff?_overlay sorted, none]
  rfl

/-- Only the changes of its place count for a row. -/
theorem Canonical.overlay_congr {r : Row α} (h : r.Canonical) {c c' : Changes α}
    (sorted : Keyed.Sorted Keyed.positionBefore c) (sorted' : Keyed.Sorted Keyed.positionBefore c')
    {i : Nat} (same : ∀ k, c'.lookup (i, k) = c.lookup (i, k)) :
    Row.overlay c' i r = Row.overlay c i r :=
  (h.overlay c' i).ext (h.overlay c i) (by simp) (by simp) (by simp) (by simp) fun k => by
    rw [coeff?_overlay sorted', coeff?_overlay sorted, same]

/-- One more change is written as if it were written at once. -/
theorem Canonical.overlay_eq_setCoeff {r : Row α} (h : r.Canonical) {c c' : Changes α}
    (sorted : Keyed.Sorted Keyed.positionBefore c) (sorted' : Keyed.Sorted Keyed.positionBefore c')
    {i j : Nat} {x : α}
    (added : ∀ k, c'.lookup (i, k) = if k == j then some x else c.lookup (i, k)) :
    Row.overlay c' i r = (Row.overlay c i r).setCoeff j x := by
  refine (h.overlay c' i).ext ((h.overlay c i).setCoeff j x) ?_ ?_ ?_ ?_ fun k => ?_
  · rw [name_overlay]
    exact (name_overlay c i r).symm
  · rw [lhs_overlay]
    exact (lhs_overlay c i r).symm
  · rw [rhs_overlay]
    exact (rhs_overlay c i r).symm
  · rw [flags_overlay]
    exact (flags_overlay c i r).symm
  · rw [coeff?_overlay sorted', coeff?_setCoeff, coeff?_overlay sorted, added]
    cases k == j <;> rfl

/-- No change of its place leaves a row alone. -/
theorem Canonical.overlay_eq_self {r : Row α} (h : r.Canonical) {c : Changes α}
    (sorted : Keyed.Sorted Keyed.positionBefore c) {i : Nat}
    (none : ∀ k, c.lookup (i, k) = none) : Row.overlay c i r = r :=
  h.overlay_congr Keyed.sorted_nil sorted none

/-- Shifting leaves the coefficients alone. -/
@[simp] theorem coeffs_shift (x : α) (r : Row α) : (r.shift x).coeffs = r.coeffs := by
  unfold shift
  dsimp only
  split <;> split <;> rfl

/-- Rounding the sides leaves the coefficients alone. -/
@[simp] theorem coeffs_roundSides (tol : α) (activity : Option α) (r : Row α) :
    (Reduction.roundSides tol activity r).coeffs = r.coeffs := by
  unfold Reduction.roundSides
  dsimp only
  split <;> split <;> rfl

/-- Rounding a row leaves no new columns in it. -/
theorem exists_mem_of_mem_makeIntegral {tol : α} {point : Option (List α)} {r : Row α}
    {e : Nat × α} (mem : e ∈ (r.makeIntegral tol point).coeffs) : ∃ e' ∈ r.coeffs, e'.1 = e.1 := by
  rw [show (r.makeIntegral tol point).coeffs = r.roundEntries.coeffs from
    coeffs_roundSides ..] at mem
  obtain ⟨e', mem', rfl⟩ := List.mem_map.1 (List.mem_filter.1 mem).1
  exact ⟨e', mem', rfl⟩

/-- Shifting passes through the writing of a coefficient. -/
theorem shift_setCoeff (delta : α) (r : Row α) (j : Nat) (x : α) :
    (r.setCoeff j x).shift delta = (r.shift delta).setCoeff j x := by
  unfold shift setCoeff
  dsimp only
  split <;> split <;> rfl

/-- Rounding the sides passes through the writing of a coefficient. -/
theorem roundSides_setCoeff (tol : α) (activity : Option α) (r : Row α) (j : Nat) (x : α) :
    Reduction.roundSides tol activity (r.setCoeff j x) =
      (Reduction.roundSides tol activity r).setCoeff j x := by
  obtain ⟨name, coeffs, lhs, rhs, ⟨lhsInf, rhsInf, equation, redundant⟩⟩ := r
  unfold Reduction.roundSides setCoeff
  cases lhsInf <;> cases rhsInf <;> dsimp only <;> split <;> rfl

/-- A row with shifted sides whose coefficient waits to become zero is the row in which a value is
put in for the column at once. -/
theorem Canonical.overlay_shift {r : Row α} (h : r.Canonical) {c c' : Changes α}
    (sorted : Keyed.Sorted Keyed.positionBefore c) (sorted' : Keyed.Sorted Keyed.positionBefore c')
    {i j : Nat} {a : α} (x : α) (free : c.lookup (i, j) = none) (present : r.coeff? j = some a)
    (added : ∀ k, c'.lookup (i, k) = if k == j then some 0 else c.lookup (i, k)) :
    Row.overlay c' i (r.shift (a * x)) = (Row.overlay c i r).putIn j x := by
  unfold putIn
  rw [coeff?_overlay_of_eq_none sorted free, present, overlay_comm (shift_setCoeff (a * x))]
  dsimp only
  rw [← shift_setCoeff]
  exact congrArg _ (h.overlay_eq_setCoeff sorted sorted' added)

end Row

namespace Matrix

omit [Scalar α] in
/-- A column has a row and a coefficient if the row has it. -/
theorem mem_column_iff {m : Matrix α} {j i : Nat} {a : α} :
    (i, a) ∈ m.column j ↔ ∃ r, m.rows[i]? = some r ∧ r.coeff? j = some a := by
  simp only [column, List.mem_filterMap, List.mem_zipIdx_iff_getElem?, Prod.exists,
    Option.map_eq_some_iff, Prod.mk.injEq]
  constructor
  · rintro ⟨r, k, row, b, entry, rfl, rfl⟩
    exact ⟨r, row, entry⟩
  · rintro ⟨r, row, entry⟩
    exact ⟨r, i, row, a, entry, rfl, rfl⟩

omit [Scalar α] in
/-- The rows of a column are listed from top to bottom. -/
theorem sorted_column (m : Matrix α) (j : Nat) : Keyed.Sorted Keyed.natBefore (m.column j) := by
  refine List.Pairwise.filterMap _ (fun a b below e stored e' stored' => ?_)
    (pairwise_zipIdx m.rows)
  obtain ⟨x, -, rfl⟩ := Option.map_eq_some_iff.1 stored
  obtain ⟨x', -, rfl⟩ := Option.map_eq_some_iff.1 stored'
  exact decide_eq_true below

end Matrix

namespace Problem

/-- Changing a row without its coefficients keeps a program canonical. -/
theorem Canonical.mapRow {p : Problem α} (h : p.Canonical) (i : Nat) {f : Row α → Row α}
    (coeffs : ∀ r, (f r).coeffs = r.coeffs) : (p.mapRow i f).Canonical :=
  ⟨forall_mem_modify h.rows fun r row => (h.row row).of_coeffs_eq (coeffs r), h.surplus⟩

/-- Changing a column keeps a program canonical. -/
theorem Canonical.mapColumn {p : Problem α} (h : p.Canonical) (j : Nat)
    (f : Column α → Column α) : (p.mapColumn j f).Canonical :=
  ⟨h.rows, h.surplus⟩

omit [Scalar α] in
/-- Without surplus a column has a row and a coefficient if the row has it. -/
theorem mem_column_iff {p : Problem α} (surplus : p.surplus = {}) {j i : Nat} {a : α} :
    (i, a) ∈ p.column j ↔ ∃ r, p.rows[i]? = some r ∧ r.coeff? j = some a := by
  unfold column
  rw [surplus]
  exact Matrix.mem_column_iff

omit [Scalar α] in
/-- The rows of a column are listed from top to bottom. -/
theorem sorted_column {p : Problem α} (surplus : p.surplus = {}) (j : Nat) :
    Keyed.Sorted Keyed.natBefore (p.column j) := by
  unfold column
  rw [surplus]
  exact Matrix.sorted_column p.matrix j

omit [Scalar α] in
/-- A change that leaves the row alone leaves the program alone. -/
theorem mapRow_eq_self {p : Problem α} {i : Nat} {f : Row α → Row α}
    (same : ∀ r, p.rows[i]? = some r → f r = r) : p.mapRow i f = p := by
  refine congrArg (fun rows => Problem.mk _ _ _ _ rows _) (List.ext_getElem? fun k => ?_)
  rw [List.getElem?_modify]
  cases row : p.rows[k]? with
  | none => rfl
  | some r =>
    refine congrArg some ?_
    dsimp only
    split
    · rename_i eq
      exact same r (eq ▸ row)
    · rfl

/-- A program whose row `i` is changed, written with new changes for this row. -/
theorem Canonical.write_mapRow {p : Problem α} (h : p.Canonical) {c c' : Changes α}
    (sorted : Keyed.Sorted Keyed.positionBefore c) (sorted' : Keyed.Sorted Keyed.positionBefore c')
    {i : Nat} {f g : Row α → Row α} (coeffs : ∀ r, (f r).coeffs = r.coeffs)
    (row : ∀ r, p.rows[i]? = some r → Row.overlay c' i (f r) = g (Row.overlay c i r))
    (others : ∀ k, k ≠ i → ∀ j, c'.lookup (k, j) = c.lookup (k, j)) :
    (p.mapRow i f).write c' = (p.write c).mapRow i g := by
  rw [(h.mapRow i coeffs).write_eq, h.write_eq]
  unfold Problem.mapRow
  dsimp only
  refine congrArg (fun rows => Problem.mk _ _ _ _ rows _) (List.ext_getElem? fun k => ?_)
  rw [Changes.getElem?_writeTo, List.getElem?_modify, List.getElem?_modify,
    Changes.getElem?_writeTo]
  cases place : p.rows[k]? with
  | none => rfl
  | some r =>
    refine congrArg some ?_
    dsimp only
    by_cases same : i = k
    · subst same
      rw [if_pos rfl, if_pos rfl]
      exact row r place
    · rw [if_neg same, if_neg same]
      exact (h.row place).overlay_congr sorted sorted' fun j => others k (Ne.symm same) j

end Problem

/-! ### Changes that are noted -/

namespace Draft

/-- The draft `d'` is the draft `d` with more changes noted. -/
structure Notes (d d' : Draft α) : Prop where
  problem : d'.problem = d.problem
  settings : d'.settings = d.settings
  sorted : Keyed.Sorted Keyed.positionBefore d.pending →
    Keyed.Sorted Keyed.positionBefore d'.pending

omit [Scalar α] in
/-- A draft notes nothing new beside itself. -/
theorem Notes.refl (d : Draft α) : d.Notes d := ⟨rfl, rfl, id⟩

omit [Scalar α] in
/-- One more change is noted. -/
theorem Notes.change {d d' : Draft α} (h : d.Notes d') (i j : Nat) (x : α) :
    d.Notes (d'.change i j x) :=
  ⟨h.problem, h.settings, fun sorted => Changes.sorted_add (h.sorted sorted) i j x⟩

omit [Scalar α] in
/-- In the row of a change its column has the new value. -/
theorem lookup_change_row (d : Draft α) (i j : Nat) (x : α) (k : Nat) :
    (d.change i j x).pending.lookup (i, k) =
      if k == j then some x else d.pending.lookup (i, k) := by
  show (d.pending.add i j x).lookup (i, k) = _
  rw [Changes.lookup_add]
  by_cases column : k = j
  · rw [column, beq_self_eq_true, beq_self_eq_true]
  · have other : (i, k) ≠ (i, j) := fun same => column (congrArg Prod.snd same)
    rw [beq_false_of_ne other, beq_false_of_ne column]

omit [Scalar α] in
/-- At other positions there waits what did before. -/
theorem lookup_change_of_ne (d : Draft α) {i j : Nat} (x : α) {position : Nat × Nat}
    (ne : position ≠ (i, j)) :
    (d.change i j x).pending.lookup position = d.pending.lookup position := by
  show (d.pending.add i j x).lookup position = _
  rw [Changes.lookup_add, beq_false_of_ne ne]
  rfl

end Draft

namespace Reduction

/-- Noting the coefficients of a column as erased changes nothing else. -/
theorem notes_noteErased (j : Nat) (d : Draft α) : d.Notes (noteErased j d) :=
  List.foldlRecOn _ _ (Draft.Notes.refl d) fun _ noted e _ => noted.change e.1 j 0

/-- Zero waits for each coefficient of a column that disappears. -/
theorem lookup_noteErased (j : Nat) (d : Draft α) (position : Nat × Nat) :
    (noteErased j d).pending.lookup position =
      if position.2 = j ∧ position.1 ∈ (d.problem.column j).map Prod.fst then some 0
      else d.pending.lookup position := by
  unfold noteErased
  generalize d.problem.column j = l
  induction l generalizing d with
  | nil => simp
  | cons e l ih =>
    rw [List.foldl_cons, ih, List.map_cons]
    by_cases here : position = (e.1, j)
    · rw [here, Draft.lookup_change_row, beq_self_eq_true, if_pos rfl, ite_self,
        if_pos ⟨rfl, List.mem_cons_self⟩]
    · rw [Draft.lookup_change_of_ne d 0 here]
      have later : position.2 = j ∧ position.1 ∈ e.1 :: l.map Prod.fst ↔
          position.2 = j ∧ position.1 ∈ l.map Prod.fst := by
        constructor
        · rintro ⟨column, row⟩
          rcases List.mem_cons.1 row with row | row
          · exact absurd (Prod.ext row column) here
          · exact ⟨column, row⟩
        · rintro ⟨column, row⟩
          exact ⟨column, List.mem_cons_of_mem _ row⟩
      simp only [later]

/-- Noting the coefficients of a row as rounded changes nothing else. -/
theorem notes_noteRounded (i : Nat) (r : Row α) (d : Draft α) : d.Notes (noteRounded i r d) := by
  refine List.foldlRecOn _ _ (Draft.Notes.refl d) fun d' noted e _ => ?_
  dsimp only
  split
  · exact noted
  · exact noted.change i e.1 _

/-- The rounded value waits for each coefficient of the row that rounding changes. -/
theorem lookup_noteRounded (i : Nat) {r : Row α} (h : r.Canonical) (d : Draft α) (j : Nat) :
    (noteRounded i r d).pending.lookup (i, j) =
      match r.coeff? j with
      | some a => if Scalar.round a == a then d.pending.lookup (i, j) else some (Scalar.round a)
      | none => d.pending.lookup (i, j) := by
  have sorted := h.sorted
  unfold noteRounded Row.coeff?
  generalize r.coeffs = l at sorted ⊢
  induction l generalizing d with
  | nil => rfl
  | cons e l ih =>
    obtain ⟨first, rest⟩ := Keyed.sorted_cons.1 sorted
    obtain ⟨j', a⟩ := e
    rw [List.foldl_cons, ih _ rest, List.lookup_cons]
    dsimp only
    by_cases column : j = j'
    · rw [column, Keyed.isOrder_natBefore.lookup_eq_none first, beq_self_eq_true]
      dsimp only
      split
      · rfl
      · rw [Draft.lookup_change_row, beq_self_eq_true, if_pos rfl]
    · have other : (i, j) ≠ (i, j') := fun same => column (congrArg Prod.snd same)
      have kept : (if Scalar.round a == a then d
          else d.change i j' (Scalar.round a)).pending.lookup (i, j) = d.pending.lookup (i, j) := by
        split
        · rfl
        · exact d.lookup_change_of_ne _ other
      rw [beq_false_of_ne column, kept]

/-- Nothing is noted for the other rows. -/
theorem lookup_noteRounded_of_ne {i k : Nat} (ne : k ≠ i) (r : Row α) (d : Draft α) (j : Nat) :
    (noteRounded i r d).pending.lookup (k, j) = d.pending.lookup (k, j) := by
  unfold noteRounded
  refine List.foldlRecOn
    (motive := fun d' : Draft α => d'.pending.lookup (k, j) = d.pending.lookup (k, j))
    _ _ rfl fun d' kept e _ => ?_
  have other : (k, j) ≠ (i, e.1) := fun same => ne (congrArg Prod.fst same)
  dsimp only
  split
  · exact kept
  · rw [d'.lookup_change_of_ne _ other]
    exact kept

end Reduction
end MipShrink
