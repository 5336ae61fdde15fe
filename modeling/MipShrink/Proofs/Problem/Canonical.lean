/-
# Canonical programs

A row is canonical if its coefficients stand in the order of their columns and none of them is
zero; a program is canonical if its rows are and it has no surplus.  Whatever is built is canonical
(`Builder.canonical_build`), and writing coefficients keeps it so (`Problem.Canonical.write`).

A canonical row is determined by its attributes, its sides and the coefficient of each column
(`Row.Canonical.ext`).  So what a write does is told by one equation (`Row.coeff?_overlay`): a
position that the changes mention has their value, and every other position the old one.
-/

import MipShrink.Problem.Builder
import MipShrink.Proofs.Keyed.Sorted

namespace MipShrink

variable {α : Type} [Scalar α]

namespace Row

/-- The coefficients stand in the order of their columns, and none is zero. -/
structure Canonical (r : Row α) : Prop where
  sorted : Keyed.Sorted Keyed.natBefore r.coeffs
  nonzero : ∀ e ∈ r.coeffs, Scalar.isZero e.2 = false

/-- The two parts of being canonical, side by side. -/
theorem canonical_iff (r : Row α) : r.Canonical ↔
    Keyed.Sorted Keyed.natBefore r.coeffs ∧ ∀ e ∈ r.coeffs, Scalar.isZero e.2 = false :=
  ⟨fun h => ⟨h.sorted, h.nonzero⟩, fun h => ⟨h.1, h.2⟩⟩

instance (r : Row α) : Decidable r.Canonical :=
  have : Decidable (Keyed.Sorted Keyed.natBefore r.coeffs) :=
    inferInstanceAs (Decidable (r.coeffs.Pairwise _))
  decidable_of_iff' _ r.canonical_iff

/-- What is stored for a coefficient: nothing for zero. -/
def stored (x : α) : Option α :=
  if Scalar.isZero x then none else some x

/-- Setting a coefficient stores it for its column and leaves the others alone. -/
theorem coeff?_setCoeff (j k : Nat) (x : α) (r : Row α) :
    (r.setCoeff j x).coeff? k = if k == j then stored x else r.coeff? k := by
  unfold setCoeff coeff? stored
  dsimp only
  split
  · rw [Keyed.lookup_drop]
  · rw [Keyed.lookup_put Keyed.isOrder_natBefore]

namespace Canonical

variable {r r' : Row α}

/-- Canonical rows are the same if they agree in all they show. -/
theorem ext (h : r.Canonical) (h' : r'.Canonical) (name : r.name = r'.name)
    (lhs : r.lhs = r'.lhs) (rhs : r.rhs = r'.rhs) (flags : r.flags = r'.flags)
    (coeffs : ∀ k, r.coeff? k = r'.coeff? k) : r = r' := by
  have same : r.coeffs = r'.coeffs := h.sorted.ext Keyed.isOrder_natBefore h'.sorted coeffs
  cases r
  cases r'
  simp_all

/-- Setting a coefficient keeps a row canonical. -/
theorem setCoeff (h : r.Canonical) (j : Nat) (x : α) : (r.setCoeff j x).Canonical := by
  unfold Row.setCoeff
  split
  · exact ⟨h.sorted.drop j, fun e mem => h.nonzero e ((List.mem_filter.1 mem).1)⟩
  · rename_i nonzero
    refine ⟨Keyed.sorted_put Keyed.isOrder_natBefore h.sorted j x, fun e mem => ?_⟩
    rcases Keyed.mem_put mem with rfl | mem
    · exact Bool.eq_false_iff.2 nonzero
    · exact h.nonzero e mem

/-- A canonical row has no zeros to drop. -/
theorem dropZeros_eq (h : r.Canonical) : r.dropZeros = r := by
  have kept : r.coeffs.filter (fun e => !Scalar.isZero e.2) = r.coeffs :=
    List.filter_eq_self.2 fun e mem => by rw [h.nonzero e mem]; rfl
  unfold dropZeros
  rw [kept]

/-- A canonical row shows exactly the coefficients it stores. -/
theorem coeff?_eq_some_iff (h : r.Canonical) {j : Nat} {a : α} :
    r.coeff? j = some a ↔ (j, a) ∈ r.coeffs :=
  h.sorted.lookup_eq_some_iff Keyed.isOrder_natBefore

/-- Only the coefficients count. -/
theorem of_coeffs_eq (h : r.Canonical) (eq : r'.coeffs = r.coeffs) : r'.Canonical :=
  ⟨eq ▸ h.sorted, eq ▸ h.nonzero⟩

end Canonical

/-- The row at place `i` with the changes of its place written into it. -/
def overlay (c : Changes α) (i : Nat) (r : Row α) : Row α :=
  c.foldl (fun r e => if e.1.1 = i then r.setCoeff e.1.2 e.2 else r) r

/-- The changes are written from the first to the last. -/
theorem overlay_cons (e : (Nat × Nat) × α) (c : Changes α) (i : Nat) (r : Row α) :
    overlay (e :: c) i r = overlay c i (if e.1.1 = i then r.setCoeff e.1.2 e.2 else r) := rfl

/-- Writing changes keeps a row canonical. -/
theorem Canonical.overlay {r : Row α} (h : r.Canonical) (c : Changes α) (i : Nat) :
    (Row.overlay c i r).Canonical := by
  induction c generalizing r with
  | nil => exact h
  | cons e c ih =>
    rw [overlay_cons]
    split
    · exact ih (h.setCoeff _ _)
    · exact ih h

/-- An operation that leaves the coefficients alone and does not look at them passes through the
writing of coefficients. -/
theorem overlay_comm {g : Row α → Row α} (comm : ∀ r j x, g (r.setCoeff j x) = (g r).setCoeff j x)
    (c : Changes α) (i : Nat) (r : Row α) : overlay c i (g r) = g (overlay c i r) := by
  induction c generalizing r with
  | nil => rfl
  | cons e c ih =>
    rw [overlay_cons, overlay_cons]
    split
    · rw [← comm, ih]
    · rw [ih]

/-- Only the coefficients of a row are written. -/
theorem overlay_eq (c : Changes α) (i : Nat) (r : Row α) :
    overlay c i r = { r with coeffs := (overlay c i r).coeffs } := by
  induction c generalizing r with
  | nil => rfl
  | cons e c ih =>
    rw [overlay_cons]
    split
    · exact ih (r.setCoeff e.1.2 e.2)
    · exact ih r

@[simp] theorem name_overlay (c : Changes α) (i : Nat) (r : Row α) :
    (overlay c i r).name = r.name := by
  rw [overlay_eq]

@[simp] theorem lhs_overlay (c : Changes α) (i : Nat) (r : Row α) :
    (overlay c i r).lhs = r.lhs := by
  rw [overlay_eq]

@[simp] theorem rhs_overlay (c : Changes α) (i : Nat) (r : Row α) :
    (overlay c i r).rhs = r.rhs := by
  rw [overlay_eq]

@[simp] theorem flags_overlay (c : Changes α) (i : Nat) (r : Row α) :
    (overlay c i r).flags = r.flags := by
  rw [overlay_eq]

/-- **What a write does.**  The changes have their positions in order, so each of them counts. -/
theorem coeff?_overlay {c : Changes α} (sorted : Keyed.Sorted Keyed.positionBefore c) (i k : Nat)
    (r : Row α) : (overlay c i r).coeff? k = ((c.lookup (i, k)).map stored).getD (r.coeff? k) := by
  induction c generalizing r with
  | nil => rfl
  | cons e c ih =>
    obtain ⟨first, rest⟩ := Keyed.sorted_cons.1 sorted
    rw [overlay_cons, ih rest, List.lookup_cons]
    by_cases eq : (i, k) = e.1
    · have absent : c.lookup (i, k) = none :=
        Keyed.isOrder_positionBefore.lookup_eq_none (eq ▸ first)
      rw [absent, ← eq, beq_self_eq_true, if_pos rfl, coeff?_setCoeff, beq_self_eq_true]
      rfl
    · have other : ((i, k) == e.1) = false := by simp [eq]
      rw [other]
      split
      · rename_i row
        have column : (k == e.1.2) = false := by
          rw [beq_eq_false_iff_ne]
          intro same
          exact eq (Prod.ext row.symm same)
        rw [coeff?_setCoeff, column]
        rfl
      · rfl

end Row

namespace Changes

/-- Each row has the changes of its place written into it. -/
theorem getElem?_writeTo (c : Changes α) (rows : List (Row α)) (i : Nat) :
    (c.writeTo rows)[i]? = (rows[i]?).map (Row.overlay c i) := by
  induction c generalizing rows with
  | nil =>
    have id : Row.overlay ([] : Changes α) i = fun r => r := rfl
    rw [id, Option.map_id']
    rfl
  | cons e c ih =>
    have step : writeTo (e :: c) rows =
        writeTo c (rows.modify e.1.1 (Row.setCoeff e.1.2 e.2)) := rfl
    rw [step, ih, List.getElem?_modify]
    cases rows[i]? with
    | none => rfl
    | some r => rfl

/-- Writing changes keeps the number of rows. -/
theorem length_writeTo (c : Changes α) (rows : List (Row α)) :
    (c.writeTo rows).length = rows.length :=
  List.foldlRecOn (motive := fun rows' : List (Row α) => rows'.length = rows.length) _ _ rfl
    fun _ kept _ _ => (List.length_modify ..).trans kept

omit [Scalar α] in
/-- Adding a change keeps the positions in order. -/
theorem sorted_add {c : Changes α} (sorted : Keyed.Sorted Keyed.positionBefore c) (i j : Nat)
    (x : α) : Keyed.Sorted Keyed.positionBefore (c.add i j x) :=
  Keyed.sorted_put Keyed.isOrder_positionBefore sorted _ _

omit [Scalar α] in
/-- A change that is added counts at its position, and the others count as before. -/
theorem lookup_add (c : Changes α) (i j : Nat) (x : α) (position : Nat × Nat) :
    (c.add i j x).lookup position = if position == (i, j) then some x else c.lookup position :=
  Keyed.lookup_put Keyed.isOrder_positionBefore ..

end Changes

namespace Problem

/-- The rows are canonical, and there is nothing besides rows and columns. -/
structure Canonical (p : Problem α) : Prop where
  rows : ∀ r ∈ p.rows, r.Canonical
  surplus : p.surplus = {}

/-- The two parts of being canonical, side by side. -/
theorem canonical_iff (p : Problem α) :
    p.Canonical ↔ (∀ r ∈ p.rows, r.Canonical) ∧ p.surplus = {} :=
  ⟨fun h => ⟨h.rows, h.surplus⟩, fun h => ⟨h.1, h.2⟩⟩

instance [DecidableEq α] (p : Problem α) : Decidable p.Canonical :=
  decidable_of_iff' _ p.canonical_iff

/-- A row of a canonical program is canonical. -/
theorem Canonical.row {p : Problem α} (h : p.Canonical) {i : Nat} {r : Row α}
    (row : p.rows[i]? = some r) : r.Canonical :=
  h.rows r (List.mem_of_getElem? row)

/-- Rows that are canonical at each place are canonical. -/
theorem canonical_of_getElem? {p : Problem α}
    (rows : ∀ (i : Nat) (r : Row α), p.rows[i]? = some r → r.Canonical)
    (surplus : p.surplus = {}) : p.Canonical :=
  ⟨fun r mem => by
    obtain ⟨i, row⟩ := List.mem_iff_getElem?.1 mem
    exact rows i r row, surplus⟩

/-- A canonical program after a write: each row has its changes, and nothing else is different. -/
theorem Canonical.write_eq {p : Problem α} (h : p.Canonical) (c : Changes α) :
    p.write c = { p with rows := c.writeTo p.rows } := by
  unfold write
  split
  · rename_i none
    rw [List.isEmpty_iff.1 none]
    rfl
  · have kept : (c.writeTo p.rows).map Row.dropZeros = c.writeTo p.rows := by
      apply List.ext_getElem?
      intro i
      rw [List.getElem?_map, Changes.getElem?_writeTo]
      cases row : p.rows[i]? with
      | none => rfl
      | some r => exact congrArg some ((h.row row).overlay c i).dropZeros_eq
    rw [kept, h.surplus]
    rfl

/-- Each row of a canonical program has the changes of its place written into it. -/
theorem Canonical.getElem?_write {p : Problem α} (h : p.Canonical) (c : Changes α) (i : Nat) :
    (p.write c).rows[i]? = (p.rows[i]?).map (Row.overlay c i) := by
  rw [h.write_eq]
  exact Changes.getElem?_writeTo ..

/-- Writing changes keeps a program canonical. -/
theorem Canonical.write {p : Problem α} (h : p.Canonical) (c : Changes α) :
    (p.write c).Canonical := by
  refine canonical_of_getElem? (fun i r' row' => ?_) (surplus_write h.surplus)
  rw [h.getElem?_write] at row'
  obtain ⟨r, row, rfl⟩ := Option.map_eq_some_iff.1 row'
  exact (h.row row).overlay c i

end Problem

namespace Builder

/-- **Whatever is built is canonical.** -/
theorem canonical_build {b : Builder α} {p : Problem α} (built : b.build = .ok p) :
    p.Canonical := by
  obtain ⟨-, rfl⟩ := (build_eq_ok_iff b p).1 built
  refine Problem.canonical_of_getElem? (fun i r row => ?_) rfl
  have written : (b.entries.writeTo (b.rows.map RowPlan.toRow))[i]? = some r := row
  rw [Changes.getElem?_writeTo, List.getElem?_map] at written
  obtain ⟨blank, planned, rfl⟩ := Option.map_eq_some_iff.1 written
  obtain ⟨plan, -, rfl⟩ := Option.map_eq_some_iff.1 planned
  have empty : plan.toRow.Canonical :=
    ⟨Keyed.sorted_nil, fun e mem => absurd mem List.not_mem_nil⟩
  exact empty.overlay b.entries i

end Builder
namespace Problem

/-- Two rows and two columns, one of them integral, with values that are not whole. -/
def blend : Problem Rat :=
  { name := "blend", sense := .minimize, offset := 0
    columns :=
      [{ name := "x", cost := 1, lower := 0, upper := 10, flags := {} },
        { name := "y", cost := 0, lower := 0, upper := 4, flags := { integral := true } }]
    rows :=
      [{ name := "r", coeffs := [(0, 1 / 2), (1, 5 / 3)], lhs := 1, rhs := 7 / 2, flags := {} },
        { name := "s", coeffs := [(0, 3), (1, -1 / 4)], lhs := 0, rhs := 2, flags := {} }] }

/-- The example is canonical. -/
theorem canonical_blend : blend.Canonical := by decide +kernel

end Problem
end MipShrink
