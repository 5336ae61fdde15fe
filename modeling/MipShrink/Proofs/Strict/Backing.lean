/-
# Programs whose coefficients are stored

A program without surplus is *backed* by what is stored of its matrix if both show the same
coefficients (`Storage.Backs`).  Then every look-up of a row or a column of the program succeeds,
and finds what the program has there.

A built program is backed (`Storage.backs_ofProblem`).  Changes of bounds, sides, costs and
attributes leave the coefficients alone, so the program stays backed (`Storage.Backs.congr`), and a
write of coefficients stores them anew (`Storage.Backs.rewrite`).  A draft *fits* the program of a
call if it is backed, has as many rows and columns, and notes no coefficient outside of the matrix
(`Draft.Fits`).
-/

import MipShrink.Proofs.Reduction.Buffered
import MipShrink.Proofs.Strict.Reductions

namespace MipShrink

variable {α : Type} [Scalar α]

namespace Storage

/-- The matrix of a program as it is stored. -/
def ofProblem (v : Conversion α) (p : Problem α) : Storage α :=
  assemble v p.nrows p.ncols p.matrix.entries

/-- The program has no surplus, and its coefficients are those that are stored. -/
structure Backs (m : Storage α) (p : Problem α) : Prop where
  surplus : p.surplus = {}
  shared : ∃ l, p.matrix.Holds p.nrows p.ncols (Changes.settled l) ∧
    m.Assembled p.nrows p.ncols (Changes.settled l)

namespace Backs

variable {m : Storage α} {p : Problem α}

/-- What is stored has as many rows as the program. -/
theorem nrows (h : m.Backs p) : m.nrows = p.nrows := by
  obtain ⟨l, -, assembled⟩ := h.shared
  exact assembled.nrows_eq

/-- What is stored has as many columns as the program. -/
theorem ncols (h : m.Backs p) : m.ncols = p.ncols := by
  obtain ⟨l, -, assembled⟩ := h.shared
  exact assembled.ncols_eq

/-- A program that is backed is canonical. -/
theorem canonical (h : m.Backs p) : p.Canonical := by
  obtain ⟨l, holds, -⟩ := h.shared
  exact Problem.canonical_of_getElem? (fun i r found => (holds.row i r found).1) h.surplus

/-- A row is read with its coefficients. -/
theorem readRow (h : m.Backs p) {i : Nat} {r : Row α} (found : p.rows[i]? = some r) :
    m.readRow i = .ok r.coeffs := by
  obtain ⟨l, holds, assembled⟩ := h.shared
  have below : i < p.nrows := (List.getElem?_eq_some_iff.1 found).1
  have shows := assembled.shows
  obtain ⟨canonical, coeffs⟩ := holds.row i r found
  rw [assembled.readRow below]
  refine congrArg Except.ok ((shows.sorted_row i below).ext_mem Keyed.isOrder_natBefore
    canonical.sorted fun e => ?_)
  rw [← canonical.coeff?_eq_some_iff, coeffs]
  exact shows.mem_row i below e.1 e.2

/-- The coefficients of a row belong to columns. -/
theorem lt_ncols (h : m.Backs p) {i : Nat} {r : Row α} (found : p.rows[i]? = some r)
    {e : Nat × α} (mem : e ∈ r.coeffs) : e.1 < p.ncols := by
  obtain ⟨l, holds, assembled⟩ := h.shared
  obtain ⟨canonical, coeffs⟩ := holds.row i r found
  have entry := (coeffs e.1).symm.trans (canonical.coeff?_eq_some_iff.2 mem)
  exact (assembled.inside _
    ((assembled.sorted.lookup_eq_some_iff Keyed.isOrder_positionBefore).1 entry)).2

/-- A column is read with its coefficients. -/
theorem readColumn (h : m.Backs p) {j : Nat} (below : j < p.ncols) :
    m.readColumn j = .ok (p.column j) := by
  obtain ⟨l, holds, assembled⟩ := h.shared
  have shows := assembled.shows
  have same := holds.shows assembled.sorted fun e mem => (assembled.inside e mem).1
  rw [assembled.readColumn below]
  unfold Problem.column
  rw [h.surplus]
  refine congrArg Except.ok ((shows.sorted_column j below).ext_mem Keyed.isOrder_natBefore
    (same.sorted_column j below) fun e => ?_)
  exact (shows.mem_column j below e.1 e.2).trans (same.mem_column j below e.1 e.2).symm

/-- A coefficient inside the matrix is found without fault. -/
theorem readCoeff (h : m.Backs p) {i : Nat} (row : i < p.nrows) {j : Nat} (column : j < p.ncols) :
    m.readCoeff i j = .ok (p.matrix.coeff? i j) := by
  obtain ⟨l, holds, assembled⟩ := h.shared
  have same := holds.shows assembled.sorted fun e mem => (assembled.inside e mem).1
  rw [assembled.readCoeff row]
  exact congrArg Except.ok ((assembled.shows.coeff? i row j column).trans
    (same.coeff? i row j column).symm)

/-- There are as many coefficients stored as the program has. -/
theorem nnz (h : m.Backs p) : m.nnz = (p.allRows.flatMap Row.coeffs).length := by
  obtain ⟨l, holds, assembled⟩ := h.shared
  have same := holds.shows assembled.sorted fun e mem => (assembled.inside e mem).1
  unfold Problem.allRows
  rw [h.surplus, List.append_nil]
  exact assembled.shows.nnz.trans same.nnz.symm

/-- Only the coefficients and the number of columns count. -/
theorem congr (h : m.Backs p) {p' : Problem α}
    (coeffs : p'.rows.map Row.coeffs = p.rows.map Row.coeffs) (ncols : p'.ncols = p.ncols)
    (surplus : p'.surplus = p.surplus) : m.Backs p' := by
  obtain ⟨l, holds, assembled⟩ := h.shared
  have nrows : p'.nrows = p.nrows := by
    have lengths := congrArg List.length coeffs
    rwa [List.length_map, List.length_map] at lengths
  refine ⟨surplus.trans h.surplus, l, ?_, nrows ▸ ncols ▸ assembled⟩
  refine ⟨rfl, rfl, fun i r' found' => ?_⟩
  have line : (p.rows[i]?).map Row.coeffs = some r'.coeffs := by
    rw [← List.getElem?_map, ← coeffs, List.getElem?_map]
    exact congrArg (Option.map Row.coeffs) found'
  obtain ⟨r, found, same⟩ := Option.map_eq_some_iff.1 line
  obtain ⟨canonical, entries⟩ := holds.row i r found
  refine ⟨canonical.of_coeffs_eq same.symm, fun j => ?_⟩
  rw [← entries j]
  exact congrArg (List.lookup j) same.symm

/-- **What is written is stored.** -/
theorem rewrite {v : Conversion α} (lawful : v.Lawful) (h : m.Backs p) {c : Changes α}
    (sorted : Keyed.Sorted Keyed.positionBefore c)
    (inside : ∀ e ∈ c, e.1.1 < p.nrows ∧ e.1.2 < p.ncols) :
    ∃ m', m.rewrite v c = .ok m' ∧ m'.Backs (p.write c) := by
  obtain ⟨l, holds, assembled⟩ := h.shared
  obtain ⟨m', rewritten, stored⟩ := assembled.rewrite lawful sorted inside
  obtain ⟨w, written, held⟩ := holds.write? inside
  rw [sorted.ofList_eq Keyed.isOrder_positionBefore] at written
  have rows : w = (p.write c).matrix := by
    unfold Matrix.write? at written
    split at written
    · rw [h.canonical.write_eq]
      exact (Option.some.inj written).symm
    · cases written
  rw [rows] at held
  have nrows : (p.write c).nrows = p.nrows := held.nrows
  have ncols : (p.write c).ncols = p.ncols := held.ncols
  refine ⟨m', rewritten, Problem.surplus_write h.surplus, l ++ c, ?_, ?_⟩
  · rw [nrows, ncols]
    exact held
  · rw [nrows, ncols]
    exact stored

end Backs

/-- **A program is backed from the start** if it is canonical and its coefficients belong to
columns. -/
theorem backs_ofProblem {v : Conversion α} (lawful : v.Lawful) {p : Problem α}
    (canonical : p.Canonical) (columns : ∀ r ∈ p.rows, ∀ e ∈ r.coeffs, e.1 < p.ncols) :
    (ofProblem v p).Backs p := by
  have sorted : Keyed.Sorted Keyed.positionBefore p.matrix.entries :=
    Matrix.sorted_entries fun i r row => canonical.row row
  have inside : ∀ e ∈ p.matrix.entries, e.1.1 < p.nrows ∧ e.1.2 < p.ncols := by
    intro e mem
    obtain ⟨r, row, entry⟩ := Matrix.mem_entries.1 mem
    exact ⟨(List.getElem?_eq_some_iff.1 row).1,
      columns r (List.mem_of_getElem? row) _ entry⟩
  have settled : Changes.settled p.matrix.entries = p.matrix.entries := by
    unfold Changes.settled
    rw [sorted.ofList_eq Keyed.isOrder_positionBefore]
    refine List.filter_eq_self.2 fun e mem => ?_
    obtain ⟨r, row, entry⟩ := Matrix.mem_entries.1 mem
    rw [(canonical.row row).nonzero _ entry]
    rfl
  refine ⟨canonical.surplus, p.matrix.entries, ⟨rfl, rfl, fun i r found => ?_⟩, ?_⟩
  · refine ⟨canonical.row found, fun j => Option.ext fun a => ?_⟩
    rw [settled, (canonical.row found).coeff?_eq_some_iff,
      sorted.lookup_eq_some_iff Keyed.isOrder_positionBefore, Matrix.mem_entries]
    constructor
    · exact fun mem => ⟨r, found, mem⟩
    · rintro ⟨r', found', mem⟩
      obtain rfl := Option.some.inj (found.symm.trans found')
      exact mem
  · have assembled := assembled_assemble lawful sorted inside
    unfold Changes.settled
    rwa [sorted.ofList_eq Keyed.isOrder_positionBefore]

end Storage

namespace Builder

/-- The coefficients of what is built belong to columns, because the builder has checked them. -/
theorem lt_ncols_of_build {b : Builder α} {p : Problem α} (built : b.build = .ok p) :
    ∀ r ∈ p.rows, ∀ e ∈ r.coeffs, e.1 < p.ncols := by
  obtain ⟨unfaulted, rfl⟩ := (build_eq_ok_iff b p).1 built
  have inside : ∀ e ∈ b.entries, e.1.2 < b.columns.length := by
    intro e mem
    unfold fault? at unfaulted
    split at unfaulted
    · cases unfaulted
    · rename_i none
      have within := List.find?_eq_none.1 none e mem
      unfold isOutside at within
      simp only [Bool.or_eq_true, decide_eq_true_eq, not_or] at within
      omega
  have ncols : b.toProblem.ncols = b.columns.length := List.length_map ..
  rw [ncols]
  refine List.foldlRecOn
    (motive := fun rows : List (Row α) => ∀ r ∈ rows, ∀ e ∈ r.coeffs, e.1 < b.columns.length)
    _ _ ?_ fun rows before c mem => ?_
  · intro r mem e entry
    obtain ⟨plan, -, rfl⟩ := List.mem_map.1 mem
    exact absurd entry List.not_mem_nil
  · refine forall_mem_modify before fun r found e entry => ?_
    unfold Row.setCoeff at entry
    dsimp only at entry
    split at entry
    · exact before r (List.mem_of_getElem? found) e (List.mem_filter.1 entry).1
    · rcases Keyed.mem_put entry with rfl | old
      · exact inside c mem
      · exact before r (List.mem_of_getElem? found) e old

end Builder

/-! ### Drafts -/

namespace Draft

/-- The draft of a call on the program `start` is backed, has its rows and columns, and notes
coefficients inside of the matrix only. -/
structure Fits (start : Problem α) (m : Storage α) (d : Draft α) : Prop where
  backed : m.Backs d.problem
  nrows : d.problem.nrows = start.nrows
  ncols : d.problem.ncols = start.ncols
  sorted : Keyed.Sorted Keyed.positionBefore d.pending
  inside : ∀ e ∈ d.pending, e.1.1 < start.nrows ∧ e.1.2 < start.ncols

/-- A draft of a program that is backed fits. -/
theorem fits_ofInstance {i : Instance α} {m : Storage α} (backed : m.Backs i.problem) :
    (ofInstance i).Fits i.problem m :=
  ⟨backed, rfl, rfl, Keyed.sorted_nil, fun _ mem => absurd mem List.not_mem_nil⟩

namespace Fits

variable {start : Problem α} {m : Storage α} {d : Draft α}

/-- Whatever changes no coefficient and notes none keeps a draft fit. -/
theorem congr (h : d.Fits start m) {d' : Draft α}
    (coeffs : d'.problem.rows.map Row.coeffs = d.problem.rows.map Row.coeffs)
    (ncols : d'.problem.ncols = d.problem.ncols)
    (surplus : d'.problem.surplus = d.problem.surplus) (pending : d'.pending = d.pending) :
    d'.Fits start m := by
  have nrows : d'.problem.nrows = d.problem.nrows := by
    have lengths := congrArg List.length coeffs
    rwa [List.length_map, List.length_map] at lengths
  exact ⟨h.backed.congr coeffs ncols surplus, nrows.trans h.nrows, ncols.trans h.ncols,
    pending ▸ h.sorted, pending ▸ h.inside⟩

/-- Changing the attributes and sides of a row keeps a draft fitting. -/
theorem mapRow (h : d.Fits start m) (i : Nat) {f : Row α → Row α}
    (coeffs : ∀ r, (f r).coeffs = r.coeffs) :
    (d.mapProblem fun p => p.mapRow i f).Fits start m := by
  refine h.congr ?_ rfl rfl rfl
  refine List.ext_getElem? fun k => ?_
  show ((d.problem.rows.modify i f).map Row.coeffs)[k]? = _
  rw [List.getElem?_map, List.getElem?_modify, List.getElem?_map]
  cases d.problem.rows[k]? with
  | none => rfl
  | some r =>
    refine congrArg some ?_
    dsimp only
    split
    · exact coeffs r
    · rfl

/-- Changing a column keeps a draft fitting. -/
theorem mapColumn (h : d.Fits start m) (j : Nat) (f : Column α → Column α) :
    (d.mapProblem fun p => p.mapColumn j f).Fits start m :=
  h.congr rfl (Problem.ncols_mapColumn j f d.problem) rfl rfl

/-- A change at a position inside the matrix keeps a draft fitting. -/
theorem change (h : d.Fits start m) {i j : Nat} (row : i < start.nrows) (column : j < start.ncols)
    (x : α) : (d.change i j x).Fits start m where
  backed := h.backed
  nrows := h.nrows
  ncols := h.ncols
  sorted := Changes.sorted_add h.sorted i j x
  inside e mem := by
    rcases Keyed.mem_put mem with rfl | old
    · exact ⟨row, column⟩
    · exact h.inside e old

/-- **A draft that fits is flushed without fault**, and fits what is stored then. -/
theorem flush {v : Conversion α} (lawful : v.Lawful) (h : d.Fits start m) :
    ∃ m', m.rewrite v d.pending = .ok m' ∧ d.flush.Fits start m' := by
  have inside : ∀ e ∈ d.pending, e.1.1 < d.problem.nrows ∧ e.1.2 < d.problem.ncols := by
    rw [h.nrows, h.ncols]
    exact h.inside
  obtain ⟨m', rewritten, backed⟩ := h.backed.rewrite lawful h.sorted inside
  have nrows : d.flush.problem.nrows = d.problem.nrows := by
    show (d.problem.write d.pending).nrows = _
    rw [h.backed.canonical.write_eq]
    exact Changes.length_writeTo ..
  have ncols : d.flush.problem.ncols = d.problem.ncols := by
    show (d.problem.write d.pending).ncols = _
    rw [h.backed.canonical.write_eq]
    rfl
  exact ⟨m', rewritten, backed, nrows.trans h.nrows, ncols.trans h.ncols, Keyed.sorted_nil,
    fun _ mem => absurd mem List.not_mem_nil⟩

end Fits
end Draft
end MipShrink
