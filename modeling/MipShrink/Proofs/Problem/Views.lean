/-
# Rows, columns and positions show the same coefficients

The coefficients of a matrix can be looked at by rows, by columns, at a position, and all together
(`Views`).  The views show a finite map if each of them lists exactly the entries of the map, rows
and columns in increasing order (`Views.Shows`).

The map is what has been written so far: a later value of a position replaces an earlier one, and a
position with a zero is empty (`Changes.settled`).  A matrix shows this map from the start
(`Matrix.holds_ofEntries?`) and after every write (`Matrix.Holds.write?`).
-/

import Mathlib.Algebra.Order.Ring.Nat
import MipShrink.Proofs.Reduction.Writes

namespace MipShrink

variable {α β κ : Type}

/-! ### Lines -/

namespace Keyed

/-- Sorted lines one after the other are sorted by position. -/
theorem sorted_flatMap (place : κ → Nat) {l : List κ} {f : κ → List (Nat × β)}
    (places : l.Pairwise fun a b => place a < place b) (lines : ∀ a ∈ l, Sorted natBefore (f a)) :
    Sorted positionBefore (l.flatMap fun a => (f a).map fun e => ((place a, e.1), e.2)) := by
  refine List.pairwise_flatMap.2 ⟨fun a mem => ?_, places.imp fun below u left v right => ?_⟩
  · refine List.pairwise_map.2 ((lines a mem).imp fun below => ?_)
    exact positionBefore_iff.2 (.inr ⟨rfl, of_decide_eq_true below⟩)
  · obtain ⟨e, -, rfl⟩ := List.mem_map.1 left
    obtain ⟨e', -, rfl⟩ := List.mem_map.1 right
    exact positionBefore_iff.2 (.inl below)

/-- The entries of lines `0, …, n - 1`, by their lines and the places there. -/
def gather (n : Nat) (line : Nat → List (Nat × β)) : List ((Nat × Nat) × β) :=
  (List.range n).flatMap fun k => (line k).map fun e => ((k, e.1), e.2)

variable {n : Nat} {line : Nat → List (Nat × β)}

/-- What is gathered are the entries of the lines. -/
theorem mem_gather {e : (Nat × Nat) × β} :
    e ∈ gather n line ↔ e.1.1 < n ∧ (e.1.2, e.2) ∈ line e.1.1 := by
  obtain ⟨⟨k, j⟩, a⟩ := e
  simp only [gather, List.mem_flatMap, List.mem_range, List.mem_map, Prod.mk.injEq, Prod.exists]
  constructor
  · rintro ⟨k', below, j', a', mem, ⟨rfl, rfl⟩, rfl⟩
    exact ⟨below, mem⟩
  · rintro ⟨below, mem⟩
    exact ⟨k, below, j, a, mem, ⟨rfl, rfl⟩, rfl⟩

/-- As many entries are gathered as the lines have. -/
theorem length_gather :
    (gather n line).length = ((List.range n).map fun k => (line k).length).sum := by
  unfold gather
  rw [List.length_flatMap]
  simp only [List.length_map]

/-- Lines in order are gathered in order. -/
theorem sorted_gather (lines : ∀ k < n, Sorted natBefore (line k)) :
    Sorted positionBefore (gather n line) :=
  sorted_flatMap id List.pairwise_lt_range fun k mem => lines k (List.mem_range.1 mem)

variable {map : List ((Nat × Nat) × β)}

/-- Lines that list the entries of a map make up the map. -/
theorem gather_eq (sorted : Sorted positionBefore map) (inside : ∀ e ∈ map, e.1.1 < n)
    (lines : ∀ k < n, Sorted natBefore (line k))
    (members : ∀ k < n, ∀ j a, (j, a) ∈ line k ↔ map.lookup (k, j) = some a) :
    gather n line = map := by
  refine (sorted_gather lines).ext_mem isOrder_positionBefore sorted fun e => ?_
  rw [mem_gather]
  constructor
  · rintro ⟨below, mem⟩
    exact (sorted.lookup_eq_some_iff isOrder_positionBefore).1 ((members _ below _ _).1 mem)
  · intro mem
    have below := inside e mem
    exact ⟨below, (members _ below _ _).2
      ((sorted.lookup_eq_some_iff isOrder_positionBefore).2 mem)⟩

/-- Lines across, which list the entries of a map by their second numbers, hold all of them. -/
theorem length_gather_across (sorted : Sorted positionBefore map) (inside : ∀ e ∈ map, e.1.2 < n)
    (lines : ∀ k < n, Sorted natBefore (line k))
    (members : ∀ k < n, ∀ i a, (i, a) ∈ line k ↔ map.lookup (i, k) = some a) :
    (gather n line).length = map.length := by
  let turn : (Nat × Nat) × β → (Nat × Nat) × β := fun e => ((e.1.2, e.1.1), e.2)
  have inverse (e : (Nat × Nat) × β) : turn (turn e) = e := rfl
  have nodup : (map.map turn).Nodup := List.pairwise_map.2 <|
    (sorted.nodup isOrder_positionBefore).imp fun ne same => ne (congrArg turn same)
  have perm : (gather n line).Perm (map.map turn) := by
    refine (List.perm_ext_iff_of_nodup
      ((sorted_gather lines).nodup isOrder_positionBefore) nodup).2 fun e => ?_
    rw [mem_gather, List.mem_map]
    constructor
    · rintro ⟨below, mem⟩
      exact ⟨turn e, (sorted.lookup_eq_some_iff isOrder_positionBefore).1
        ((members _ below _ _).1 mem), inverse e⟩
    · rintro ⟨e', mem, rfl⟩
      have below := inside e' mem
      exact ⟨below, (members _ below _ _).2
        ((sorted.lookup_eq_some_iff isOrder_positionBefore).2 mem)⟩
  rw [perm.length_eq, List.length_map]

end Keyed

/-! ### What has been written -/

namespace Changes

variable [Scalar α]

/-- The map that values of positions make: a later value replaces an earlier one, and zeros are left
out. -/
def settled (l : List ((Nat × Nat) × α)) : Changes α :=
  (Keyed.ofList Keyed.positionBefore l).filter fun e => !Scalar.isZero e.2

/-- Without its zeros a map stores what it did. -/
theorem lookup_filter {l : Changes α} (sorted : Keyed.Sorted Keyed.positionBefore l)
    (position : Nat × Nat) :
    (l.filter fun e => !Scalar.isZero e.2).lookup position =
      (l.lookup position).bind Row.stored := by
  refine Option.ext fun a => ?_
  rw [(sorted.filter _).lookup_eq_some_iff Keyed.isOrder_positionBefore, List.mem_filter,
    ← sorted.lookup_eq_some_iff Keyed.isOrder_positionBefore, Option.bind_eq_some_iff]
  unfold Row.stored
  constructor
  · rintro ⟨found, nonzero⟩
    exact ⟨a, found, by simpa using nonzero⟩
  · rintro ⟨b, found, kept⟩
    split at kept
    · cases kept
    · rename_i nonzero
      obtain rfl := Option.some.inj kept
      exact ⟨found, by simpa using nonzero⟩

/-- What is stored is not zero. -/
theorem bind_stored (x : Option α) : (x.bind Row.stored).bind Row.stored = x.bind Row.stored := by
  cases x with
  | none => rfl
  | some a =>
    show (Row.stored a).bind Row.stored = Row.stored a
    unfold Row.stored
    split
    · rfl
    · rename_i nonzero
      exact if_neg nonzero

variable (l b : List ((Nat × Nat) × α))

/-- Settled changes have their positions in order. -/
theorem sorted_settled : Keyed.Sorted Keyed.positionBefore (settled l) :=
  (Keyed.sorted_ofList Keyed.isOrder_positionBefore l).filter _

/-- Settling adds no entry. -/
theorem mem_of_mem_settled {l : List ((Nat × Nat) × α)} {e : (Nat × Nat) × α}
    (mem : e ∈ settled l) : e ∈ l :=
  Keyed.mem_of_mem_ofList (List.mem_filter.1 mem).1

/-- **Of the values of a position the last one counts, unless it is zero.** -/
theorem lookup_settled (position : Nat × Nat) :
    (settled l).lookup position = (l.reverse.lookup position).bind Row.stored := by
  unfold settled
  rw [lookup_filter (Keyed.sorted_ofList Keyed.isOrder_positionBefore l),
    Keyed.lookup_ofList Keyed.isOrder_positionBefore]

/-- Settling twice is settling once. -/
theorem settled_settled : settled (settled l) = settled l := by
  have order := Keyed.isOrder_positionBefore
  refine (sorted_settled _).ext order (sorted_settled l) fun position => ?_
  rw [lookup_settled, (sorted_settled l).lookup_reverse order, lookup_settled, bind_stored]

/-- Values that are written later replace the others. -/
theorem lookup_settled_append (position : Nat × Nat) : (settled (l ++ b)).lookup position =
    (((Keyed.ofList Keyed.positionBefore b).lookup position).map Row.stored).getD
      ((settled l).lookup position) := by
  rw [lookup_settled, lookup_settled, Keyed.lookup_ofList Keyed.isOrder_positionBefore,
    List.reverse_append, List.lookup_append]
  cases b.reverse.lookup position <;> rfl

/-- Entries into which changes are put, without the zeros. -/
theorem filter_foldl_put : ((Keyed.ofList Keyed.positionBefore b).foldl
      (fun l e => Keyed.put Keyed.positionBefore e.1 e.2 l) (settled l)).filter
        (fun e => !Scalar.isZero e.2) = settled (l ++ b) := by
  have order := Keyed.isOrder_positionBefore
  have sorted := Keyed.sorted_foldl_put order (Keyed.ofList Keyed.positionBefore b)
    (sorted_settled l)
  refine (sorted.filter _).ext order (sorted_settled _) fun position => ?_
  rw [lookup_filter sorted, Keyed.lookup_foldl_put order, lookup_settled_append,
    (Keyed.sorted_ofList order b).lookup_reverse order]
  cases (Keyed.ofList Keyed.positionBefore b).lookup position with
  | none =>
    show ((settled l).lookup position).bind Row.stored = (settled l).lookup position
    rw [lookup_settled, bind_stored]
  | some x => rfl

omit [Scalar α] in
/-- What is gathered belongs to the matrix if all values do. -/
theorem all_within {b : List ((Nat × Nat) × α)} {nrows ncols : Nat}
    (inside : ∀ e ∈ b, e.1.1 < nrows ∧ e.1.2 < ncols) : ((Keyed.ofList Keyed.positionBefore b).all
      fun e => decide (e.1.1 < nrows) && decide (e.1.2 < ncols)) = true := by
  refine List.all_eq_true.2 fun e mem => ?_
  rw [Bool.and_eq_true, decide_eq_true_iff, decide_eq_true_iff]
  exact inside e (Keyed.mem_of_mem_ofList mem)

omit [Scalar α] in
/-- Buffers that are written one after the other add up, if each of them is added by its write. -/
theorem foldlM_writes {γ : Type} (write : γ → Changes α → Option γ)
    (Has : List ((Nat × Nat) × α) → γ → Prop) {inside : (Nat × Nat) × α → Prop}
    (step : ∀ {l b x}, Has l x → (∀ e ∈ b, inside e) →
      ∃ y, write x (Keyed.ofList Keyed.positionBefore b) = some y ∧ Has (l ++ b) y)
    {l : List ((Nat × Nat) × α)} {x : γ} (has : Has l x)
    {buffers : List (List ((Nat × Nat) × α))} (all : ∀ e ∈ buffers.flatten, inside e) :
    ∃ y, (buffers.map (Keyed.ofList Keyed.positionBefore)).foldlM write x = some y ∧
      Has (l ++ buffers.flatten) y := by
  induction buffers generalizing l x with
  | nil => exact ⟨x, rfl, by rwa [List.flatten_nil, List.append_nil]⟩
  | cons b buffers ih =>
    rw [List.flatten_cons] at all ⊢
    obtain ⟨y, written, next⟩ := step has fun e mem => all e (List.mem_append_left _ mem)
    obtain ⟨z, rest, last⟩ := ih next fun e mem => all e (List.mem_append_right _ mem)
    rw [List.append_assoc] at last
    refine ⟨z, ?_, last⟩
    rw [List.map_cons, List.foldlM_cons, written]
    exact rest

end Changes

/-! ### Views -/

/-- Ways to look at the coefficients of a matrix. -/
structure Views (α : Type) where
  /-- The coefficients of a row with their columns. -/
  row : Nat → List (Nat × α)
  /-- The coefficients of a column with their rows. -/
  column : Nat → List (Nat × α)
  columnLength : Nat → Nat
  coeff? : Nat → Nat → Option α
  entries : Changes α
  nnz : Nat

namespace Views

/-- The views of a matrix with so many rows and columns show the map. -/
structure Shows (nrows ncols : Nat) (map : Changes α) (v : Views α) : Prop where
  sorted_row : ∀ i < nrows, Keyed.Sorted Keyed.natBefore (v.row i)
  mem_row : ∀ i < nrows, ∀ j a, (j, a) ∈ v.row i ↔ map.lookup (i, j) = some a
  sorted_column : ∀ j < ncols, Keyed.Sorted Keyed.natBefore (v.column j)
  mem_column : ∀ j < ncols, ∀ i a, (i, a) ∈ v.column j ↔ map.lookup (i, j) = some a
  columnLength : ∀ j < ncols, v.columnLength j = (v.column j).length
  coeff? : ∀ i < nrows, ∀ j < ncols, v.coeff? i j = map.lookup (i, j)
  entries : v.entries = map
  nnz : v.nnz = map.length

variable {nrows ncols : Nat} {map : Changes α} {v : Views α}

/-- The lengths of the rows add up to the number of coefficients. -/
theorem Shows.sum_rows (h : v.Shows nrows ncols map)
    (sorted : Keyed.Sorted Keyed.positionBefore map) (inside : ∀ e ∈ map, e.1.1 < nrows) :
    ((List.range nrows).map fun i => (v.row i).length).sum = v.nnz := by
  rw [h.nnz, ← Keyed.length_gather, Keyed.gather_eq sorted inside h.sorted_row h.mem_row]

/-- So do the lengths of the columns. -/
theorem Shows.sum_columns (h : v.Shows nrows ncols map)
    (sorted : Keyed.Sorted Keyed.positionBefore map) (inside : ∀ e ∈ map, e.1.2 < ncols) :
    ((List.range ncols).map v.columnLength).sum = v.nnz := by
  have lengths : (List.range ncols).map v.columnLength =
      (List.range ncols).map fun j => (v.column j).length :=
    List.map_congr_left fun j mem => h.columnLength j (List.mem_range.1 mem)
  rw [lengths, h.nnz, ← Keyed.length_gather,
    Keyed.length_gather_across sorted inside h.sorted_column h.mem_column]

end Views

/-! ### Matrices -/

namespace Matrix

/-- The views of a matrix of rows. -/
def views (m : Matrix α) : Views α :=
  { row := fun i => ((m.rows[i]?).map Row.coeffs).getD []
    column := fun j => m.column j
    columnLength := fun j => (m.column j).length
    coeff? := fun i j => m.coeff? i j
    entries := m.entries
    nnz := m.nnz }

variable [Scalar α]

/-- The rows of the matrix are canonical and have the coefficients of the map. -/
structure Holds (nrows ncols : Nat) (map : Changes α) (m : Matrix α) : Prop where
  nrows : m.nrows = nrows
  ncols : m.ncols = ncols
  row : ∀ i r, m.rows[i]? = some r → r.Canonical ∧ ∀ j, r.coeff? j = map.lookup (i, j)

variable {nrows ncols : Nat} {map : Changes α} {m : Matrix α}

omit [Scalar α] in
/-- An entry is a coefficient of its row. -/
theorem mem_entries {e : (Nat × Nat) × α} :
    e ∈ m.entries ↔ ∃ r, m.rows[e.1.1]? = some r ∧ (e.1.2, e.2) ∈ r.coeffs := by
  unfold Matrix.entries
  simp only [List.mem_flatMap, List.mem_map, List.mem_zipIdx_iff_getElem?, Prod.exists]
  constructor
  · rintro ⟨r, i, row, j, a, mem, rfl⟩
    exact ⟨r, row, mem⟩
  · rintro ⟨r, row, mem⟩
    exact ⟨r, e.1.1, row, e.1.2, e.2, mem, rfl⟩

/-- Entries come in the order of their positions. -/
theorem sorted_entries (rows : ∀ (i : Nat) (r : Row α), m.rows[i]? = some r → r.Canonical) :
    Keyed.Sorted Keyed.positionBefore m.entries :=
  Keyed.sorted_flatMap Prod.snd (pairwise_zipIdx m.rows) fun p mem =>
    (rows p.2 p.1 (List.mem_zipIdx_iff_getElem?.1 mem)).sorted

/-- The rows of the matrix, one after the other, make up the map. -/
theorem Holds.entries (h : m.Holds nrows ncols map)
    (sorted : Keyed.Sorted Keyed.positionBefore map) (inside : ∀ e ∈ map, e.1.1 < nrows) :
    m.entries = map := by
  have lines := sorted_entries fun i r row => (h.row i r row).1
  refine lines.ext_mem Keyed.isOrder_positionBefore sorted fun e => ?_
  rw [← sorted.lookup_eq_some_iff Keyed.isOrder_positionBefore, mem_entries]
  constructor
  · rintro ⟨r, row, mem⟩
    obtain ⟨canonical, coeffs⟩ := h.row _ r row
    rw [← coeffs]
    exact canonical.coeff?_eq_some_iff.2 mem
  · intro found
    have below : e.1.1 < m.rows.length :=
      Nat.lt_of_lt_of_eq
        (inside e ((sorted.lookup_eq_some_iff Keyed.isOrder_positionBefore).1 found)) h.nrows.symm
    obtain ⟨canonical, coeffs⟩ := h.row _ _ (List.getElem?_eq_getElem below)
    rw [← coeffs] at found
    exact ⟨_, List.getElem?_eq_getElem below, canonical.coeff?_eq_some_iff.1 found⟩

omit [Scalar α] in
/-- There are as many entries as coefficients. -/
theorem length_entries (m : Matrix α) : m.entries.length = m.nnz := by
  have rows : (m.rows.zipIdx.map fun p => p.1.coeffs.length) =
      m.rows.map fun r => r.coeffs.length := by
    calc m.rows.zipIdx.map (fun p => p.1.coeffs.length)
        = (m.rows.zipIdx.map Prod.fst).map fun r => r.coeffs.length := by
          rw [List.map_map]
          rfl
      _ = m.rows.map fun r => r.coeffs.length := by rw [List.zipIdx_map_fst]
  unfold nnz Matrix.entries
  rw [List.length_flatMap, List.length_flatMap, ← rows]
  simp only [List.length_map]

/-- **A matrix shows the map that its rows hold.** -/
theorem Holds.shows (h : m.Holds nrows ncols map) (sorted : Keyed.Sorted Keyed.positionBefore map)
    (inside : ∀ e ∈ map, e.1.1 < nrows) : m.views.Shows nrows ncols map := by
  have row (i : Nat) (below : i < nrows) : ∃ r, m.rows[i]? = some r ∧ m.views.row i = r.coeffs := by
    have found := List.getElem?_eq_getElem (Nat.lt_of_lt_of_eq below h.nrows.symm)
    refine ⟨_, found, ?_⟩
    show ((m.rows[i]?).map Row.coeffs).getD [] = _
    rw [found]
    rfl
  constructor
  · intro i below
    obtain ⟨r, found, coeffs⟩ := row i below
    rw [coeffs]
    exact (h.row i r found).1.sorted
  · intro i below j a
    obtain ⟨r, found, coeffs⟩ := row i below
    obtain ⟨canonical, same⟩ := h.row i r found
    rw [coeffs, ← same, canonical.coeff?_eq_some_iff]
  · exact fun j _ => m.sorted_column j
  · intro j _ i a
    show (i, a) ∈ m.column j ↔ _
    rw [mem_column_iff]
    constructor
    · rintro ⟨r, found, entry⟩
      rw [← (h.row i r found).2]
      exact entry
    · intro found
      have below := inside _ ((sorted.lookup_eq_some_iff Keyed.isOrder_positionBefore).1 found)
      obtain ⟨r, place, -⟩ := row i below
      exact ⟨r, place, ((h.row i r place).2 j).trans found⟩
  · exact fun j _ => rfl
  · intro i below j _
    obtain ⟨r, found, -⟩ := row i below
    show (m.rows[i]?).bind (Row.coeff? j) = _
    rw [found]
    exact (h.row i r found).2 j
  · exact h.entries sorted inside
  · show m.nnz = _
    rw [← h.entries sorted inside, length_entries]

/-- Writing into the rows writes into the map. -/
theorem Holds.write? {l b : List ((Nat × Nat) × α)} (h : m.Holds nrows ncols (Changes.settled l))
    (inside : ∀ e ∈ b, e.1.1 < nrows ∧ e.1.2 < ncols) :
    ∃ m', m.write? (Keyed.ofList Keyed.positionBefore b) = some m' ∧
      m'.Holds nrows ncols (Changes.settled (l ++ b)) := by
  have covered : ((Keyed.ofList Keyed.positionBefore b).all fun e => m.covers e.1) = true := by
    unfold covers
    rw [h.nrows, h.ncols]
    exact Changes.all_within inside
  refine ⟨_, if_pos covered, ?_, h.ncols, fun i r' found => ?_⟩
  · exact (Changes.length_writeTo _ m.rows).trans h.nrows
  · change (Changes.writeTo (Keyed.ofList Keyed.positionBefore b) m.rows)[i]? = some r' at found
    rw [Changes.getElem?_writeTo] at found
    obtain ⟨r, row, rfl⟩ := Option.map_eq_some_iff.1 found
    obtain ⟨canonical, coeffs⟩ := h.row i r row
    refine ⟨canonical.overlay _ i, fun j => ?_⟩
    rw [Row.coeff?_overlay (Keyed.sorted_ofList Keyed.isOrder_positionBefore b), coeffs,
      Changes.lookup_settled_append]

/-- A new matrix holds its entries. -/
theorem holds_ofEntries? {entries : List ((Nat × Nat) × α)}
    (inside : ∀ e ∈ entries, e.1.1 < nrows ∧ e.1.2 < ncols) {lhs rhs : List α}
    {flags : List RowFlags} (left : lhs.length = nrows) (right : rhs.length = nrows)
    (marks : flags.length = nrows) :
    ∃ m, ofEntries? nrows ncols entries lhs rhs flags = some m ∧
      m.Holds nrows ncols (Changes.settled entries) := by
  let blank := (lhs.zip (rhs.zip flags)).map fun p =>
    { name := "", coeffs := [], lhs := p.1, rhs := p.2.1, flags := p.2.2 : Row α }
  have begun :
      Holds nrows ncols (Changes.settled []) { ncols := ncols, rows := blank : Matrix α } := by
    refine ⟨?_, rfl, fun i r found => ?_⟩
    · show blank.length = nrows
      rw [List.length_map, List.length_zip, List.length_zip]
      omega
    · obtain ⟨p, -, rfl⟩ := Option.map_eq_some_iff.1 ((List.getElem?_map ..).symm.trans found)
      exact ⟨⟨Keyed.sorted_nil, fun e mem => absurd mem List.not_mem_nil⟩, fun j => rfl⟩
  obtain ⟨m, written, holds⟩ := begun.write? (b := Changes.settled entries)
    fun e mem => inside e (Changes.mem_of_mem_settled mem)
  rw [(Changes.sorted_settled entries).ofList_eq Keyed.isOrder_positionBefore] at written
  rw [List.nil_append, Changes.settled_settled] at holds
  exact ⟨m, (if_pos ⟨left, right, marks⟩).trans written, holds⟩

end Matrix
end MipShrink
