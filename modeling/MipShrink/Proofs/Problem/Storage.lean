/-
# What is stored is what has been written

The coefficients of a matrix are stored by rows, and by columns as places among the values by rows.
The places are right because entries are numbered in the order of their positions, and the rows are
stored in this order (`Storage.Assembled.values`).  A position is looked up by bisection, which is
right because rows are stored in the order of their columns (`Storage.bisect_eq_some_iff`).

So after any number of changes, which add, replace and remove coefficients and store them anew, all
views show what has been written, and they are the views of the rows (`Storage.mirrors`).

Of the library that makes sparse matrices of triplets nothing else is used than that triplets of
different positions become the lines that they tell, each in the order of its places
(`Conversion.Lawful`).
-/

import MipShrink.Problem.Storage
import MipShrink.Proofs.Problem.Views

namespace MipShrink

variable {α β : Type}

/-! ### Sparse matrices -/

namespace Sparse

/-- Where lines start if the first one starts at `n`. -/
def startsFrom (n : Nat) : List (List (Nat × β)) → List Nat
  | [] => [n]
  | line :: lines => n :: startsFrom (n + line.length) lines

/-- The given lines as they are stored. -/
def ofLines (lines : List (List (Nat × β))) : Sparse β :=
  { starts := startsFrom 0 lines
    places := lines.flatten.map Prod.fst
    values := lines.flatten.map Prod.snd }

/-- The matrix stores the triplets in `n` lines, each in the order of its places.  The key of a
triplet is its line and its place there. -/
def Stores (n : Nat) (triplets : List ((Nat × Nat) × β)) (m : Sparse β) : Prop :=
  ∃ lines, m = ofLines lines ∧ lines.length = n ∧
    ∀ k line, lines[k]? = some line → Keyed.Sorted Keyed.natBefore line ∧
      ∀ e, e ∈ line ↔ ((k, e.1), e.2) ∈ triplets

/-- Behind some lines the next one starts at the number of their entries. -/
theorem getElem?_startsFrom (n : Nat) (before rest : List (List (Nat × β))) :
    (startsFrom n (before ++ rest))[before.length]? = some (n + before.flatten.length) := by
  induction before generalizing n with
  | nil =>
    cases rest with
    | nil => rfl
    | cons line rest => rfl
  | cons line before ih =>
    rw [List.flatten_cons, List.length_append, ← Nat.add_assoc, ← ih]
    rfl

/-- The same, with zero for what is missing. -/
theorem getD_startsFrom (n : Nat) (before rest : List (List (Nat × β))) :
    (startsFrom n (before ++ rest)).getD before.length 0 = n + before.flatten.length := by
  rw [List.getD_eq_getElem?_getD, getElem?_startsFrom, Option.getD_some]

/-- A slice is cut out from between its neighbours. -/
theorem slice_append {γ : Type} (a b c : List γ) :
    slice (a.length, a.length + b.length) (a ++ (b ++ c)) = b := by
  unfold slice
  rw [List.drop_left' rfl, Nat.add_sub_cancel_left, List.take_left' rfl]

/-- The bounds of a stored line are those of its entries. -/
theorem range_ofLines (before after : List (List (Nat × β))) (line : List (Nat × β)) :
    (ofLines (before ++ line :: after)).range before.length =
      (before.flatten.length, before.flatten.length + line.length) := by
  have next := getD_startsFrom 0 (before ++ [line]) after
  rw [List.length_append, List.append_assoc, List.flatten_concat, List.length_append] at next
  unfold range ofLines
  dsimp only
  rw [getD_startsFrom, Nat.zero_add]
  exact congrArg _ (next.trans (Nat.zero_add _))

/-- **A line is read as it was stored.** -/
theorem line_ofLines {lines : List (List (Nat × β))} {k : Nat} {line : List (Nat × β)}
    (found : lines[k]? = some line) : (ofLines lines).line k = line ∧
      ((ofLines lines).range k).2 - ((ofLines lines).range k).1 = line.length := by
  obtain ⟨below, rfl⟩ := List.getElem?_eq_some_iff.1 found
  have split : lines.take k ++ lines[k] :: lines.drop (k + 1) = lines := by
    rw [← List.drop_eq_getElem_cons below, List.take_append_drop]
  have length : (lines.take k).length = k := List.length_take_of_le (Nat.le_of_lt below)
  have bounds := range_ofLines (lines.take k) (lines.drop (k + 1)) lines[k]
  rw [split, length] at bounds
  have flat : lines.flatten =
      (lines.take k).flatten ++ (lines[k] ++ (lines.drop (k + 1)).flatten) := by
    rw [← List.flatten_cons, ← List.flatten_append, split]
  have part {γ : Type} (f : Nat × β → γ) : slice ((ofLines lines).range k) (lines.flatten.map f) =
      lines[k].map f := by
    have same := slice_append ((lines.take k).flatten.map f) (lines[k].map f)
      ((lines.drop (k + 1)).flatten.map f)
    rw [List.length_map, List.length_map] at same
    rw [bounds, flat, List.map_append, List.map_append]
    exact same
  constructor
  · show (slice _ (lines.flatten.map Prod.fst)).zip (slice _ (lines.flatten.map Prod.snd)) = _
    rw [part, part]
    exact (List.zip_of_prod rfl rfl).symm
  · rw [bounds]
    exact Nat.add_sub_cancel_left ..

namespace Stores

variable {n : Nat} {triplets : List ((Nat × Nat) × β)} {m : Sparse β}

/-- The lines that are read are those that are stored. -/
theorem line (h : m.Stores n triplets) {k : Nat} (below : k < n) :
    Keyed.Sorted Keyed.natBefore (m.line k) ∧
      (∀ e, e ∈ m.line k ↔ ((k, e.1), e.2) ∈ triplets) ∧
        (m.range k).2 - (m.range k).1 = (m.line k).length := by
  obtain ⟨lines, rfl, rfl, spec⟩ := h
  have found := List.getElem?_eq_getElem below
  obtain ⟨same, length⟩ := line_ofLines found
  rw [same]
  exact ⟨(spec k _ found).1, (spec k _ found).2, length⟩

/-- The values are those of the lines, one after the other. -/
theorem values (h : m.Stores n triplets) : m.values = (Keyed.gather n m.line).map Prod.snd := by
  obtain ⟨lines, rfl, rfl, -⟩ := h
  have all : (List.range lines.length).map (ofLines lines).line = lines := by
    refine List.ext_getElem? fun k => ?_
    rw [List.getElem?_map]
    by_cases below : k < lines.length
    · have found := List.getElem?_eq_getElem below
      rw [List.getElem?_range below, found]
      exact congrArg some (line_ofLines found).1
    · rw [List.getElem?_eq_none (by rw [List.length_range]; omega),
        List.getElem?_eq_none (by omega)]
      rfl
  unfold Keyed.gather
  rw [List.map_flatMap]
  simp only [List.map_map]
  show lines.flatten.map Prod.snd = (List.range lines.length).flatMap fun k =>
    ((ofLines lines).line k).map Prod.snd
  rw [← List.flatMap_map (ofLines lines).line (List.map Prod.snd), all, List.map_flatten]
  rfl

/-- Triplets in the order of their positions are stored in this order. -/
theorem gather_eq (h : m.Stores n triplets) (sorted : Keyed.Sorted Keyed.positionBefore triplets)
    (inside : ∀ e ∈ triplets, e.1.1 < n) : Keyed.gather n m.line = triplets :=
  Keyed.gather_eq sorted inside (fun k below => (h.line below).1) fun k below j a => by
    rw [sorted.lookup_eq_some_iff Keyed.isOrder_positionBefore]
    exact (h.line below).2.1 (j, a)

end Stores
end Sparse

/-- Triplets of different positions in the matrix are stored as they are. -/
structure Conversion.Lawful (v : Conversion α) : Prop where
  byRows : ∀ {nrows ncols : Nat} {triplets : List ((Nat × Nat) × α)},
    (triplets.map Prod.fst).Nodup → (∀ e ∈ triplets, e.1.1 < nrows ∧ e.1.2 < ncols) →
      (v.byRows nrows ncols triplets).Stores nrows triplets
  byColumns : ∀ {nrows ncols : Nat} {triplets : List ((Nat × Nat) × Nat)},
    (triplets.map Prod.fst).Nodup → (∀ e ∈ triplets, e.1.1 < nrows ∧ e.1.2 < ncols) →
      (v.byColumns nrows ncols triplets).Stores ncols
        (triplets.map fun e => ((e.1.2, e.1.1), e.2))

/-- Each line is what the triplets of the line make when they are put in order. -/
def Sparse.sorting (n : Nat) (triplets : List ((Nat × Nat) × β)) : Sparse β :=
  ofLines <| (List.range n).map fun k =>
    Keyed.ofList Keyed.natBefore <|
      (triplets.filter fun e => e.1.1 == k).map fun e => (e.1.2, e.2)

/-- Sorting triplets with different keys stores them. -/
theorem Sparse.stores_sorting {n : Nat} {triplets : List ((Nat × Nat) × β)}
    (distinct : (triplets.map Prod.fst).Nodup) : (sorting n triplets).Stores n triplets := by
  refine ⟨_, rfl, by rw [List.length_map, List.length_range], fun k line found => ?_⟩
  obtain ⟨k', here, rfl⟩ := Option.map_eq_some_iff.1 ((List.getElem?_map ..).symm.trans found)
  obtain ⟨below, rfl⟩ := List.getElem?_eq_some_iff.1 here
  rw [List.getElem_range]
  have keys : ((triplets.filter fun e => e.1.1 == k).map fun e => (e.1.2, e.2)).Pairwise
      fun a b => a.1 ≠ b.1 := by
    refine List.pairwise_map.2 (List.Pairwise.imp_of_mem (fun {a b} left right ne same => ?_)
      ((List.pairwise_map.1 distinct).filter _))
    have first : a.1.1 = b.1.1 := (beq_iff_eq.1 (List.mem_filter.1 left).2).trans
      (beq_iff_eq.1 (List.mem_filter.1 right).2).symm
    exact ne (Prod.ext first same)
  refine ⟨Keyed.sorted_ofList Keyed.isOrder_natBefore _, fun e => ?_⟩
  rw [Keyed.mem_ofList Keyed.isOrder_natBefore keys]
  simp only [List.mem_map, List.mem_filter, beq_iff_eq]
  constructor
  · rintro ⟨e', ⟨mem, rfl⟩, rfl⟩
    exact mem
  · intro mem
    exact ⟨_, ⟨mem, rfl⟩, rfl⟩

/-- Triplets are made into sparse matrices by putting them in order. -/
def Conversion.sorting (α : Type) : Conversion α where
  byRows nrows _ triplets := Sparse.sorting nrows triplets
  byColumns _ ncols triplets := Sparse.sorting ncols (triplets.map fun e => ((e.1.2, e.1.1), e.2))

/-- Sorting is a lawful conversion. -/
theorem Conversion.lawful_sorting : (Conversion.sorting α).Lawful where
  byRows distinct _ := Sparse.stores_sorting distinct
  byColumns distinct _ := by
    refine Sparse.stores_sorting (List.pairwise_map.2 (List.pairwise_map.2 ?_))
    exact (List.pairwise_map.1 distinct).imp fun ne same =>
      ne (Prod.ext (congrArg Prod.snd same) (congrArg Prod.fst same))

namespace Storage

/-! ### Bisection -/

/-- Numbers that increase do so between any two places. -/
theorem getElem?_lt {l : List Nat} (increasing : l.Pairwise (· < ·)) {a b x y : Nat}
    (below : a < b) (first : l[a]? = some x) (second : l[b]? = some y) : x < y := by
  obtain ⟨_, rfl⟩ := List.getElem?_eq_some_iff.1 first
  obtain ⟨_, rfl⟩ := List.getElem?_eq_some_iff.1 second
  exact List.pairwise_iff_getElem.1 increasing _ _ _ _ below

/-- Smaller numbers stand before larger ones. -/
theorem lt_of_getElem?_lt {l : List Nat} (increasing : l.Pairwise (· < ·)) {a b x y : Nat}
    (first : l[a]? = some x) (second : l[b]? = some y) (less : x < y) : a < b := by
  rcases Nat.lt_trichotomy a b with below | rfl | above
  · exact below
  · obtain rfl := Option.some.inj (first.symm.trans second)
    exact absurd less (Nat.lt_irrefl _)
  · exact absurd less (Nat.lt_asymm (getElem?_lt increasing above second first))

/-- **Bisection finds what there is**, in an increasing list. -/
theorem bisect_eq_some_iff {l : List Nat} (increasing : l.Pairwise (· < ·)) {x lo hi k : Nat}
    (within : hi ≤ l.length) : bisect l x lo hi = some k ↔ lo ≤ k ∧ k < hi ∧ l[k]? = some x := by
  fun_induction bisect l x lo hi with
  | case1 lo hi more mid missing =>
    have inside : mid < l.length := by omega
    rw [List.getElem?_eq_getElem inside] at missing
    cases missing
  | case2 lo hi more mid found =>
    constructor
    · intro here
      have same : mid = k := Option.some.inj here
      exact ⟨by omega, by omega, same ▸ found⟩
    · rintro ⟨-, -, place⟩
      rcases Nat.lt_trichotomy k mid with below | rfl | above
      · have less := getElem?_lt increasing below place found
        omega
      · rfl
      · have less := getElem?_lt increasing above found place
        omega
  -- A smaller entry in the middle leaves the right half, and a greater one the left half.
  | case3 lo hi more mid y found other less ih =>
    rw [ih within]
    constructor
    · rintro ⟨lower, upper, place⟩
      exact ⟨by omega, upper, place⟩
    · rintro ⟨-, upper, place⟩
      exact ⟨lt_of_getElem?_lt increasing found place less, upper, place⟩
  | case4 lo hi more mid y found other notLess ih =>
    rw [ih (by omega)]
    constructor
    · rintro ⟨lower, upper, place⟩
      exact ⟨lower, by omega, place⟩
    · rintro ⟨lower, -, place⟩
      exact ⟨lower, lt_of_getElem?_lt increasing place found (by omega), place⟩
  | case5 lo hi empty =>
    constructor
    · intro none
      cases none
    · rintro ⟨lower, upper, -⟩
      omega

/-! ### Storing -/

/-- The views of what is stored. -/
def views (m : Storage α) : Views α :=
  { row := fun i => m.row i
    column := fun j => m.column j
    columnLength := fun j => m.columnLength j
    coeff? := fun i j => m.coeff? i j
    entries := m.entries
    nnz := m.nnz }

/-- A coefficient is found in its row if the row is in order. -/
theorem coeff?_eq_lookup {m : Storage α} {i : Nat}
    (sorted : Keyed.Sorted Keyed.natBefore (m.row i)) (j : Nat) :
    m.coeff? i j = (m.row i).lookup j := by
  have increasing : ((m.row i).map Prod.fst).Pairwise (· < ·) :=
    List.pairwise_map.2 (sorted.imp of_decide_eq_true)
  refine Option.ext fun a => ?_
  rw [sorted.lookup_eq_some_iff Keyed.isOrder_natBefore, List.mem_iff_getElem?]
  unfold coeff?
  dsimp only
  rw [Option.bind_eq_some_iff]
  constructor
  · rintro ⟨k, found, value⟩
    obtain ⟨-, -, place⟩ := (bisect_eq_some_iff increasing (Nat.le_refl _)).1 found
    rw [List.getElem?_map] at place value
    obtain ⟨e, here, rfl⟩ := Option.map_eq_some_iff.1 place
    rw [here] at value
    obtain rfl := Option.some.inj value
    exact ⟨k, here⟩
  · rintro ⟨k, here⟩
    have below : k < (m.row i).length := (List.getElem?_eq_some_iff.1 here).1
    refine ⟨k, (bisect_eq_some_iff increasing (Nat.le_refl _)).2 ⟨Nat.zero_le _, ?_, ?_⟩, ?_⟩
    · rw [List.length_map]
      exact below
    · rw [List.getElem?_map, here]
      rfl
    · rw [List.getElem?_map, here]
      rfl

/-- The number of an entry is kept with its position turned around. -/
theorem mem_numbered {l : Changes α} {i j n : Nat} :
    ((j, i), n) ∈ (l.zipIdx.map fun e => (e.1.1, e.2)).map (fun e => ((e.1.2, e.1.1), e.2)) ↔
      ∃ a, l[n]? = some ((i, j), a) := by
  simp only [List.map_map, List.mem_map, Function.comp_apply, List.mem_zipIdx_iff_getElem?,
    Prod.exists, Prod.mk.injEq]
  constructor
  · rintro ⟨i', j', a, n', place, ⟨rfl, rfl⟩, rfl⟩
    exact ⟨a, place⟩
  · rintro ⟨a, place⟩
    exact ⟨i, j, a, n, place, ⟨rfl, rfl⟩, rfl⟩

variable {nrows ncols : Nat}

/-- Rows and columns that store the same entries, the columns by number. -/
structure Assembled (nrows ncols : Nat) (map : Changes α) (m : Storage α) : Prop where
  nrows_eq : m.nrows = nrows
  ncols_eq : m.ncols = ncols
  sorted : Keyed.Sorted Keyed.positionBefore map
  inside : ∀ e ∈ map, e.1.1 < nrows ∧ e.1.2 < ncols
  coefficients : m.coefficients.Stores nrows map
  transpose : m.transpose.Stores ncols
    ((map.zipIdx.map fun e => (e.1.1, e.2)).map fun e => ((e.1.2, e.1.1), e.2))

namespace Assembled

variable {map : Changes α} {m : Storage α}

/-- A row has the entries of the map in it. -/
theorem mem_row (h : m.Assembled nrows ncols map) {i : Nat} (below : i < nrows) (j : Nat) (a : α) :
    (j, a) ∈ m.row i ↔ map.lookup (i, j) = some a := by
  rw [h.sorted.lookup_eq_some_iff Keyed.isOrder_positionBefore]
  exact (h.coefficients.line below).2.1 (j, a)

/-- The numbers of the entries are the places of their values. -/
theorem values (h : m.Assembled nrows ncols map) : m.coefficients.values = map.map Prod.snd := by
  rw [h.coefficients.values, h.coefficients.gather_eq h.sorted fun e mem => (h.inside e mem).1]

/-- A place that a column tells is that of a coefficient in the row that it tells. -/
theorem mem_transpose (h : m.Assembled nrows ncols map) {j : Nat} (below : j < ncols) (i n : Nat) :
    (i, n) ∈ m.transpose.line j ↔ ∃ a, map[n]? = some ((i, j), a) := by
  rw [← mem_numbered]
  exact (h.transpose.line below).2.1 (i, n)

/-- Every place among the values that a column tells has its value. -/
theorem value_of_mem (h : m.Assembled nrows ncols map) {j : Nat} (below : j < ncols)
    {e : Nat × Nat} (mem : e ∈ m.transpose.line j) :
    ∃ a, m.coefficients.values[e.2]? = some a ∧ map[e.2]? = some ((e.1, j), a) := by
  obtain ⟨a, place⟩ := (h.mem_transpose below e.1 e.2).1 mem
  refine ⟨a, ?_, place⟩
  rw [h.values, List.getElem?_map, place]
  rfl

/-- **A column lists the coefficients that the rows have in it.** -/
theorem mem_column (h : m.Assembled nrows ncols map) {j : Nat} (below : j < ncols) (i : Nat)
    (a : α) : (i, a) ∈ m.column j ↔ map.lookup (i, j) = some a := by
  unfold column
  rw [h.sorted.lookup_eq_some_iff Keyed.isOrder_positionBefore, List.mem_filterMap,
    @List.mem_iff_getElem? _ _ map]
  constructor
  · rintro ⟨e, mem, found⟩
    obtain ⟨b, value, place⟩ := h.value_of_mem below mem
    rw [value] at found
    obtain ⟨rfl, rfl⟩ := Prod.mk.inj (Option.some.inj found)
    exact ⟨e.2, place⟩
  · rintro ⟨n, place⟩
    have mem := (h.mem_transpose below i n).2 ⟨a, place⟩
    refine ⟨(i, n), mem, ?_⟩
    dsimp only
    rw [h.values, List.getElem?_map, place]
    rfl

/-- No place is passed over. -/
theorem length_column (h : m.Assembled nrows ncols map) {j : Nat} (below : j < ncols) :
    (m.column j).length = m.columnLength j := by
  have length : (m.column j).length = (m.transpose.line j).length := by
    refine List.filterMap_length_eq_length.2 fun e mem => ?_
    obtain ⟨a, value, -⟩ := h.value_of_mem below mem
    rw [value]
    rfl
  rw [length]
  exact (h.transpose.line below).2.2.symm

/-- A column has its rows in order. -/
theorem sorted_column (h : m.Assembled nrows ncols map) {j : Nat} (below : j < ncols) :
    Keyed.Sorted Keyed.natBefore (m.column j) := by
  refine List.Pairwise.filterMap _ (fun e e' less c found c' found' => ?_)
    (h.transpose.line below).1
  obtain ⟨a, -, rfl⟩ := Option.map_eq_some_iff.1 found
  obtain ⟨a', -, rfl⟩ := Option.map_eq_some_iff.1 found'
  exact less

/-- **What is assembled is shown by all views.** -/
theorem shows (h : m.Assembled nrows ncols map) : m.views.Shows nrows ncols map where
  sorted_row i below := (h.coefficients.line below).1
  mem_row i below := h.mem_row below
  sorted_column j below := h.sorted_column below
  mem_column j below := h.mem_column below
  columnLength j below := (h.length_column below).symm
  coeff? i below j _ := by
    have sorted : Keyed.Sorted Keyed.natBefore (m.row i) := (h.coefficients.line below).1
    refine (coeff?_eq_lookup sorted j).trans (Option.ext fun a => ?_)
    rw [sorted.lookup_eq_some_iff Keyed.isOrder_natBefore]
    exact h.mem_row below j a
  entries := by
    show Keyed.ofList _ (Keyed.gather m.nrows fun k => m.coefficients.line k) = map
    rw [h.nrows_eq, h.coefficients.gather_eq h.sorted fun e mem => (h.inside e mem).1,
      h.sorted.ofList_eq Keyed.isOrder_positionBefore]
  nnz := by
    show m.coefficients.values.length = _
    rw [h.values, List.length_map]

end Assembled

/-! ### Changing -/

variable [Scalar α] {v : Conversion α} {entries : Changes α}

/-- Entries that are stored are those that are not zero. -/
theorem assembled_assemble (lawful : v.Lawful) (sorted : Keyed.Sorted Keyed.positionBefore entries)
    (inside : ∀ e ∈ entries, e.1.1 < nrows ∧ e.1.2 < ncols) :
    (assemble v nrows ncols entries).Assembled nrows ncols
      (entries.filter fun e => !Scalar.isZero e.2) := by
  let kept := entries.filter fun e => !Scalar.isZero e.2
  have sorted' : Keyed.Sorted Keyed.positionBefore kept := sorted.filter _
  have inside' : ∀ e ∈ kept, e.1.1 < nrows ∧ e.1.2 < ncols := fun e mem =>
    inside e (List.mem_filter.1 mem).1
  have keys : (kept.map Prod.fst).Nodup :=
    List.pairwise_map.2 (sorted'.keys_ne Keyed.isOrder_positionBefore)
  have numbered : (kept.zipIdx.map fun e => (e.1.1, e.2)).map Prod.fst = kept.map Prod.fst := by
    calc (kept.zipIdx.map fun e => (e.1.1, e.2)).map Prod.fst
        = (kept.zipIdx.map Prod.fst).map Prod.fst := by
          rw [List.map_map, List.map_map]
          rfl
      _ = kept.map Prod.fst := by rw [List.zipIdx_map_fst]
  refine ⟨rfl, rfl, sorted', inside', lawful.byRows keys inside', lawful.byColumns ?_ ?_⟩
  · rw [numbered]
    exact keys
  · intro e mem
    obtain ⟨e', mem', rfl⟩ := List.mem_map.1 mem
    exact inside' e'.1 (List.mem_of_getElem? (List.mem_zipIdx_iff_getElem?.1 mem'))

/-- **Changes are written into what is stored.** -/
theorem Assembled.change? (lawful : v.Lawful) {m : Storage α} {l b : List ((Nat × Nat) × α)}
    (h : m.Assembled nrows ncols (Changes.settled l))
    (inside : ∀ e ∈ b, e.1.1 < nrows ∧ e.1.2 < ncols) :
    ∃ m', m.change? v (Keyed.ofList Keyed.positionBefore b) = some m' ∧
      m'.Assembled nrows ncols (Changes.settled (l ++ b)) := by
  unfold Storage.change?
  split
  · rename_i empty
    have same : Changes.settled (l ++ b) = Changes.settled l := by
      refine (Changes.sorted_settled _).ext Keyed.isOrder_positionBefore
        (Changes.sorted_settled l) fun position => ?_
      rw [Changes.lookup_settled_append, List.isEmpty_iff.1 empty]
      rfl
    exact ⟨m, rfl, same ▸ h⟩
  · have covered : ((Keyed.ofList Keyed.positionBefore b).all fun e => m.covers e.1) = true := by
      unfold covers
      rw [h.nrows_eq, h.ncols_eq]
      exact Changes.all_within inside
    have entries : m.entries = Changes.settled l := h.shows.entries
    refine ⟨_, if_pos covered, ?_⟩
    rw [entries, h.nrows_eq, h.ncols_eq, ← Changes.filter_foldl_put]
    refine assembled_assemble lawful (Keyed.sorted_foldl_put Keyed.isOrder_positionBefore _
      (Changes.sorted_settled l)) fun e mem => ?_
    rcases Keyed.mem_of_mem_foldl_put mem with new | old
    · exact inside e (Keyed.mem_of_mem_ofList new)
    · exact h.inside e old

/-- The first coefficients are stored. -/
theorem assembled_settled (lawful : v.Lawful) {entries : List ((Nat × Nat) × α)}
    (inside : ∀ e ∈ entries, e.1.1 < nrows ∧ e.1.2 < ncols) :
    (assemble v nrows ncols (Keyed.ofList Keyed.positionBefore entries)).Assembled nrows ncols
      (Changes.settled entries) :=
  assembled_assemble lawful (Keyed.sorted_ofList Keyed.isOrder_positionBefore entries)
    fun e mem => inside e (Keyed.mem_of_mem_ofList mem)

/-- **All views show what has been written**, whether the coefficients are stored by rows and by
number or in the rows alone.  Of the values that the entries and the buffers give for a position the
last one counts, and zeros are left out. -/
theorem mirrors (lawful : v.Lawful) {entries : List ((Nat × Nat) × α)}
    {buffers : List (List ((Nat × Nat) × α))}
    (inside : ∀ e ∈ entries ++ buffers.flatten, e.1.1 < nrows ∧ e.1.2 < ncols)
    {lhs rhs : List α} {flags : List RowFlags} (left : lhs.length = nrows)
    (right : rhs.length = nrows) (marks : flags.length = nrows) :
    ∃ map : Changes α, Keyed.Sorted Keyed.positionBefore map ∧
      (∀ position, map.lookup position =
        ((entries ++ buffers.flatten).reverse.lookup position).bind Row.stored) ∧
      ∃ (m : Storage α) (w : Matrix α),
        (buffers.map (Keyed.ofList Keyed.positionBefore)).foldlM (fun m b => m.change? v b)
          (assemble v nrows ncols (Keyed.ofList Keyed.positionBefore entries)) = some m ∧
        (Matrix.ofEntries? nrows ncols entries lhs rhs flags).bind
          (fun w => (buffers.map (Keyed.ofList Keyed.positionBefore)).foldlM
            (fun w b => w.write? b) w) = some w ∧
        ∀ views ∈ [m.views, w.views], views.Shows nrows ncols map ∧
          ((List.range nrows).map fun i => (views.row i).length).sum = views.nnz ∧
          ((List.range ncols).map views.columnLength).sum = views.nnz := by
  have first : ∀ e ∈ entries, e.1.1 < nrows ∧ e.1.2 < ncols := fun e mem =>
    inside e (List.mem_append_left _ mem)
  have later : ∀ e ∈ buffers.flatten, e.1.1 < nrows ∧ e.1.2 < ncols := fun e mem =>
    inside e (List.mem_append_right _ mem)
  obtain ⟨m, changed, assembled⟩ := Changes.foldlM_writes (fun (m : Storage α) b => m.change? v b)
    (fun l m => m.Assembled nrows ncols (Changes.settled l))
    (Assembled.change? lawful) (assembled_settled lawful first) later
  obtain ⟨w₀, made, begun⟩ := Matrix.holds_ofEntries? first left right marks
  obtain ⟨w, written, holds⟩ := Changes.foldlM_writes (fun (w : Matrix α) b => w.write? b)
    (fun l w => w.Holds nrows ncols (Changes.settled l))
    Matrix.Holds.write? begun later
  have sorted := Changes.sorted_settled (entries ++ buffers.flatten)
  refine ⟨_, sorted, Changes.lookup_settled _, m, w, changed, ?_, ?_⟩
  · rw [made]
    exact written
  · have shown : ∀ views ∈ [m.views, w.views],
        views.Shows nrows ncols (Changes.settled (entries ++ buffers.flatten)) := by
      intro views mem
      rcases List.mem_cons.1 mem with rfl | mem
      · exact assembled.shows
      · obtain rfl := List.mem_singleton.1 mem
        exact holds.shows sorted fun e mem => (assembled.inside e mem).1
    intro views mem
    exact ⟨shown views mem,
      (shown views mem).sum_rows sorted fun e mem => (assembled.inside e mem).1,
      (shown views mem).sum_columns sorted fun e mem => (assembled.inside e mem).2⟩

/-- The example changes as told, and what is stored shows the entries in every view. -/
theorem mirrors_rewritten :
    let entries : List ((Nat × Nat) × Rat) :=
      [((0, 0), 1), ((0, 2), 2), ((1, 2), 3), ((2, 0), 4), ((2, 1), 5)]
    let buffers : List (List ((Nat × Nat) × Rat)) :=
      [[((0, 2), 0), ((1, 1), 7), ((2, 0), -1)], [], [((1, 1), 0), ((0, 2), 9), ((0, 2), 8)]]
    ∃ m : Storage Rat,
      (buffers.map (Keyed.ofList Keyed.positionBefore)).foldlM
        (fun m b => m.change? (.sorting Rat) b)
        (assemble (.sorting Rat) 3 3 (Keyed.ofList Keyed.positionBefore entries)) = some m ∧
      m.row 2 = [(0, -1), (1, 5)] ∧ m.column 2 = [(0, 8), (1, 3)] ∧ m.nnz = 5 ∧
      ((List.range 3).map m.columnLength).sum = m.nnz := by
  intro entries buffers
  obtain ⟨_, -, -, m, _, changed, -, shown⟩ := mirrors
    (Conversion.lawful_sorting : (Conversion.sorting Rat).Lawful)
    (by decide : ∀ e ∈ entries ++ buffers.flatten, e.1.1 < 3 ∧ e.1.2 < 3)
    (rfl : ([0, 0, 0] : List Rat).length = 3) (rfl : ([1, 1, 1] : List Rat).length = 3)
    (rfl : ([{}, {}, {}] : List RowFlags).length = 3)
  have computed : ((buffers.map (Keyed.ofList Keyed.positionBefore)).foldlM
      (fun (m : Storage Rat) b => m.change? (.sorting Rat) b)
      (assemble (.sorting Rat) 3 3 (Keyed.ofList Keyed.positionBefore entries))).map
        (fun m => (m.row 2, m.column 2, m.nnz)) =
          some ([(0, -1), (1, 5)], [(0, 8), (1, 3)], 5) := by
    decide +kernel
  rw [changed] at computed
  obtain ⟨row, rest⟩ := Prod.mk.inj (Option.some.inj computed)
  obtain ⟨column, nnz⟩ := Prod.mk.inj rest
  exact ⟨m, changed, row, column, nnz, (shown _ (List.mem_cons_self ..)).2.2⟩

end Storage
end MipShrink
