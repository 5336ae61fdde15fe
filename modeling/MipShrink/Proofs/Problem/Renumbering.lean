/-
# Compression is a renumbering

What compressing keeps are the rows that are not redundant and the columns that are not fixed.  They
are numbered in their order from zero on (`IndexMaps.Numbers`).  The sides of the rows take up the
values of the fixed columns, and everything else is found unchanged at its number
(`Problem.Renumbered`).

The program before may still have coefficients of fixed columns (`Problem.Orderly`).  The program
after has none, is well-formed, and has nothing to be taken out, so that compressing it again gives
it back with every number being its own (`Problem.compress_renumbers`).
-/

import MipShrink.Proofs.Problem.Compression
import MipShrink.Proofs.Reduction.Partition

namespace MipShrink

/-! ### Numbers -/

namespace IndexMaps

/-- What is kept is numbered in its order by `0, …, n - 1`, and nothing else is. -/
structure Numbers (keep : List Bool) (n : Nat) (map : List (Option Nat)) : Prop where
  length : map.length = keep.length
  defined : ∀ i : Nat, (map[i]?).map Option.isSome = keep[i]?
  increasing : ∀ i i' k k' : Nat, map[i]? = some (some k) → map[i']? = some (some k') → i < i' →
    k < k'
  onto : ∀ k : Nat, (∃ i : Nat, map[i]? = some (some k)) ↔ k < n

/-- The map by which each of `n` items has its own place as number. -/
def identity (n : Nat) : List (Option Nat) :=
  (List.range n).map some

/-- **The number of an item is how many are kept before it.** -/
theorem getElem?_renumberFrom (next : Nat) (keep : List Bool) (i : Nat) :
    (renumberFrom next keep)[i]? =
      (keep[i]?).map fun b => if b then some (next + (keep.take i).count true) else none := by
  induction keep generalizing next i with
  | nil => rfl
  | cons b keep ih =>
    cases i with
    | zero => cases b <;> rfl
    | succ i =>
      have later := ih (if b then next + 1 else next) i
      have number : (if b then next + 1 else next) + (keep.take i).count true =
          next + ((b :: keep).take (i + 1)).count true := by
        rw [List.take_succ_cons]
        cases b with
        | true => rw [List.count_cons_self, if_pos rfl]; omega
        | false => rw [List.count_cons_of_ne Bool.false_ne_true, if_neg Bool.false_ne_true]
      rw [List.getElem?_cons_succ, ← number, ← later]
      cases b <;> rfl

/-- What has a number is kept, and the number is that of the kept ones before. -/
theorem renumber_eq_some_iff {keep : List Bool} {i k : Nat} : (renumber keep)[i]? = some (some k) ↔
    keep[i]? = some true ∧ (keep.take i).count true = k := by
  unfold renumber
  rw [getElem?_renumberFrom, Nat.zero_add]
  cases keep[i]? with
  | none => simp
  | some b => cases b <;> simp

/-- Behind a kept item the count has grown. -/
theorem count_take_lt {keep : List Bool} {i i' : Nat} (kept : keep[i]? = some true) (lt : i < i') :
    (keep.take i).count true < (keep.take i').count true := by
  have here : keep.take (i + 1) = keep.take i ++ [true] := by
    rw [List.take_add_one, kept]
    rfl
  have grown : (keep.take (i + 1)).count true ≤ (keep.take i').count true :=
    (List.take_sublist_take_left lt).count_le true
  rw [here, List.count_append, List.count_singleton_self] at grown
  exact grown

/-- Every number below the count of kept items is given. -/
theorem exists_count_take_eq {keep : List Bool} {k : Nat} (lt : k < keep.count true) :
    ∃ i : Nat, keep[i]? = some true ∧ (keep.take i).count true = k := by
  induction keep generalizing k with
  | nil => exact absurd lt (Nat.not_lt_zero k)
  | cons b keep ih =>
    cases b with
    | false =>
      rw [List.count_cons_of_ne Bool.false_ne_true] at lt
      obtain ⟨i, kept, count⟩ := ih lt
      refine ⟨i + 1, kept, ?_⟩
      rw [List.take_succ_cons, List.count_cons_of_ne Bool.false_ne_true, count]
    | true =>
      cases k with
      | zero => exact ⟨0, rfl, rfl⟩
      | succ k =>
        rw [List.count_cons_self] at lt
        obtain ⟨i, kept, count⟩ := ih (Nat.lt_of_succ_lt_succ lt)
        refine ⟨i + 1, kept, ?_⟩
        rw [List.take_succ_cons, List.count_cons_self, count]

/-- **Renumbering numbers what is kept.** -/
theorem numbers_renumber (keep : List Bool) : Numbers keep (keep.count true) (renumber keep) where
  length := length_renumberFrom 0 keep
  defined := isSome_renumberFrom 0 keep
  increasing i i' k k' number number' lt := by
    obtain ⟨kept, rfl⟩ := renumber_eq_some_iff.1 number
    obtain ⟨-, rfl⟩ := renumber_eq_some_iff.1 number'
    exact count_take_lt kept lt
  onto k := by
    simp only [renumber_eq_some_iff]
    constructor
    · rintro ⟨i, kept, rfl⟩
      obtain ⟨inside, -⟩ := List.getElem?_eq_some_iff.1 kept
      have below := count_take_lt kept inside
      rwa [List.take_length] at below
    · exact exists_count_take_eq

/-- If everything is kept then every number is its own place. -/
theorem renumber_of_all (keep : List Bool) (all : ∀ b ∈ keep, b = true) :
    renumber keep = identity keep.length := by
  have from' (next : Nat) : renumberFrom next keep = (List.range' next keep.length).map some := by
    induction keep generalizing next with
    | nil => rfl
    | cons b keep ih =>
      obtain ⟨rfl, rest⟩ := List.forall_mem_cons.1 all
      rw [List.length_cons, List.range'_succ, List.map_cons, ← ih rest]
      rfl
  unfold renumber identity
  rw [from', List.range_eq_range']

/-- Under the identity everything is selected. -/
theorem select_identity {β : Type} (l : List β) : select (identity l.length) l = l := by
  have all : ∀ b ∈ l.map fun _ => true, b = true := by simp
  have selected := select_map (fun _ : β => true) id 0 l
  have numbers := renumber_of_all _ all
  unfold renumber at numbers
  rw [numbers, List.length_map, List.map_id, List.map_id, List.filter_true] at selected
  exact selected

end IndexMaps

/-! ### Rows -/

namespace Row

variable {r : Row Rat}

/-- Sides that move together agree as before, so that the attributes stay. -/
theorem WellFormed.flags_shift (h : r.WellFormed) (delta : Rat) :
    (r.shift delta).flags = r.flags := by
  have lhsInf : (r.shift delta).flags.lhsInf = r.flags.lhsInf := by
    rw [← isNone_lhs?, lhs?_shift, Option.isNone_map, isNone_lhs?]
  have rhsInf : (r.shift delta).flags.rhsInf = r.flags.rhsInf := by
    rw [← isNone_rhs?, rhs?_shift, Option.isNone_map, isNone_rhs?]
  have redundant : (r.shift delta).flags.redundant = r.flags.redundant := isRedundant_shift delta r
  have equation : (r.shift delta).flags.equation = r.flags.equation := by
    rw [Bool.eq_iff_iff, (h.shift delta).equation, h.equation, lhs?_shift, rhs?_shift]
    constructor
    · rintro ⟨x, left, right⟩
      obtain ⟨l, lhs, moved⟩ := Option.map_eq_some_iff.1 left
      obtain ⟨u, rhs, moved'⟩ := Option.map_eq_some_iff.1 right
      have same : u = l := by grind
      exact ⟨l, lhs, same ▸ rhs⟩
    · rintro ⟨x, left, right⟩
      exact ⟨x - delta, by rw [left]; rfl, by rw [right]; rfl⟩
  show RowFlags.mk _ _ _ _ = RowFlags.mk _ _ _ _
  rw [lhsInf, rhsInf, equation, redundant]

/-- Putting a value in keeps the attributes of a row that is well-formed. -/
theorem WellFormed.flags_putIn (h : r.WellFormed) (j : Nat) (x : Rat) :
    (r.putIn j x).flags = r.flags := by
  unfold Row.putIn
  split
  · exact h.flags_shift _
  · rfl

variable {columns : List (Column Rat × Nat)}

/-- What each value that is put in leaves as it is. -/
theorem putFixed_keeps (P : Row Rat → Prop) (putIn : ∀ r j x, P r → P (r.putIn j x)) (h : P r) :
    P (r.putFixed columns) :=
  List.foldlRecOn columns _ h fun r' h' e _ => by
    split
    · exact putIn r' e.2 e.1.lower h'
    · exact h'

/-- Putting the fixed columns in keeps the name. -/
theorem name_putFixed : (r.putFixed columns).name = r.name :=
  putFixed_keeps (fun r' => r'.name = r.name) (fun _ _ _ same => (name_putIn ..).trans same) rfl

/-- Putting the fixed columns in keeps a row canonical. -/
theorem Canonical.putFixed (h : r.Canonical) : (r.putFixed columns).Canonical :=
  putFixed_keeps Canonical (fun _ j x h' => h'.putIn j x) h

/-- A well-formed row stays well-formed and keeps its attributes. -/
theorem WellFormed.putFixed (h : r.WellFormed) :
    (r.putFixed columns).WellFormed ∧ (r.putFixed columns).flags = r.flags :=
  putFixed_keeps (fun r' => r'.WellFormed ∧ r'.flags = r.flags)
    (fun _ j x h' => ⟨h'.1.putIn j x, (h'.1.flags_putIn j x).trans h'.2⟩) ⟨h, rfl⟩

/-- The coefficients of columns that are not fixed stay. -/
theorem coeff?_putFixed {j : Nat} (notFixed : ∀ c ∈ columns, c.1.flags.fixed = true → c.2 ≠ j) :
    (r.putFixed columns).coeff? j = r.coeff? j := by
  induction columns generalizing r with
  | nil => rfl
  | cons e columns ih =>
    obtain ⟨first, rest⟩ := List.forall_mem_cons.1 notFixed
    rw [putFixed_cons, ih rest]
    split
    · rename_i fixed
      exact coeff?_putIn_of_ne (first fixed).symm ..
    · rfl

variable {map : List (Option Nat)}

/-- A canonical row stays so with numbers that increase, and what it stores is what had a number. -/
theorem Canonical.relabel (h : r.Canonical)
    (increasing : ∀ j j' k k', map.getD j none = some k → map.getD j' none = some k' → j < j' →
      k < k') :
    (r.relabel map).Canonical ∧ (r.relabel map).coeffs =
      r.coeffs.filterMap fun e => (map.getD e.1 none).map fun j => (j, e.2) := by
  let renamed : Row Rat := { r with
    coeffs := r.coeffs.filterMap fun e => (map.getD e.1 none).map fun j => (j, e.2) }
  have inner : renamed.Canonical := by
    constructor
    case sorted =>
      refine List.pairwise_filterMap.2 (h.sorted.imp fun {e e'} below v left w right => ?_)
      obtain ⟨k, number, rfl⟩ := Option.map_eq_some_iff.1 left
      obtain ⟨k', number', rfl⟩ := Option.map_eq_some_iff.1 right
      exact decide_eq_true (increasing _ _ _ _ number number' (of_decide_eq_true below))
    case nonzero =>
      intro v mem
      obtain ⟨e, before, new⟩ := List.mem_filterMap.1 mem
      obtain ⟨k, number, rfl⟩ := Option.map_eq_some_iff.1 new
      exact h.nonzero e before
  have same : r.relabel map = renamed := inner.dropZeros_eq
  rw [same]
  exact ⟨inner, rfl⟩

/-- A coefficient is found under the number of its column. -/
theorem Canonical.coeff?_relabel (h : r.Canonical)
    (increasing : ∀ j j' k k', map.getD j none = some k → map.getD j' none = some k' → j < j' →
      k < k') {j l : Nat} (number : map.getD j none = some l) :
    (r.relabel map).coeff? l = r.coeff? j := by
  obtain ⟨canonical, coeffs⟩ := h.relabel increasing
  refine Option.ext fun a => ?_
  rw [canonical.coeff?_eq_some_iff, h.coeff?_eq_some_iff, coeffs, List.mem_filterMap]
  constructor
  · rintro ⟨e, mem, new⟩
    obtain ⟨k, number', same⟩ := Option.map_eq_some_iff.1 new
    obtain ⟨rfl, rfl⟩ := Prod.mk.inj same
    have place : e.1 = j := by
      rcases Nat.lt_trichotomy e.1 j with lt | same | gt
      · exact absurd (increasing _ _ _ _ number' number lt) (Nat.lt_irrefl k)
      · exact same
      · exact absurd (increasing _ _ _ _ number number' gt) (Nat.lt_irrefl k)
    exact place ▸ mem
  · intro mem
    exact ⟨(j, a), mem, by rw [number]; rfl⟩

/-- Numbers that are the places already change nothing. -/
theorem Canonical.relabel_identity (h : r.Canonical) {n : Nat} (inside : ∀ e ∈ r.coeffs, e.1 < n) :
    r.relabel (IndexMaps.identity n) = r := by
  have kept : r.coeffs.filterMap (fun e =>
      ((IndexMaps.identity n).getD e.1 none).map fun j => (j, e.2)) = r.coeffs := by
    refine (List.filterMap_congr fun e mem => ?_).trans List.filterMap_some
    have number : (IndexMaps.identity n).getD e.1 none = some e.1 := by
      unfold IndexMaps.identity
      rw [List.getD_eq_getElem?_getD, List.getElem?_map, List.getElem?_range (inside e mem)]
      rfl
    rw [number]
    rfl
  unfold Row.relabel
  rw [kept]
  exact h.dropZeros_eq

end Row

/-! ### Programs -/

namespace Problem

open IndexMaps

variable {p : Problem Rat}

/-- How a program has to be stored: coefficients belong to columns that are there, fixed or not, and
what is infinite has no other number than zero. -/
structure Orderly (p : Problem Rat) : Prop where
  canonical : p.Canonical
  rows : ∀ r ∈ p.rows, r.WellFormed
  lower : ∀ c ∈ p.columns, c.flags.lbInf = true → c.lower = 0
  upper : ∀ c ∈ p.columns, c.flags.ubInf = true → c.upper = 0
  inside : ∀ r ∈ p.rows, ∀ e ∈ r.coeffs, e.1 < p.ncols

/-- The parts of being orderly, side by side. -/
theorem orderly_iff (p : Problem Rat) : p.Orderly ↔ p.Canonical ∧ (∀ r ∈ p.rows, r.WellFormed) ∧
    (∀ c ∈ p.columns, c.flags.lbInf = true → c.lower = 0) ∧
    (∀ c ∈ p.columns, c.flags.ubInf = true → c.upper = 0) ∧
    ∀ r ∈ p.rows, ∀ e ∈ r.coeffs, e.1 < p.ncols :=
  ⟨fun h => ⟨h.canonical, h.rows, h.lower, h.upper, h.inside⟩,
    fun h => ⟨h.1, h.2.1, h.2.2.1, h.2.2.2.1, h.2.2.2.2⟩⟩

instance (p : Problem Rat) : Decidable p.Orderly :=
  decidable_of_iff' _ p.orderly_iff

/-- A well-formed program that is canonical is orderly. -/
theorem WellFormed.orderly (h : p.WellFormed) (canonical : p.Canonical) : p.Orderly where
  canonical := canonical
  rows := h.rows
  lower c mem := (h.columns c mem).lower
  upper c mem := (h.columns c mem).upper
  inside r mem e entry := by
    obtain ⟨c, place, -⟩ := h.live r mem e entry
    exact (List.getElem?_eq_some_iff.1 place).1

/-- The program `c` is what is kept of `p`, numbered anew by the maps: apart from the sides of rows
everything of the rows and columns is found at their numbers. -/
structure Renumbered (maps : IndexMaps) (p c : Problem Rat) : Prop where
  name : c.name = p.name
  sense : c.sense = p.sense
  rows : Numbers (p.rows.map fun r => !r.isRedundant) c.nrows maps.rows
  cols : Numbers (p.columns.map fun c => !c.flags.fixed) c.ncols maps.cols
  column : ∀ j l : Nat, maps.cols[j]? = some (some l) → c.columns[l]? = p.columns[j]?
  row : ∀ i k : Nat, maps.rows[i]? = some (some k) → ∃ r r' : Row Rat,
    p.rows[i]? = some r ∧ c.rows[k]? = some r' ∧ r'.name = r.name ∧ r'.flags = r.flags
  coeff : ∀ i j k l : Nat, maps.rows[i]? = some (some k) → maps.cols[j]? = some (some l) →
    c.matrix.coeff? k l = p.matrix.coeff? i j

/-- A number in the map of the columns, as it is looked up in a row. -/
theorem getD_cols_iff {j l : Nat} : p.indexMaps.cols.getD j none = some l ↔
    p.indexMaps.cols[j]? = some (some l) := by
  rw [List.getD_eq_getElem?_getD]
  cases p.indexMaps.cols[j]? <;> simp

/-- The columns that are not fixed are numbered. -/
theorem numbers_cols (p : Problem Rat) :
    Numbers (p.columns.map fun c => !c.flags.fixed)
      ((p.columns.map fun c => !c.flags.fixed).count true) p.indexMaps.cols :=
  numbers_renumber _

/-- The new numbers of columns have the order of the old ones. -/
theorem increasing_cols (j j' k k' : Nat) (number : p.indexMaps.cols.getD j none = some k)
    (number' : p.indexMaps.cols.getD j' none = some k') (lt : j < j') : k < k' :=
  p.numbers_cols.increasing j j' k k' (getD_cols_iff.1 number) (getD_cols_iff.1 number') lt

/-- A column that has a number is there and is not fixed. -/
theorem isLive_of_number {j l : Nat} (number : p.indexMaps.cols[j]? = some (some l)) :
    p.IsLive j := by
  have kept := p.numbers_cols.defined j
  rw [number, List.getElem?_map] at kept
  obtain ⟨c, place, notFixed⟩ := Option.map_eq_some_iff.1 kept.symm
  exact ⟨c, place, (Bool.not_eq_true' _).mp notFixed⟩

/-- A column is found at its number. -/
theorem getElem?_columns_compress (canonical : p.Canonical) {j l : Nat}
    (number : p.indexMaps.cols[j]? = some (some l)) :
    p.compress.1.columns[l]? = p.columns[j]? := by
  obtain ⟨c, place, notFixed⟩ := isLive_of_number number
  have length :
      p.substituteFixed.columns.length = (p.columns.map fun c => !c.flags.fixed).length := by
    rw [substituteFixed_eq canonical.surplus, List.length_map, List.length_map]
  obtain ⟨-, found⟩ := getElem?_select number length
  refine found.trans ?_
  rw [substituteFixed_eq canonical.surplus, List.getElem?_map, place, Option.map_some,
    Column.settled_of_not_fixed ((Bool.not_eq_true' _).mpr notFixed)]

/-- As many rows are left as there are that are not redundant. -/
theorem nrows_compress (canonical : p.Canonical) :
    p.compress.1.nrows = (p.rows.map fun r => !r.isRedundant).count true := by
  unfold nrows
  rw [rows_compress canonical, List.length_map, ← List.countP_eq_length_filter, List.count,
    List.countP_map]
  exact List.countP_congr fun r _ => by simp

/-- As many columns are left as there are that are not fixed. -/
theorem ncols_compress (canonical : p.Canonical) :
    p.compress.1.ncols = (p.columns.map fun c => !c.flags.fixed).count true := by
  unfold ncols
  rw [columns_compress canonical, ← List.countP_eq_length_filter, List.count, List.countP_map]
  exact List.countP_congr fun c _ => by simp

/-- A pressed row is canonical. -/
theorem canonical_pressRow {r : Row Rat} (canonical : r.Canonical) : (p.pressRow r).Canonical :=
  (canonical.putFixed.relabel increasing_cols).1

/-- A pressed row is well-formed. -/
theorem wellFormed_pressRow {r : Row Rat} (h : r.WellFormed) : (p.pressRow r).WellFormed := by
  have stored : (r.putFixed p.columns.zipIdx).WellFormed := h.putFixed.1
  exact ⟨stored.equation, stored.lhs, stored.rhs⟩

/-- A pressed row has the attributes it had. -/
theorem flags_pressRow {r : Row Rat} (h : r.WellFormed) : (p.pressRow r).flags = r.flags :=
  h.putFixed.2

/-- The coefficient of a column that is kept. -/
theorem coeff?_pressRow {r : Row Rat} (canonical : r.Canonical) {j l : Nat}
    (number : p.indexMaps.cols[j]? = some (some l)) : (p.pressRow r).coeff? l = r.coeff? j := by
  refine (canonical.putFixed.coeff?_relabel increasing_cols (getD_cols_iff.2 number)).trans ?_
  refine Row.coeff?_putFixed fun c mem fixed same => ?_
  obtain ⟨c', place, notFixed⟩ := isLive_of_number number
  have place' := List.mem_zipIdx_iff_getElem?.1 mem
  rw [same, place] at place'
  rw [← Option.some.inj place', notFixed] at fixed
  exact Bool.false_ne_true fixed

/-- A row that has a number is found there. -/
theorem exists_row_of_number (canonical : p.Canonical) {i k : Nat}
    (number : p.indexMaps.rows[i]? = some (some k)) :
    ∃ r, p.rows[i]? = some r ∧ p.compress.1.rows[k]? = some (p.pressRow r) := by
  have kept := (numbers_renumber (p.rows.map fun r => !r.isRedundant)).defined i
  rw [show (renumber _)[i]? = some (some k) from number, List.getElem?_map] at kept
  obtain ⟨r, place, used⟩ := Option.map_eq_some_iff.1 kept.symm
  obtain ⟨k', number', found⟩ :=
    getElem?_rows_compress canonical place ((Bool.not_eq_true' _).mp used)
  obtain rfl := Option.some.inj (Option.some.inj (number.symm.trans number'))
  exact ⟨r, place, found⟩

/-- **Compressing renumbers.** -/
theorem renumbered_compress (orderly : p.Orderly) :
    Renumbered p.compress.2 p p.compress.1 where
  name := by
    show p.substituteFixed.name = p.name
    rw [substituteFixed_eq orderly.canonical.surplus]
  sense := by
    show p.substituteFixed.sense = p.sense
    rw [substituteFixed_eq orderly.canonical.surplus]
  rows := nrows_compress orderly.canonical ▸ numbers_renumber _
  cols := ncols_compress orderly.canonical ▸ numbers_renumber _
  column _ _ number := getElem?_columns_compress orderly.canonical number
  row i k number := by
    obtain ⟨r, place, found⟩ := exists_row_of_number orderly.canonical number
    exact ⟨r, p.pressRow r, place, found, Row.name_putFixed,
      flags_pressRow (orderly.rows r (List.mem_of_getElem? place))⟩
  coeff i j k l row column := by
    obtain ⟨r, place, found⟩ := exists_row_of_number orderly.canonical row
    unfold Matrix.coeff?
    rw [show p.compress.1.matrix.rows[k]? = _ from found, show p.matrix.rows[i]? = _ from place]
    exact coeff?_pressRow (orderly.canonical.row place) column

/-- The compressed program is canonical. -/
theorem canonical_compress (orderly : p.Orderly) : p.compress.1.Canonical where
  rows r' mem := by
    rw [rows_compress orderly.canonical] at mem
    obtain ⟨r, kept, rfl⟩ := List.mem_map.1 mem
    exact canonical_pressRow (orderly.canonical.rows r (List.mem_filter.1 kept).1)
  surplus := rfl

/-- The compressed program is well-formed. -/
theorem wellFormed_compress (orderly : p.Orderly) : p.compress.1.WellFormed where
  rows r' mem := by
    rw [rows_compress orderly.canonical] at mem
    obtain ⟨r, kept, rfl⟩ := List.mem_map.1 mem
    exact wellFormed_pressRow (orderly.rows r (List.mem_filter.1 kept).1)
  columns c mem := by
    rw [columns_compress orderly.canonical] at mem
    obtain ⟨before, notFixed⟩ := List.mem_filter.1 mem
    exact .of_not_fixed ((Bool.not_eq_true' _).mp notFixed) (orderly.lower c before)
      (orderly.upper c before)
  live r' mem e entry := by
    rw [rows_compress orderly.canonical] at mem
    obtain ⟨r, kept, rfl⟩ := List.mem_map.1 mem
    have canonical := orderly.canonical.rows r (List.mem_filter.1 kept).1
    have listed : e ∈ ((r.putFixed p.columns.zipIdx).relabel p.indexMaps.cols).coeffs := entry
    rw [(canonical.putFixed.relabel increasing_cols).2] at listed
    obtain ⟨e', -, new⟩ := List.mem_filterMap.1 listed
    obtain ⟨l, number, rfl⟩ := Option.map_eq_some_iff.1 new
    have number := getD_cols_iff.1 number
    obtain ⟨c, place, notFixed⟩ := isLive_of_number number
    exact ⟨c, (getElem?_columns_compress orderly.canonical number).trans place, notFixed⟩

/-- **Without redundant rows and fixed columns nothing happens**, and the numbers are the places. -/
theorem compress_eq_self (orderly : p.Orderly) (used : ∀ r ∈ p.rows, r.isRedundant = false)
    (notFixed : ∀ c ∈ p.columns, c.flags.fixed = false) :
    p.compress = (p, ⟨identity p.nrows, identity p.ncols⟩) := by
  have settled : p.substituteFixed = p :=
    List.foldlRecOn _ _ (motive := fun q => q = p) rfl fun q same e mem => by
      have column := List.mem_of_getElem? (List.mem_zipIdx_iff_getElem?.1 mem)
      rw [notFixed e.1 column, if_neg Bool.false_ne_true, same]
  have maps : p.indexMaps = ⟨identity p.nrows, identity p.ncols⟩ := by
    have rows := renumber_of_all (p.rows.map fun r => !r.isRedundant) (by simpa using used)
    have cols := renumber_of_all (p.columns.map fun c => !c.flags.fixed)
      (by simpa using notFixed)
    rw [List.length_map] at rows cols
    exact congr (congrArg IndexMaps.mk rows) cols
  have columns : select (identity p.ncols) p.columns = p.columns := select_identity p.columns
  have rows : (select (identity p.nrows) p.rows).map (Row.relabel (identity p.ncols)) = p.rows := by
    rw [show select (identity p.nrows) p.rows = p.rows from select_identity p.rows]
    refine (List.map_congr_left fun r mem => ?_).trans (List.map_id _)
    exact (orderly.canonical.rows r mem).relabel_identity (orderly.inside r mem)
  have restricted : p.restrict ⟨identity p.nrows, identity p.ncols⟩ =
      { p with
        columns := select (identity p.ncols) p.columns
        rows := (select (identity p.nrows) p.rows).map (Row.relabel (identity p.ncols))
        surplus := {} } := rfl
  unfold compress
  dsimp only
  rw [settled, maps, restricted, columns, rows, ← orderly.canonical.surplus]

/-- **Compression is a renumbering and is idempotent.**  The maps number the rows that are not
redundant and the columns that are not fixed; at these numbers the compressed program has what the
program has; it is well-formed; and compressing it again gives it back with its own places as
numbers. -/
theorem compress_renumbers (orderly : p.Orderly) :
    let c := p.compress.1
    Renumbered p.compress.2 p c ∧ c.Canonical ∧ c.WellFormed ∧
      c.compress = (c, ⟨identity c.nrows, identity c.ncols⟩) := by
  have canonical := canonical_compress orderly
  have wellFormed := wellFormed_compress orderly
  refine ⟨renumbered_compress orderly, canonical, wellFormed,
    compress_eq_self (wellFormed.orderly canonical) (fun r' mem => ?_) fun c mem => ?_⟩
  · rw [rows_compress orderly.canonical] at mem
    obtain ⟨r, kept, rfl⟩ := List.mem_map.1 mem
    obtain ⟨before, used⟩ := List.mem_filter.1 kept
    exact (congrArg RowFlags.redundant (flags_pressRow (orderly.rows r before))).trans
      ((Bool.not_eq_true' _).mp used)
  · rw [columns_compress orderly.canonical] at mem
    exact (Bool.not_eq_true' _).mp (List.mem_filter.1 mem).2

/-- The first column is fixed and still has coefficients, and the first row is redundant: they
go, and the others move up by one place. -/
theorem compress_renumbers_burdened :
    let c := burdened.compress.1
    burdened.Orderly ∧ ¬burdened.WellFormed ∧
      burdened.compress.2 = ⟨[none, some 0], [none, some 0, some 1]⟩ ∧
      c.rows.map Row.coeffs = [[(0, 1), (1, 3)]] ∧ c.columns.map Column.name = ["y", "z"] ∧
      c.WellFormed ∧ c.compress = (c, ⟨[some 0], [some 0, some 1]⟩) := by
  have orderly : burdened.Orderly := by decide +kernel
  have burden : ¬burdened.WellFormed := fun h =>
    absurd ((h.columns _ List.mem_cons_self).fixed rfl).2 (by decide)
  have renumbers := compress_renumbers orderly
  exact ⟨orderly, burden, by decide +kernel, by decide +kernel, by decide +kernel, renumbers.2.2.1,
    renumbers.2.2.2⟩

end Problem
end MipShrink
