/-
# Tables in step

The tables of a strict reader are in step with the rows and columns of a reader
(`Mps.Tables.Shows`) if they are its rows and columns, laid out in lists (`Mps.Reader.spread`), if
the two maps give every name its place, and if the places of the coefficients lie inside
(`Mps.Reader.InStep`).  Only names and coefficients count for that (`Mps.Reader.InStep.congr`).

Then each write of the strict reader is a change of one row or one column.  Two steps agree
(`Mps.Agrees`) if both refuse, for the same reason, or both end in states that are related.
-/

import Mathlib.Data.List.Basic
import MipShrink.Proofs.Mps.ColumnNames
import MipShrink.Proofs.Mps.Tables

namespace MipShrink
namespace Mps

/-! ### Agreement -/

/-- A strict result and a plain one: both refuse, for the same reason, or both give something, and
the two are related.  There is no fault. -/
inductive Agrees {ε σ τ : Type} (R : σ → τ → Prop) : Except (Stop ε) σ → Except ε τ → Prop where
  | refused (e : ε) : Agrees R (.error (.refused e)) (.error e)
  | read {s : σ} {t : τ} (related : R s t) : Agrees R (.ok s) (.ok t)

namespace Agrees

variable {β γ δ ε σ τ : Type} {R R' : σ → τ → Prop}

/-- One step after another. -/
theorem bind {σ' τ' : Type} {R' : σ' → τ' → Prop} {first : Except (Stop ε) σ}
    {first' : Except ε τ} {next : σ → Except (Stop ε) σ'} {next' : τ → Except ε τ'}
    (h : Agrees R first first') (rest : ∀ s t, R s t → Agrees R' (next s) (next' t)) :
    Agrees R' (first >>= next) (first' >>= next') := by
  cases h with
  | refused e => exact .refused e
  | read related => exact rest _ _ related

/-- A look-up that succeeds is not seen. -/
theorem sure {x : Except Fault β} {b : β} (found : x = .ok b) {next : β → Except (Stop ε) σ}
    {plain : Except ε τ} (h : Agrees R (next b) plain) :
    Agrees R (liftM x >>= next) plain := by
  subst found
  exact h

/-- A look-up that succeeds is the last step. -/
theorem last {x : Except Fault σ} {s : σ} (found : x = .ok s) {t : τ} (related : R s t) :
    Agrees R (liftM x : Except (Stop ε) σ) (.ok t) := by
  subst found
  exact .read related

/-- A part of the text that is read by both. -/
theorem both (x : Except ParseFault β) {next : β → Reading σ} {next' : β → Except ParseFault τ}
    (h : ∀ b, Agrees R (next b) (next' b)) : Agrees R (liftM x >>= next) (x >>= next') := by
  cases x with
  | error fault => exact .refused fault
  | ok b => exact h b

/-- **One item after another**, in two views of a list. -/
theorem foldlM {f : σ → γ → Except (Stop ε) σ} {g : τ → δ → Except ε τ} {view : δ → γ}
    (body : ∀ s t e, R s t → Agrees R (f s (view e)) (g t e)) (l : List δ) {s : σ} {t : τ}
    (h : R s t) : Agrees R ((l.map view).foldlM f s) (l.foldlM g t) := by
  induction l generalizing s t with
  | nil => exact .read h
  | cons e l ih =>
    rw [List.map_cons, List.foldlM_cons, List.foldlM_cons]
    exact (body s t e h).bind fun _ _ => ih

/-- What agrees up to a relation agrees up to a weaker one. -/
theorem imp {strict : Except (Stop ε) σ} {plain : Except ε τ} (h : Agrees R strict plain)
    (weaker : ∀ s t, R s t → R' s t) : Agrees R' strict plain := by
  cases h with
  | refused e => exact .refused e
  | read related => exact .read (weaker _ _ related)

/-- What is read plainly is read strictly. -/
theorem exists_of_ok {strict : Except (Stop ε) σ} {plain : Except ε τ} (h : Agrees R strict plain)
    {t : τ} (read : plain = .ok t) : ∃ s, strict = .ok s ∧ R s t := by
  cases h with
  | refused e => cases read
  | @read s _ related =>
    cases read
    exact ⟨s, rfl, related⟩

end Agrees

variable {α : Type}

/-! ### Tables in step -/

/-- The map gives each name of a list its place. -/
def Numbers (map : List (String × Nat)) (names : List String) : Prop :=
  ∀ name, map.lookup name = names.findIdx? (· == name)

namespace Numbers

variable {map : List (String × Nat)} {names : List String} {name : String}

/-- A number that the map gives is one of a name. -/
theorem lt {k : Nat} (h : Numbers map names) (found : map.lookup name = some k) :
    k < names.length := by
  rw [h name] at found
  exact (List.findIdx?_eq_some_iff_getElem.1 found).1

/-- A name without number is not there yet. -/
theorem not_mem (h : Numbers map names) (absent : map.lookup name = none) : name ∉ names := by
  rw [h name] at absent
  intro mem
  exact absurd (List.findIdx?_eq_none_iff.1 absent name mem) (by rw [beq_self_eq_true]; decide)

/-- **A new name gets the next place.** -/
theorem add (h : Numbers map names) (absent : map.lookup name = none) :
    Numbers ((name, names.length) :: map) (names ++ [name]) := by
  intro other
  rw [List.lookup_cons, List.findIdx?_append, h other]
  by_cases same : other = name
  · subst same
    rw [← h other, absent, beq_self_eq_true, List.findIdx?_cons, beq_self_eq_true]
    exact congrArg some (Nat.zero_add _).symm
  · have left : (other == name) = false := beq_eq_false_iff_ne.2 same
    have right : (name == other) = false := beq_eq_false_iff_ne.2 (Ne.symm same)
    rw [left, List.findIdx?_cons, right]
    exact (Option.or_none).symm

end Numbers

namespace Reader

variable {r r' : Reader α} {rows columns : List (String × Nat)} {i j : Nat}

/-- What has been read as tables, with maps for the places of rows and columns. -/
def spread (rows columns : List (String × Nat)) (r : Reader α) : Tables α :=
  { place := r.place, inMarker := r.inMarker, name := r.name, sense := r.sense, offset := r.offset
    objective := r.objective, freeRows := r.freeRows
    rows := rows
    rowNames := r.rowNames
    rowKinds := r.rows.map RowData.kind
    rhs := r.rows.map RowData.rhs
    ranges := r.rows.map RowData.range
    columns := columns
    columnNames := r.columnNames
    costs := r.columns.map ColumnPlan.cost
    lower := r.columns.map ColumnPlan.lower
    upper := r.columns.map ColumnPlan.upper
    integral := r.columns.map ColumnPlan.integral
    entries := r.entries }

/-- The maps number the rows and the columns, the coefficients lie inside, and the rows have
different words for names. -/
structure InStep (rows columns : List (String × Nat)) (r : Reader α) : Prop where
  rows : Numbers rows r.rowNames
  columns : Numbers columns r.columnNames
  inside : ∀ e ∈ r.entries, e.1.1 < r.rowNames.length ∧ e.1.2 < r.columnNames.length
  names : Distinct r.rowNames

/-- The place of a row is that of its name. -/
theorem rowIndex?_eq_findIdx? (r : Reader α) (name : String) :
    r.rowIndex? name = r.rowNames.findIdx? (· == name) := by
  unfold rowIndex? rowNames
  rw [List.findIdx?_map]
  rfl

/-- The place of a column is that of its name. -/
theorem columnIndex?_eq_findIdx? (r : Reader α) (name : String) :
    r.columnIndex? name = r.columnNames.findIdx? (· == name) := by
  unfold columnIndex? columnNames
  rw [List.findIdx?_map]
  rfl

/-- There is a name for each row. -/
theorem length_rowNames (r : Reader α) : r.rowNames.length = r.rows.length :=
  List.length_map ..

/-- There is a name for each column. -/
theorem length_columnNames (r : Reader α) : r.columnNames.length = r.columns.length :=
  List.length_map ..

/-- Only the names and the coefficients count. -/
theorem InStep.congr (h : InStep rows columns r) (rowNames : r'.rowNames = r.rowNames)
    (columnNames : r'.columnNames = r.columnNames) (entries : r'.entries = r.entries) :
    InStep rows columns r' where
  rows := rowNames ▸ h.rows
  columns := columnNames ▸ h.columns
  inside := by
    rw [rowNames, columnNames, entries]
    exact h.inside
  names := rowNames ▸ h.names

/-- In step, the map of the rows finds what the reader finds. -/
theorem InStep.rowIndex? (h : InStep rows columns r) (name : String) :
    rows.lookup name = r.rowIndex? name :=
  (h.rows name).trans (r.rowIndex?_eq_findIdx? name).symm

/-- In step, the map of the columns finds what the reader finds. -/
theorem InStep.columnIndex? (h : InStep rows columns r) (name : String) :
    columns.lookup name = r.columnIndex? name :=
  (h.columns name).trans (r.columnIndex?_eq_findIdx? name).symm

/-- In step, the map of the rows only gives places of rows. -/
theorem InStep.row_lt (h : InStep rows columns r) {name : String}
    (found : rows.lookup name = some i) : i < r.rows.length :=
  (h.rows.lt found).trans_eq r.length_rowNames

/-- In step, the map of the columns only gives places of columns. -/
theorem InStep.column_lt (h : InStep rows columns r) {name : String}
    (found : columns.lookup name = some j) : j < r.columns.length :=
  (h.columns.lt found).trans_eq r.length_columnNames

/-- A change of one item that `g` reads as `v` writes `v` at its place. -/
theorem map_modify_eq_set {β γ : Type} {f : β → β} {g : β → γ} {v : γ} (value : ∀ b, g (f b) = v)
    (k : Nat) (l : List β) : (l.modify k f).map g = (l.map g).set k v := by
  refine List.ext_getElem? fun n => ?_
  rw [List.getElem?_map, List.getElem?_modify, List.getElem?_set, List.getElem?_map]
  split
  · rename_i here
    subst here
    cases place : l[k]? with
    | none =>
      rw [List.getElem?_eq_none_iff] at place
      rw [if_neg (by rw [List.length_map]; omega)]
      rfl
    | some b =>
      obtain ⟨below, -⟩ := List.getElem?_eq_some_iff.1 place
      rw [if_pos (by rwa [List.length_map])]
      exact congrArg some (value b)
  · rw [id_map']

/-! Each write of the strict reader changes one row or one column. -/

/-- The right-hand side of a row is written at its place. -/
theorem setRhs_spread (below : i < r.rows.length) (x : α) :
    (r.spread rows columns).setRhs i x =
      .ok ((r.mapRow i fun row => { row with rhs := x }).spread rows columns) := by
  simp only [Tables.setRhs, spread, mapRow, rowNames, columnNames, map_modify_eq, implies_true,
    map_modify_eq_set (g := RowData.rhs) (v := x), Strict.set_eq_ok, List.length_map, below]
  rfl

/-- The range of a row is written at its place. -/
theorem setRange_spread (below : i < r.rows.length) (x : α) :
    (r.spread rows columns).setRange i x =
      .ok ((r.mapRow i fun row => { row with range := some x }).spread rows columns) := by
  simp only [Tables.setRange, spread, mapRow, rowNames, columnNames, map_modify_eq, implies_true,
    map_modify_eq_set (g := RowData.range) (v := some x), Strict.set_eq_ok, List.length_map, below]
  rfl

/-- The cost of a column is written at its place. -/
theorem setCost_spread (below : j < r.columns.length) (x : α) :
    (r.spread rows columns).setCost j x =
      .ok ((r.mapColumn j fun c => { c with cost := x }).spread rows columns) := by
  simp only [Tables.setCost, spread, mapColumn, rowNames, columnNames, map_modify_eq, implies_true,
    map_modify_eq_set (g := ColumnPlan.cost) (v := x), Strict.set_eq_ok, List.length_map, below]
  rfl

/-- The lower bound of a column is written at its place. -/
theorem setLower_spread (below : j < r.columns.length) (x : Option α) :
    (r.spread rows columns).setLower j x =
      .ok ((r.mapColumn j fun c => { c with lower := x }).spread rows columns) := by
  simp only [Tables.setLower, spread, mapColumn, rowNames, columnNames, map_modify_eq, implies_true,
    map_modify_eq_set (g := ColumnPlan.lower) (v := x), Strict.set_eq_ok, List.length_map, below]
  rfl

/-- The upper bound of a column is written at its place. -/
theorem setUpper_spread (below : j < r.columns.length) (x : Option α) :
    (r.spread rows columns).setUpper j x =
      .ok ((r.mapColumn j fun c => { c with upper := x }).spread rows columns) := by
  simp only [Tables.setUpper, spread, mapColumn, rowNames, columnNames, map_modify_eq, implies_true,
    map_modify_eq_set (g := ColumnPlan.upper) (v := x), Strict.set_eq_ok, List.length_map, below]
  rfl

/-- That a column is integral is written at its place. -/
theorem setIntegral_spread (below : j < r.columns.length) :
    (r.spread rows columns).setIntegral j =
      .ok ((r.mapColumn j fun c => { c with integral := true }).spread rows columns) := by
  simp only [Tables.setIntegral, spread, mapColumn, rowNames, columnNames, map_modify_eq,
    implies_true, map_modify_eq_set (g := ColumnPlan.integral) (v := true), Strict.set_eq_ok,
    List.length_map, below]
  rfl

/-- Changing a column keeps the number of columns. -/
theorem length_mapColumn (j : Nat) (f : ColumnPlan α → ColumnPlan α) (r : Reader α) :
    (r.mapColumn j f).columns.length = r.columns.length :=
  List.length_modify ..

/-- Two changes of a column are one. -/
theorem mapColumn_mapColumn (j : Nat) (f g : ColumnPlan α → ColumnPlan α) (r : Reader α) :
    (r.mapColumn j f).mapColumn j g = r.mapColumn j fun c => g (f c) := by
  unfold mapColumn
  dsimp only
  rw [List.modify_modify_eq]
  rfl

/-- Only the column at the place is changed. -/
theorem mapColumn_congr {f g : ColumnPlan α → ColumnPlan α} {c : ColumnPlan α}
    (found : r.columns[j]? = some c) (same : f c = g c) : r.mapColumn j f = r.mapColumn j g := by
  unfold mapColumn
  rw [List.modify_eq_set_getElem?, List.modify_eq_set_getElem?, found, Option.map_eq_map,
    Option.map_eq_map, Option.map_some, Option.map_some, same]

end Reader

/-- **The tables are in step with the rows and columns of a reader.** -/
def Tables.Shows (t : Tables α) (r : Reader α) : Prop :=
  ∃ rows columns, t = r.spread rows columns ∧ r.InStep rows columns

/-- The tables are in step, and there is a column `j`. -/
def Tables.ShowsColumn (j : Nat) (t : Tables α) (r : Reader α) : Prop :=
  t.Shows r ∧ j < r.columns.length

end Mps
end MipShrink
