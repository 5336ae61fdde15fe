/-
# Lines that are read with strict look-ups

A line of a section does the same to tables as to the rows and columns that they are in step with:
it is refused for the same reason, or the tables are in step again.  A row or a column that is new
gets the next place in all lists of its table (`Mps.Tables.agrees_readRow`,
`Mps.Tables.withColumn_shows`); an entry, a right-hand side and a range use a place that the map has
given, so it is there.
-/

import MipShrink.Proofs.Mps.TablesInStep

namespace MipShrink
namespace Mps

variable {α : Type}

namespace Tables

variable {t : Tables α} {r : Reader α} {words : List String}

/-- What leaves names and coefficients alone leaves the tables in step. -/
theorem agrees_of_kept {ε : Type} {rows columns : List (String × Nat)} {t' : Tables α}
    {r' : Reader α} (h : r.InStep rows columns) (tables : t' = r'.spread rows columns)
    (rowNames : r'.rowNames = r.rowNames) (columnNames : r'.columnNames = r.columnNames)
    (entries : r'.entries = r.entries) :
    Agrees Shows (.ok t' : Except (Stop ε) (Tables α)) (.ok r') :=
  .read ⟨rows, columns, tables, h.congr rowNames columnNames entries⟩

/-- A header keeps the tables in step. -/
theorem agrees_openSection (s : Section) (words : List String) (h : t.Shows r) :
    Agrees Shows (t.openSection s words) (r.openSection s words) := by
  obtain ⟨rows, columns, rfl, inStep⟩ := h
  cases s with
  | name =>
    match words with
    | [] => exact agrees_of_kept inStep rfl rfl rfl rfl
    | [_] => exact agrees_of_kept inStep rfl rfl rfl rfl
    | _ :: _ :: _ => exact agrees_of_kept inStep rfl rfl rfl rfl
  | objSense =>
    match words with
    | [] => exact agrees_of_kept inStep rfl rfl rfl rfl
    | [_] => exact agrees_of_kept inStep rfl rfl rfl rfl
    | _ :: word :: _ =>
      unfold openSection Reader.openSection
      dsimp only [List.getElem?_cons_succ, List.getElem?_cons_zero]
      cases senseOf? word with
      | none => exact .refused _
      | some sense => exact agrees_of_kept inStep rfl rfl rfl rfl
  | rows => exact agrees_of_kept inStep rfl rfl rfl rfl
  | columns => exact agrees_of_kept inStep rfl rfl rfl rfl
  | rhs => exact agrees_of_kept inStep rfl rfl rfl rfl
  | ranges => exact agrees_of_kept inStep rfl rfl rfl rfl
  | bounds => exact agrees_of_kept inStep rfl rfl rfl rfl
  | ends => exact agrees_of_kept inStep rfl rfl rfl rfl

/-- A row that is not there may be a free one. -/
theorem agrees_free {R : Tables α → Reader α → Prop} (name : String)
    (free : t.freeRows = r.freeRows) (h : R t r) :
    Agrees R
      (if t.freeRows.contains name then return t else throw (.refused (.unknownRow name)) :
        Reading (Tables α))
      (if r.freeRows.contains name then return r else throw (.unknownRow name)) := by
  rw [free]
  split
  · exact .read h
  · exact .refused _

variable [Scalar α]

/-- A row that is new gets the next place in both, and one that is there is refused in both. -/
theorem agrees_addRow {rows columns : List (String × Nat)} (inStep : r.InStep rows columns)
    (isWord : ∀ w ∈ words, Text.IsWord w) (kind : RowKind) {name : String} (word : name ∈ words) :
    Agrees Shows (readRow.add (r.spread rows columns) kind name)
      (Reader.readRow.add r kind name) := by
  have place : (r.spread rows columns).rows.lookup name = r.rowIndex? name :=
    inStep.rowIndex? name
  unfold readRow.add Reader.readRow.add
  rw [place]
  cases found : r.rowIndex? name with
  | some i => exact .refused _
  | none =>
    have absent : rows.lookup name = none := place.trans found
    let row : RowData α := ⟨name, kind, 0, none⟩
    have names : ({ r with rows := r.rows ++ [row] } : Reader α).rowNames =
        r.rowNames ++ [name] := List.map_append
    refine .read ⟨(name, r.rowNames.length) :: rows, columns, ?_, ?_, inStep.columns, ?_, ?_⟩
    · unfold addRow Reader.spread
      rw [names]
      simp only [List.map_append]
      rfl
    · exact names ▸ inStep.rows.add absent
    · intro e mem
      obtain ⟨row, column⟩ := inStep.inside e mem
      rw [names, List.length_append]
      exact ⟨Nat.lt_add_right _ row, column⟩
    · rw [names]
      exact inStep.names.extend isWord (.add word (inStep.rows.not_mem absent))

/-- A line of the rows keeps the tables in step. -/
theorem agrees_readRow (isWord : ∀ w ∈ words, Text.IsWord w) (h : t.Shows r) :
    Agrees Shows (t.readRow words) (r.readRow words) := by
  obtain ⟨rows, columns, rfl, inStep⟩ := h
  unfold readRow Reader.readRow
  match words with
  | [kind, name] =>
    have word : name ∈ [kind, name] := List.mem_cons_of_mem kind List.mem_cons_self
    dsimp only
    split
    · -- Only the first free row is the objective, and no free row gets a place.
      cases objective : r.objective with
      | none =>
        have none : (r.spread rows columns).objective = none := objective
        rw [none]
        exact agrees_of_kept inStep rfl rfl rfl rfl
      | some other =>
        have some : (r.spread rows columns).objective = some other := objective
        rw [some]
        exact agrees_of_kept inStep rfl rfl rfl rfl
    · split
      · exact agrees_addRow inStep isWord .equal word
      · split
        · exact agrees_addRow inStep isWord .less word
        · split
          · exact agrees_addRow inStep isWord .greater word
          · exact .refused _
  | [] => exact .refused _
  | [_] => exact .refused _
  | _ :: _ :: _ :: _ => exact .refused _

/-- The place of a column is found, or made, in both. -/
theorem withColumn_shows (name : String) (h : t.Shows r) :
    (t.withColumn name).1 = (r.withColumn name).1 ∧
      ShowsColumn (r.withColumn name).1 (t.withColumn name).2 (r.withColumn name).2 := by
  obtain ⟨rows, columns, rfl, inStep⟩ := h
  have place : (r.spread rows columns).columns.lookup name = r.columnIndex? name :=
    inStep.columnIndex? name
  unfold withColumn Reader.withColumn
  rw [place]
  cases found : r.columnIndex? name with
  | some j => exact ⟨rfl, ⟨rows, columns, rfl, inStep⟩, inStep.column_lt (place.trans found)⟩
  | none =>
    have absent : columns.lookup name = none := place.trans found
    let c : ColumnPlan α := { ColumnPlan.start name with integral := r.inMarker }
    have names : ({ r with columns := r.columns ++ [c] } : Reader α).columnNames =
        r.columnNames ++ [name] := List.map_append
    refine ⟨r.length_columnNames, ⟨rows, (name, r.columnNames.length) :: columns, ?_, inStep.rows,
      ?_, ?_, inStep.names⟩, ?_⟩
    · unfold Reader.spread
      rw [names]
      simp only [List.map_append]
      rfl
    · exact names ▸ inStep.columns.add absent
    · intro e mem
      obtain ⟨row, column⟩ := inStep.inside e mem
      rw [names, List.length_append]
      exact ⟨row, Nat.lt_add_right _ column⟩
    · show r.columns.length < (r.columns ++ [c]).length
      rw [List.length_append]
      exact Nat.lt_add_one _

/-- A coefficient keeps the tables in step. -/
theorem agrees_readEntry {j : Nat} (t : Tables α) (r : Reader α) (pair : String × String)
    (h : t.ShowsColumn j r) :
    Agrees (ShowsColumn j) (t.readEntry j [pair.1, pair.2]) (r.readEntry j pair) := by
  obtain ⟨⟨rows, columns, rfl, inStep⟩, below⟩ := h
  have place : (r.spread rows columns).rows.lookup pair.1 = r.rowIndex? pair.1 :=
    inStep.rowIndex? pair.1
  have same : (r.spread rows columns).isObjective pair.1 = r.isObjective pair.1 := rfl
  unfold readEntry Reader.readEntry
  refine .sure rfl (.both _ fun x => .sure rfl ?_)
  rw [same, place]
  split
  · refine .last (Reader.setCost_spread below x) ⟨⟨rows, columns, rfl, ?_⟩, ?_⟩
    · exact inStep.congr rfl (Reader.columnNames_mapColumn fun _ _ => rfl) rfl
    · exact (Reader.length_mapColumn ..).symm ▸ below
  · cases found : r.rowIndex? pair.1 with
    | none => exact agrees_free pair.1 rfl ⟨⟨rows, columns, rfl, inStep⟩, below⟩
    | some i =>
      dsimp only
      split
      · exact .read ⟨⟨rows, columns, rfl, inStep⟩, below⟩
      · refine .read ⟨⟨rows, columns, rfl, inStep.rows, inStep.columns, ?_, inStep.names⟩, below⟩
        have row : i < r.rowNames.length := inStep.rows.lt (place.trans found)
        have column : j < r.columnNames.length := below.trans_eq r.length_columnNames.symm
        exact List.forall_mem_cons.2 ⟨⟨row, column⟩, inStep.inside⟩

/-- A line of the columns keeps the tables in step. -/
theorem agrees_readColumn (words : List String) (h : t.Shows r) :
    Agrees Shows (t.readColumn words) (r.readColumn words) := by
  have entries (name : String) (pairs : List (String × String)) :
      Agrees Shows
        ((pairs.map fun p => [p.1, p.2]).foldlM (readEntry (t.withColumn name).1)
          (t.withColumn name).2) (Reader.readColumn.entries r name pairs) := by
    obtain ⟨place, shows⟩ := withColumn_shows name h
    rw [place]
    exact (Agrees.foldlM agrees_readEntry pairs shows).imp fun _ _ h => h.1
  unfold readColumn Reader.readColumn
  split
  · obtain ⟨rows, columns, rfl, inStep⟩ := h
    split
    · exact agrees_of_kept inStep rfl rfl rfl rfl
    · split
      · exact agrees_of_kept inStep rfl rfl rfl rfl
      · exact .refused _
  · match words with
    | [] => exact .refused _
    | [_] => exact .refused _
    | [_, _] => exact .refused _
    | [name, a, x] => exact entries name [(a, x)]
    | [_, _, _, _] => exact .refused _
    | [name, a, x, b, y] => exact entries name [(a, x), (b, y)]
    | _ :: _ :: _ :: _ :: _ :: _ :: rest =>
      rw [if_pos (by constructor <;> simp only [List.length_cons] <;> omega)]
      exact .refused _

/-- Nothing is left over of an even number of words. -/
theorem exists_pairs {words : List String} (even : words.length % 2 = 0) :
    ∃ ps, pairs words = some ps ∧ chunks words = ps.map fun p => [p.1, p.2] := by
  induction words using pairs.induct with
  | case1 => exact ⟨[], rfl, rfl⟩
  | case2 a b rest ih =>
    obtain ⟨ps, tail, cut⟩ := ih (by simp only [List.length_cons] at even; omega)
    exact ⟨(a, b) :: ps, by rw [pairs, tail]; rfl, by rw [chunks, cut]; rfl⟩
  | case3 a => cases even

/-- A right-hand side keeps the tables in step. -/
theorem agrees_readRhs (t : Tables α) (r : Reader α) (pair : String × String) (h : t.Shows r) :
    Agrees Shows (t.readRhs [pair.1, pair.2]) (r.readRhs pair) := by
  obtain ⟨rows, columns, rfl, inStep⟩ := h
  have place : (r.spread rows columns).rows.lookup pair.1 = r.rowIndex? pair.1 :=
    inStep.rowIndex? pair.1
  have same : (r.spread rows columns).isObjective pair.1 = r.isObjective pair.1 := rfl
  unfold readRhs Reader.readRhs
  refine .both _ fun x => ?_
  rw [same, place]
  split
  · exact agrees_of_kept inStep rfl rfl rfl rfl
  · cases found : r.rowIndex? pair.1 with
    | none => exact agrees_free pair.1 rfl ⟨rows, columns, rfl, inStep⟩
    | some i =>
      refine .last (Reader.setRhs_spread (inStep.row_lt (place.trans found)) x) ?_
      exact ⟨rows, columns, rfl, inStep.congr (Reader.rowNames_mapRow fun _ => rfl) rfl rfl⟩

/-- A range keeps the tables in step. -/
theorem agrees_readRange (t : Tables α) (r : Reader α) (pair : String × String) (h : t.Shows r) :
    Agrees Shows (t.readRange [pair.1, pair.2]) (r.readRange pair) := by
  obtain ⟨rows, columns, rfl, inStep⟩ := h
  have place : (r.spread rows columns).rows.lookup pair.1 = r.rowIndex? pair.1 :=
    inStep.rowIndex? pair.1
  unfold readRange Reader.readRange
  refine .both _ fun x => ?_
  rw [place]
  cases found : r.rowIndex? pair.1 with
  | none => exact agrees_free pair.1 rfl ⟨rows, columns, rfl, inStep⟩
  | some i =>
    refine .last (Reader.setRange_spread (inStep.row_lt (place.trans found)) x) ?_
    exact ⟨rows, columns, rfl, inStep.congr (Reader.rowNames_mapRow fun _ => rfl) rfl rfl⟩

omit [Scalar α] in
/-- Pairs of words are read one after the other; the one word too many is left out. -/
theorem agrees_readPairs {f : Tables α → List String → Reading (Tables α)}
    {g : Reader α → String × String → Except ParseFault (Reader α)}
    (each : ∀ t r pair, t.Shows r → Agrees Shows (f t [pair.1, pair.2]) (g r pair))
    (words : List String) (h : t.Shows r) :
    Agrees Shows (t.readPairs f words) (r.readPairs g words) := by
  unfold readPairs Reader.readPairs
  split
  · rename_i odd
    have tail : Strict.part 1 words.length words = .ok (words.drop 1) := by
      rw [Strict.part_eq_ok (by omega) (Nat.le_refl _)]
      exact congrArg Except.ok (List.take_of_length_le (by rw [List.length_drop]))
    have even : (words.drop 1).length % 2 = 0 := by rw [List.length_drop]; omega
    obtain ⟨ps, cut, chunked⟩ := exists_pairs even
    refine .sure tail ?_
    beta_reduce
    rw [chunked, cut]
    exact Agrees.foldlM each ps h
  · rename_i notOdd
    have even : words.length % 2 = 0 := by omega
    obtain ⟨ps, cut, chunked⟩ := exists_pairs even
    refine .sure rfl ?_
    beta_reduce
    rw [chunked, cut]
    exact Agrees.foldlM each ps h

end Tables

end Mps
end MipShrink
