/-
# Bounds that are read with strict look-ups

A line of the section of the bounds names a column, and its place is looked up once for all the data
that the bound changes.  The words that are left of the line when its first ones are taken away are
the name and the value (`Mps.agrees_boundRest`), and each kind of bound writes to the tables what it
does to the column (`Mps.Tables.agrees_writeBound`).
-/

import MipShrink.Proofs.Mps.Reading
import MipShrink.Proofs.Mps.TablesInStep

namespace MipShrink
namespace Mps

variable {α : Type}

/-- The words of a bound are the name of its column and its value, if there is one. -/
theorem agrees_boundRest (kind : String) (words : List String) :
    Agrees (fun rest target => rest[0]? = some target.1 ∧ rest[1]? = target.2)
      (boundRest kind words) (Reader.boundTarget kind words) := by
  unfold boundRest Reader.boundTarget
  by_cases bare : kind = "FR" ∨ kind = "MI" ∨ kind = "PL" ∨ kind = "BV"
  · rw [decide_eq_true bare]
    match words with
    | [] => exact .refused _
    | [_] => exact .refused _
    | [_, _] =>
      dsimp only
      rw [if_pos bare]
      exact .read ⟨rfl, rfl⟩
    | [_, _, _] =>
      dsimp only
      rw [if_pos bare]
      exact .read ⟨rfl, rfl⟩
    | [_, _, _, _] =>
      dsimp only
      rw [if_neg (not_not_intro bare)]
      -- Of the kinds without a value, only `BV` may be given one.
      by_cases binary : kind = "BV"
      · rw [if_pos binary, if_pos binary]
        exact .read ⟨rfl, rfl⟩
      · rw [if_neg binary, if_neg binary]
        exact .refused _
    | _ :: _ :: _ :: _ :: _ :: rest =>
      exact .refused _
  · rw [decide_eq_false bare]
    match words with
    | [] => exact .refused _
    | [_] => exact .refused _
    | [_, _] =>
      dsimp only
      rw [if_neg bare]
      exact .refused _
    | [_, _, _] =>
      dsimp only
      rw [if_neg bare]
      exact .read ⟨rfl, rfl⟩
    | [_, _, _, _] =>
      dsimp only
      rw [if_pos bare]
      exact .read ⟨rfl, rfl⟩
    | _ :: _ :: _ :: _ :: _ :: rest =>
      exact .refused _

/-- These are the kinds of bounds that take a value. -/
theorem takesValue_iff (kind : String) : Reader.takesValue kind = true ↔
    kind = "UP" ∨ kind = "LO" ∨ kind = "FX" ∨ kind = "LI" ∨ kind = "UI" := by
  unfold Reader.takesValue
  rw [List.contains_iff_mem]
  simp only [List.mem_cons, List.not_mem_nil, or_false]

variable [Scalar α]

/-- A kind that takes a value has no effect without one. -/
theorem applyBareBound?_eq_none {kind : String} (takes : Reader.takesValue kind = true)
    (c : ColumnPlan α) : Reader.applyBareBound? kind c = none := by
  rcases (takesValue_iff kind).1 takes with rfl | rfl | rfl | rfl | rfl <;> rfl

/-- A bound of a kind that takes a value needs one. -/
theorem map_boundedColumn {β : Type} {kind : String} (takes : Reader.takesValue kind = true)
    (rest : List String) (c : ColumnPlan α) (f : ColumnPlan α → β) :
    (boundedColumn kind rest[1]? c).map f =
      boundAt kind rest >>= fun x => (Reader.applyBound kind x c).map f := by
  unfold boundedColumn boundAt
  rw [applyBareBound?_eq_none takes, takes]
  cases rest[1]? with
  | none => rfl
  | some word =>
    dsimp only
    rw [if_neg (by decide)]
    cases (boundValue word : Except ParseFault (Option α)) with
    | error fault => rfl
    | ok x => rfl

namespace Tables

variable {r : Reader α} {rows columns : List (String × Nat)} {j : Nat} {c : ColumnPlan α}

omit [Scalar α] in
/-- A change of a column that keeps its name leaves the tables in step. -/
theorem shows_mapColumn (inStep : r.InStep rows columns) (found : r.columns[j]? = some c)
    {f : ColumnPlan α → ColumnPlan α} (name : (f c).name = c.name) :
    Shows ((r.mapColumn j f).spread rows columns) (r.mapColumn j fun _ => f c) := by
  have same : r.mapColumn j f = r.mapColumn j fun _ => f c := Reader.mapColumn_congr found rfl
  rw [same]
  refine ⟨rows, columns, rfl, inStep.congr rfl (Reader.columnNames_mapColumn fun c' here => ?_) rfl⟩
  obtain rfl := Option.some.inj (found.symm.trans here)
  exact name

/-- An upper bound is written, together with the lower bound that it takes away. -/
theorem writeUpper_shows (inStep : r.InStep rows columns) (found : r.columns[j]? = some c)
    (x : Option α) : ∃ t, (r.spread rows columns).writeUpper x j = .ok t ∧
      t.Shows (r.mapColumn j fun _ =>
        { c with
          lower := if x.any Scalar.isNegative && c.lower.any Scalar.isZero then none else c.lower
          upper := x }) := by
  have below : j < r.columns.length := (List.getElem?_eq_some_iff.1 found).1
  have lower : (r.spread rows columns).lower[j]? = some c.lower := by
    show (r.columns.map ColumnPlan.lower)[j]? = some c.lower
    rw [List.getElem?_map, found]
    rfl
  have kept : (r.spread rows columns).setUpper j x = .ok _ := Reader.setUpper_spread below x
  unfold writeUpper
  by_cases negative : x.any Scalar.isNegative = true
  · rw [if_pos negative, Strict.get_eq_ok lower, Strict.ok_bind, negative, Bool.true_and]
    by_cases zero : c.lower.any Scalar.isZero = true
    · have below' := below.trans_eq
        (Reader.length_mapColumn j (fun c => { c with lower := none }) r).symm
      rw [if_pos zero, if_pos zero, Reader.setLower_spread below, Strict.ok_bind,
        Reader.setUpper_spread below', Reader.mapColumn_mapColumn]
      exact ⟨_, rfl, shows_mapColumn inStep found rfl⟩
    · rw [if_neg zero, if_neg zero]
      exact ⟨_, kept, shows_mapColumn inStep found rfl⟩
  · rw [if_neg negative, Bool.eq_false_iff.2 negative, Bool.false_and]
    exact ⟨_, kept, shows_mapColumn inStep found rfl⟩

/-- A bound with a value is written when the value has been read. -/
theorem agrees_writeBound_of_takesValue (inStep : r.InStep rows columns)
    (found : r.columns[j]? = some c) {kind : String} (takes : Reader.takesValue kind = true)
    (rest : List String) :
    Agrees Shows ((r.spread rows columns).writeBound kind rest j)
      ((boundedColumn kind rest[1]? c).map fun c => r.mapColumn j fun _ => c) := by
  have below : j < r.columns.length := (List.getElem?_eq_some_iff.1 found).1
  have below' (f : ColumnPlan α → ColumnPlan α) : j < (r.mapColumn j f).columns.length :=
    below.trans_eq (Reader.length_mapColumn ..).symm
  rw [map_boundedColumn takes]
  unfold writeBound
  rcases (takesValue_iff kind).1 takes with rfl | rfl | rfl | rfl | rfl
  · refine .both _ fun x => ?_
    obtain ⟨t, written, shows⟩ := writeUpper_shows inStep found x
    exact .last written shows
  · refine .both _ fun x => .last (Reader.setLower_spread below x) ?_
    exact shows_mapColumn inStep found rfl
  · refine .both _ fun x => .sure (Reader.setLower_spread below x)
      (.last (Reader.setUpper_spread (below' _) x) ?_)
    rw [Reader.mapColumn_mapColumn]
    exact shows_mapColumn inStep found rfl
  · refine .sure (Reader.setIntegral_spread below)
      (.both _ fun x => .last (Reader.setLower_spread (below' _) x) ?_)
    rw [Reader.mapColumn_mapColumn]
    exact shows_mapColumn inStep found rfl
  · refine .sure (Reader.setIntegral_spread below)
      (.both _ fun x => .last (Reader.setUpper_spread (below' _) x) ?_)
    rw [Reader.mapColumn_mapColumn]
    exact shows_mapColumn inStep found rfl

/-- A bound without value is written at once. -/
theorem agrees_writeBound_of_bare (inStep : r.InStep rows columns)
    (found : r.columns[j]? = some c) {kind : String}
    (bare : kind = "FR" ∨ kind = "MI" ∨ kind = "PL" ∨ kind = "BV") (rest : List String) :
    Agrees Shows ((r.spread rows columns).writeBound kind rest j)
      ((boundedColumn kind rest[1]? c).map fun c => r.mapColumn j fun _ => c) := by
  have below : j < r.columns.length := (List.getElem?_eq_some_iff.1 found).1
  have below' (f : ColumnPlan α → ColumnPlan α) : j < (r.mapColumn j f).columns.length :=
    below.trans_eq (Reader.length_mapColumn ..).symm
  unfold writeBound
  rcases bare with rfl | rfl | rfl | rfl
  · refine .sure (Reader.setLower_spread below none)
      (.last (Reader.setUpper_spread (below' _) none) ?_)
    rw [Reader.mapColumn_mapColumn]
    exact shows_mapColumn inStep found rfl
  · exact .last (Reader.setLower_spread below none) (shows_mapColumn inStep found rfl)
  · exact .last (Reader.setUpper_spread below none) (shows_mapColumn inStep found rfl)
  · refine .sure (Reader.setIntegral_spread below)
      (.sure (Reader.setLower_spread (below' _) (some 0))
        (.last (Reader.setUpper_spread ?_ (some 1)) ?_))
    · rw [Reader.mapColumn_mapColumn]
      exact below' _
    · rw [Reader.mapColumn_mapColumn, Reader.mapColumn_mapColumn]
      exact shows_mapColumn inStep found rfl

/-- **A bound is written at the place of its column**, if there is such a kind of bounds. -/
theorem agrees_writeBound (inStep : r.InStep rows columns) (found : r.columns[j]? = some c)
    (kind : String) (rest : List String) :
    Agrees Shows ((r.spread rows columns).writeBound kind rest j)
      ((boundedColumn kind rest[1]? c).map fun c => r.mapColumn j fun _ => c) := by
  by_cases takes : Reader.takesValue kind = true
  · exact agrees_writeBound_of_takesValue inStep found takes rest
  by_cases bare : kind = "FR" ∨ kind = "MI" ∨ kind = "PL" ∨ kind = "BV"
  · exact agrees_writeBound_of_bare inStep found bare rest
  have unsupported :
      (r.spread rows columns).writeBound kind rest j =
        .error (.refused (.unsupportedBound kind)) := by
    rw [takesValue_iff] at takes
    simp only [not_or] at takes bare
    unfold writeBound
    simp only [takes, bare, if_false]
    rfl
  have without : Reader.applyBareBound? kind c = none := by
    simp only [not_or] at bare
    unfold Reader.applyBareBound?
    simp only [bare, if_false]
  unfold boundedColumn
  rw [unsupported, without, Bool.eq_false_iff.2 takes]
  exact .refused _

/-- A line with a bound keeps the tables in step. -/
theorem agrees_readBound {t : Tables α} {words : List String} (nonempty : words ≠ [])
    (h : t.Shows r) : Agrees Shows (t.readBound words) (r.readBound words) := by
  obtain ⟨rows, columns, rfl, inStep⟩ := h
  obtain ⟨kind, others, rfl⟩ := List.exists_cons_of_ne_nil nonempty
  rw [readBound_eq]
  unfold readBound
  refine .sure rfl ((agrees_boundRest kind (kind :: others)).bind fun rest target same => ?_)
  have place : (r.spread rows columns).columns.lookup target.1 = r.columnIndex? target.1 :=
    inStep.columnIndex? target.1
  refine .sure (Strict.get_eq_ok same.1) ?_
  rw [place]
  cases found : r.columnIndex? target.1 with
  | none => exact .refused _
  | some j =>
    have below : j < r.columns.length := inStep.column_lt (place.trans found)
    dsimp only
    rw [List.getElem?_eq_getElem below, ← same.2]
    exact agrees_writeBound inStep (List.getElem?_eq_getElem below) kind rest

end Tables

end Mps
end MipShrink
