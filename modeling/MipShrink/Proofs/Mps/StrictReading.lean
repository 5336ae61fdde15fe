/-
# A file is read without fault

A line is passed over if nothing is left of it when it is trimmed, and these are the lines without
words (`Text.isEmpty_trim`).  So every other line has a first word, and no line and no order of
sections brings the tables of a strict reader out of step (`Mps.Tables.agrees_readLines`).

The program behind tables in step is that of the reader: each column and each row is put at the
place that it has in the tables (`Mps.Tables.builder_eq_ok`), and what is built of it has all its
coefficients inside (`Mps.buildStrict_eq`).  Hence the strict reader never faults, and it reads what
the reader does, whatever the text is (`Mps.ofTextStrict_eq`).
-/

import MipShrink.Proofs.Mps.StrictBounds
import MipShrink.Proofs.Mps.StrictLines
import MipShrink.Proofs.Text.Trimming

namespace MipShrink

namespace Text

/-- A character that does not cut is in one of the pieces. -/
theorem exists_mem_pieces {cut : Char → Bool} {t : List Char} {c : Char} (mem : c ∈ t)
    (whole : cut c = false) : ∃ part ∈ pieces cut t, c ∈ part := by
  induction t with
  | nil => exact absurd mem List.not_mem_nil
  | cons x t ih =>
    rw [pieces]
    split
    · rename_i here
      have later : c ∈ t := (List.mem_cons.1 mem).resolve_left fun same => by
        rw [same, here] at whole
        cases whole
      obtain ⟨part, among, inside⟩ := ih later
      exact ⟨part, List.mem_cons_of_mem _ among, inside⟩
    · cases rest : pieces cut t with
      | nil => exact absurd rest (pieces_ne_nil cut t)
      | cons first parts =>
        rcases List.mem_cons.1 mem with rfl | later
        · exact ⟨c :: first, List.mem_cons_self, List.mem_cons_self⟩
        · obtain ⟨part, among, inside⟩ := ih later
          rw [rest] at among
          rcases List.mem_cons.1 among with rfl | among
          · exact ⟨x :: part, List.mem_cons_self, List.mem_cons_of_mem x inside⟩
          · exact ⟨part, List.mem_cons_of_mem _ among, inside⟩

/-- A text without words is blank. -/
theorem wordsOf_eq_nil_iff {t : List Char} : wordsOf t = [] ↔ Blank t := by
  constructor
  · intro empty c mem
    refine Bool.of_not_eq_false fun solid => ?_
    obtain ⟨part, among, inside⟩ := exists_mem_pieces mem solid
    unfold wordsOf words at empty
    rw [List.map_eq_nil_iff, List.filter_eq_nil_iff] at empty
    refine empty part among ?_
    rw [List.isEmpty_eq_false_iff.2 (List.ne_nil_of_mem inside)]
    rfl
  · intro blank
    induction t with
    | nil => rfl
    | cons c t ih =>
      obtain ⟨first, rest⟩ := List.forall_mem_cons.1 blank
      have cut := wordsOf_append_cons first [] t
      rw [List.nil_append] at cut
      rw [cut, ih rest]
      rfl

/-- What is trimmed to nothing is blank. -/
theorem trim_eq_nil_iff {t : List Char} : trim t = [] ↔ Blank t := by
  constructor
  · intro empty c mem
    obtain ⟨a, b, blank, blank', parts⟩ := exists_trim t
    rw [parts, empty, List.append_nil] at mem
    exact (List.mem_append.1 mem).elim (blank c) (blank' c)
  · intro blank
    cases left : trim t with
    | nil => rfl
    | cons c rest =>
      have solid := (trimmed_trim t).first c (by rw [left]; rfl)
      have mem : c ∈ trim t := left ▸ List.mem_cons_self
      rw [blank c (mem_of_mem_trim mem)] at solid
      cases solid

/-- **A line has no words exactly if nothing is left of it when it is trimmed.** -/
theorem isEmpty_trim (t : List Char) : (trim t).isEmpty = (wordsOf t).isEmpty := by
  rw [Bool.eq_iff_iff, List.isEmpty_iff, List.isEmpty_iff, trim_eq_nil_iff, wordsOf_eq_nil_iff]

end Text

namespace Mps

variable {α : Type} [Scalar α]

/-! ### Lines -/

namespace Tables

variable {r : Reader α}

/-- A line of data keeps the tables in step. -/
theorem agrees_readData {t : Tables α} {words : List String} (nonempty : words ≠ [])
    (isWord : ∀ w ∈ words, Text.IsWord w) (h : t.Shows r) :
    Agrees Shows (t.readData words) (r.readData words) := by
  have place : t.place = r.place := by
    obtain ⟨rows, columns, rfl, -⟩ := h
    rfl
  unfold readData Reader.readData
  rw [place]
  cases r.place with
  | name => exact .refused _
  | ends => exact .refused _
  | objSense =>
    obtain ⟨first, others, rfl⟩ := List.exists_cons_of_ne_nil nonempty
    refine .sure rfl ?_
    dsimp only [List.headD_cons]
    cases senseOf? first with
    | none => exact .refused _
    | some sense =>
      obtain ⟨rows, columns, rfl, inStep⟩ := h
      exact agrees_of_kept inStep rfl rfl rfl rfl
  | rows => exact agrees_readRow isWord h
  | columns => exact agrees_readColumn words h
  | rhs => exact agrees_readPairs agrees_readRhs words h
  | ranges => exact agrees_readPairs agrees_readRange words h
  | bounds => exact agrees_readBound nonempty h

/-- **A line keeps the tables in step.** -/
theorem agrees_readLine {t : Tables α} (line : List Char) (h : t.Shows r) :
    Agrees Shows (t.readLine line) (r.readLine line) := by
  have place : t.place = r.place := by
    obtain ⟨rows, columns, rfl, -⟩ := h
    rfl
  have isWord : ∀ w ∈ Text.wordsOf line, Text.IsWord w := fun _ => Text.isWord_of_mem_wordsOf
  unfold readLine Reader.readLine
  dsimp only
  rw [Text.isEmpty_trim, place]
  split
  · exact .read h
  · rename_i used
    have nonempty : Text.wordsOf line ≠ [] := fun empty => used (by rw [empty]; rfl)
    have data := agrees_readData nonempty isWord h
    unfold Reader.readWords
    split
    · exact data
    · obtain ⟨first, others, words⟩ := List.exists_cons_of_ne_nil nonempty
      refine .sure (Strict.get_eq_ok (x := first) (by rw [words]; rfl)) ?_
      have head : (Text.wordsOf line).headD "" = first := by rw [words]; rfl
      rw [head]
      dsimp only
      cases Section.ofWord? first with
      | some s => exact agrees_openSection s _ h
      | none =>
        dsimp only
        split
        · exact .refused _
        · exact data

/-- **No line and no order of sections brings the tables out of step.** -/
theorem agrees_readLines (path : String) (n : Nat) (lines : List (List Char)) {t : Tables α}
    (h : t.Shows r) :
    Agrees Shows (readLines path n lines t) (Reader.readLines path n (lines.map .ok) r) := by
  induction lines generalizing n t r with
  | nil => exact .read h
  | cons line lines ih =>
    rw [List.map_cons, readLines, Reader.readLines]
    generalize strict : t.readLine line = result
    generalize plain : r.readLine line = result'
    have first := agrees_readLine line h
    rw [strict, plain] at first
    cases first with
    | refused fault => exact .refused _
    | read shows => exact ih (n + 1) shows

/-- At the beginning the tables are in step. -/
theorem shows_start : (start : Tables α).Shows Reader.start :=
  ⟨[], [], rfl, fun _ => rfl, fun _ => rfl, fun _ mem => absurd mem List.not_mem_nil,
    ⟨List.nodup_nil, fun _ mem => absurd mem List.not_mem_nil⟩⟩

/-! ### The program behind the tables -/

/-- The last column of a builder is the one that was put there. -/
theorem buildColumn_eq_ok (b : Builder α) (c : ColumnPlan α) :
    buildColumn b (c.name, (c.cost, c.lower), c.upper, c.integral) = .ok (b.addColumn c) := by
  let start : ColumnPlan α := ColumnPlan.start c.name
  have place : (b.columns ++ [start]).length - 1 = b.columns.length := by
    rw [List.length_append]
    exact Nat.add_sub_cancel ..
  have found : (b.columns ++ [start])[b.columns.length]? = some start := List.getElem?_concat_length
  unfold buildColumn Builder.addColumn Builder.mapColumn
  dsimp only
  rw [place, Strict.get_eq_ok found, Strict.ok_bind, modify_append_cons]
  rfl

/-- The columns of the tables are put together again. -/
theorem buildColumns_eq_ok (rows columns : List (String × Nat)) (r : Reader α) (b : Builder α) :
    (r.spread rows columns).columnData.foldlM buildColumn b =
      .ok { b with columns := b.columns ++ r.columns } := by
  have data : (r.spread rows columns).columnData =
      r.columns.map fun c => (c.name, (c.cost, c.lower), c.upper, c.integral) := by
    unfold columnData Reader.spread Reader.columnNames
    dsimp only
    rw [List.zip_map', List.zip_map', List.zip_map', List.zip_map']
  rw [data, List.foldlM_map]
  induction r.columns generalizing b with
  | nil =>
    rw [List.append_nil]
    rfl
  | cons c columns ih =>
    rw [List.foldlM_cons, buildColumn_eq_ok, Strict.ok_bind, ih, Builder.addColumn,
      List.append_assoc, List.singleton_append]

/-- A row is built from the tables as it is from the reader. -/
theorem buildRow_eq_ok {t : Tables α} (b : Builder α) (row : RowData α)
    (rhs : t.rhs[b.rows.length]? = some row.rhs) (kind : t.rowKinds[b.rows.length]? = some row.kind)
    (range : t.ranges[b.rows.length]? = some row.range) :
    t.buildRow b (row.name, b.rows.length) = .ok (b.addRow row.plan) := by
  let start : RowPlan α := RowPlan.start row.name
  have place : (b.rows ++ [start]).length - 1 = b.rows.length := by
    rw [List.length_append]
    exact Nat.add_sub_cancel ..
  have found : (b.rows ++ [start])[b.rows.length]? = some start := List.getElem?_concat_length
  unfold buildRow Builder.addRow Builder.mapRow
  dsimp only
  rw [place, if_neg (not_not_intro rfl), Strict.get_eq_ok rhs, Strict.ok_bind,
    Strict.get_eq_ok kind, Strict.ok_bind, Strict.get_eq_ok range, Strict.ok_bind,
    Strict.get_eq_ok found, Strict.ok_bind, modify_append_cons]
  rfl

/-- **The rows of the tables are put together again**, each at its place. -/
theorem buildRows_eq_ok {t : Tables α} (before rows : List (RowData α))
    (rhs : t.rhs = (before ++ rows).map RowData.rhs)
    (kinds : t.rowKinds = (before ++ rows).map RowData.kind)
    (ranges : t.ranges = (before ++ rows).map RowData.range) (b : Builder α)
    (begun : b.rows.length = before.length) :
    ((rows.map RowData.name).zipIdx before.length).foldlM t.buildRow b =
      .ok { b with rows := b.rows ++ rows.map RowData.plan } := by
  induction rows generalizing before b with
  | nil =>
    rw [List.map_nil, List.map_nil, List.append_nil]
    rfl
  | cons row rows ih =>
    have here {γ : Type} (g : RowData α → γ) :
        ((before ++ row :: rows).map g)[b.rows.length]? = some (g row) := by
      rw [begun, List.getElem?_map, List.getElem?_append_right (Nat.le_refl _), Nat.sub_self]
      rfl
    have next : (b.addRow row.plan).rows.length = (before ++ [row]).length := by
      rw [Builder.addRow, List.length_append, List.length_append, begun]
      rfl
    have step : t.buildRow b (row.name, b.rows.length) = .ok (b.addRow row.plan) :=
      buildRow_eq_ok b row (by rw [rhs]; exact here _) (by rw [kinds]; exact here _)
        (by rw [ranges]; exact here _)
    have split : (before ++ [row]) ++ rows = before ++ row :: rows := List.append_assoc ..
    have rest := ih (before ++ [row]) (split ▸ rhs) (split ▸ kinds) (split ▸ ranges)
      (b.addRow row.plan) next
    rw [List.length_append] at rest
    rw [List.map_cons, List.zipIdx_cons, List.foldlM_cons, ← begun, step, Strict.ok_bind, begun]
    refine rest.trans ?_
    rw [Builder.addRow, List.append_assoc, List.singleton_append, List.map_cons]

/-- **The tables describe the program that was read.** -/
theorem builder_eq_ok {t : Tables α} (h : t.Shows r) : t.builder = .ok r.builder := by
  obtain ⟨rows, columns, rfl, -⟩ := h
  let t := r.spread rows columns
  let b : Builder α := { t.header with columns := t.header.columns ++ r.columns }
  have placed : t.rowNames.zipIdx.foldlM t.buildRow b =
      .ok { b with rows := b.rows ++ r.rows.map RowData.plan } :=
    buildRows_eq_ok [] r.rows rfl rfl rfl b rfl
  unfold builder
  rw [buildColumns_eq_ok, Strict.ok_bind, placed]
  rfl

end Tables

/-- In a builder in which nothing is wrong, every coefficient belongs to the matrix. -/
theorem buildStrict_eq (b : Builder α) : buildStrict b = b.build.mapError .refused := by
  unfold buildStrict Builder.build
  cases wrong : b.fault? with
  | some fault => rfl
  | none =>
    have inside : b.entries.find? (fun e => b.isOutside e.1) = none := by
      unfold Builder.fault? at wrong
      cases found : b.entries.find? fun e => b.isOutside e.1 with
      | none => rfl
      | some e =>
        rw [found] at wrong
        cases wrong
    refine if_pos (List.all_eq_true.2 fun e mem => ?_)
    have within := List.find?_eq_none.1 inside e (List.mem_filter.1 mem).1
    rw [Bool.not_eq_true] at within
    rw [within]
    rfl

/-- What has been read in step is built without fault. -/
theorem build_of_agrees {strict : Except (Stop Error) (Tables α)} {plain : Except Error (Reader α)}
    (h : Agrees Tables.Shows strict plain) :
    (do buildStrict (← (← strict).builder)) =
      (match plain with
        | .error e => Except.error e
        | .ok r => r.builder.build).mapError .refused := by
  cases h with
  | refused e => rfl
  | @read t r shows =>
    show (liftM t.builder >>= buildStrict) = r.builder.build.mapError .refused
    rw [Tables.builder_eq_ok shows]
    exact buildStrict_eq r.builder

/-- **The strict reader never faults**, and reads what the reader reads, whatever the text is. -/
theorem ofTextStrict_eq (path text : String) :
    (ofTextStrict path text : Except (Stop Error) (Problem α)) =
      (ofText path text).mapError .refused := by
  unfold ofTextStrict ofText ofLines
  exact build_of_agrees (Tables.agrees_readLines path 1 (Text.linesOf text) Tables.shows_start)

end Mps
end MipShrink
