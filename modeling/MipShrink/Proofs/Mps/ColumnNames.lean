/-
# The names that are read

A column gets its name from a word of a line of the section of the columns, and only when no column
has that name yet.  Everything else that is read leaves the names of the columns alone, so that the
columns of a program that was read have different words for names (`Mps.distinct_ofLines`).

What a line leaves alone is told by parts of the reader (`Mps.Keeps`).  Coefficients, sides and
bounds leave all names alone (`Mps.Reader.labels`).
-/

import MipShrink.Proofs.Reduction.Writes
import MipShrink.Proofs.Text.Words

namespace MipShrink

namespace Mps

variable {α : Type}

/-- The names of the rows that have been read. -/
def Reader.rowNames (r : Reader α) : List String :=
  r.rows.map RowData.name

/-- The names of the columns that have been read. -/
def Reader.columnNames (r : Reader α) : List String :=
  r.columns.map ColumnPlan.name

/-- Where a reader stands and the names that it has read. -/
structure Labels where
  place : Section
  name : String
  objective : Option String
  freeRows : List String
  rows : List String
  columns : List String

/-- The place and the names of a reader. -/
def Reader.labels (r : Reader α) : Labels :=
  { place := r.place, name := r.name, objective := r.objective, freeRows := r.freeRows
    rows := r.rowNames, columns := r.columnNames }

/-- The names are words, and no two of them are the same. -/
structure Distinct (names : List String) : Prop where
  nodup : names.Nodup
  word : ∀ n ∈ names, Text.IsWord n

/-- What is read leaves a part of the reader alone. -/
def Keeps {γ : Type} (part : Reader α → γ) (result : Except ParseFault (Reader α)) (r : Reader α) :
    Prop :=
  ∀ r', result = .ok r' → part r' = part r

namespace Keeps

variable {γ : Type} {part : Reader α → γ} {r : Reader α}

/-- An error keeps everything. -/
theorem error (fault : ParseFault) : Keeps part (.error fault) r := by
  intro r' h
  cases h

/-- A result with the same part keeps it. -/
theorem ok {r' : Reader α} (same : part r' = part r) : Keeps part (.ok r') r := by
  intro r'' h
  cases h
  exact same

/-- What is left alone with all names. -/
theorem of_labels {result : Except ParseFault (Reader α)} (h : Keeps Reader.labels result r)
    (f : Labels → γ) : Keeps (fun r => f r.labels) result r :=
  fun r' read => congrArg f (h r' read)

/-- After a step that may fail. -/
theorem bind {β : Type} {first : Except ParseFault β} {next : β → Except ParseFault (Reader α)}
    (h : ∀ b, first = .ok b → Keeps part (next b) r) : Keeps part (first >>= next) r := by
  cases first with
  | error fault => exact error fault
  | ok b => exact h b rfl

/-- **One after the other.** -/
theorem foldlM {β : Type} {f : Reader α → β → Except ParseFault (Reader α)}
    (h : ∀ r b, Keeps part (f r b) r) (bs : List β) : Keeps part (bs.foldlM f r) r := by
  induction bs generalizing r with
  | nil => exact ok rfl
  | cons b bs ih =>
    intro r' result
    rw [List.foldlM_cons] at result
    cases first : f r b with
    | error fault =>
      rw [first] at result
      cases result
    | ok r₁ =>
      rw [first] at result
      exact (ih r' result).trans (h r b r₁ first)

end Keeps

namespace Reader

section Blind

variable {γ : Type} {part : Reader α → γ}

/-- A header changes the place, the name and the sense. -/
theorem keeps_openSection
    (blind : ∀ r place name sense,
      part { r with place := place, name := name, sense := sense } = part r)
    (s : Section) (words : List String) (r : Reader α) : Keeps part (r.openSection s words) r := by
  unfold openSection
  split
  · exact .ok (blind r _ _ r.sense)
  · exact .ok (blind r _ _ r.sense)
  · split
    · exact .ok (blind r _ r.name _)
    · exact .error _
  · exact .ok (blind r _ r.name r.sense)

/-- A line of the rows changes the objective and the rows. -/
theorem keeps_readRow [Scalar α]
    (blind : ∀ r objective freeRows rows,
      part { r with objective := objective, freeRows := freeRows, rows := rows } = part r)
    (words : List String) (r : Reader α) : Keeps part (r.readRow words) r := by
  have add (kind : RowKind) (name : String) : Keeps part (readRow.add r kind name) r := by
    unfold readRow.add
    split
    · exact .error _
    · exact .ok (blind r r.objective r.freeRows _)
  unfold readRow
  split
  · split
    · split
      · exact .ok (blind r _ r.freeRows r.rows)
      · exact .ok (blind r r.objective _ r.rows)
    · split
      · exact add _ _
      · split
        · exact add _ _
        · split
          · exact add _ _
          · exact .error _
  · exact .error _

/-- Pairs of words that keep a part one by one keep it together. -/
theorem keeps_readPairs {f : Reader α → String × String → Except ParseFault (Reader α)}
    (h : ∀ r pair, Keeps part (f r pair) r) (words : List String) (r : Reader α) :
    Keeps part (r.readPairs f words) r := by
  unfold readPairs
  split
  · exact .foldlM h _
  · exact .error _

end Blind

section Changed

variable {r : Reader α}

/-- A row that is changed keeps its name. -/
theorem rowNames_mapRow {i : Nat} {f : RowData α → RowData α}
    (same : ∀ row, (f row).name = row.name) : (r.mapRow i f).rowNames = r.rowNames :=
  map_modify_eq fun row _ => same row

/-- A row keeps its label if its name is kept. -/
theorem labels_mapRow {i : Nat} {f : RowData α → RowData α}
    (same : ∀ row, (f row).name = row.name) : (r.mapRow i f).labels = r.labels :=
  congrArg (fun rows => { r.labels with rows := rows }) (rowNames_mapRow same)

/-- A column that is changed keeps its name. -/
theorem columnNames_mapColumn {j : Nat} {f : ColumnPlan α → ColumnPlan α}
    (same : ∀ c ∈ r.columns[j]?, (f c).name = c.name) :
    (r.mapColumn j f).columnNames = r.columnNames :=
  map_modify_eq same

/-- A column keeps its label if its name is kept. -/
theorem labels_mapColumn {j : Nat} {f : ColumnPlan α → ColumnPlan α}
    (same : ∀ c ∈ r.columns[j]?, (f c).name = c.name) : (r.mapColumn j f).labels = r.labels :=
  congrArg (fun columns => { r.labels with columns := columns }) (columnNames_mapColumn same)

end Changed

/-- **The names of the columns with those that a line adds:** none, or a new word of the line. -/
inductive Extends (words names : List String) : List String → Prop where
  | same : Extends words names names
  | add {name : String} (word : name ∈ words) (new : name ∉ names) :
      Extends words names (names ++ [name])

/-- Names that are kept are extended by nothing. -/
theorem Extends.of_keeps {words : List String} {result : Except ParseFault (Reader α)}
    {r r' : Reader α} (keeps : Keeps columnNames result r) (read : result = .ok r') :
    Extends words r.columnNames r'.columnNames := by
  rw [keeps r' read]
  exact .same

variable [Scalar α]

/-- A coefficient keeps the labels. -/
theorem keeps_readEntry (j : Nat) (r : Reader α) (pair : String × String) :
    Keeps labels (r.readEntry j pair) r := by
  unfold readEntry
  refine .bind fun x _ => ?_
  split
  · exact .ok (labels_mapColumn fun c _ => rfl)
  · split
    · split
      · exact .ok rfl
      · exact .ok rfl
    · split
      · exact .ok rfl
      · exact .error _

/-- The coefficients of a line keep the labels. -/
theorem keeps_readEntries (j : Nat) (pairs : List (String × String)) (r : Reader α) :
    Keeps labels (pairs.foldlM (readEntry j) r) r :=
  .foldlM (keeps_readEntry j) pairs

/-- A right-hand side keeps the labels. -/
theorem keeps_readRhs (r : Reader α) (pair : String × String) :
    Keeps labels (r.readRhs pair) r := by
  unfold readRhs
  refine .bind fun x _ => ?_
  split
  · exact .ok rfl
  · split
    · exact .ok (labels_mapRow fun _ => rfl)
    · split
      · exact .ok rfl
      · exact .error _

/-- A range keeps the labels. -/
theorem keeps_readRange (r : Reader α) (pair : String × String) :
    Keeps labels (r.readRange pair) r := by
  unfold readRange
  refine .bind fun x _ => ?_
  split
  · exact .ok (labels_mapRow fun _ => rfl)
  · split
    · exact .ok rfl
    · exact .error _

/-- A bound without a value keeps the name of its column. -/
theorem name_applyBareBound? {kind : String} {c c' : ColumnPlan α}
    (h : applyBareBound? kind c = some c') : c'.name = c.name := by
  unfold applyBareBound? at h
  split at h
  · cases h
    rfl
  split at h
  · cases h
    rfl
  split at h
  · cases h
    rfl
  split at h
  · cases h
    rfl
  · cases h

/-- A bound with a value keeps the name of its column. -/
theorem name_applyBound {kind : String} {x : Option α} {c c' : ColumnPlan α}
    (h : applyBound kind x c = .ok c') : c'.name = c.name := by
  unfold applyBound at h
  split at h
  · cases h
    rfl
  split at h
  · cases h
    rfl
  split at h
  · cases h
    rfl
  split at h
  · cases h
    rfl
  split at h
  · cases h
    rfl
  · cases h

/-- A bound keeps the labels. -/
theorem keeps_readBound (words : List String) (r : Reader α) :
    Keeps labels (r.readBound words) r := by
  unfold readBound
  refine .bind fun target _ => ?_
  split
  · exact .error _
  · split
    · exact .ok rfl
    · rename_i c found
      have keeps {j : Nat} {c c' : ColumnPlan α} (found : r.columns[j]? = some c)
          (same : c'.name = c.name) : Keeps labels (.ok (r.mapColumn j fun _ => c')) r := by
        refine .ok (labels_mapColumn fun d here => ?_)
        rw [found] at here
        cases here
        exact same
      split
      · rename_i c' bound
        exact keeps found (name_applyBareBound? bound)
      · dsimp only
        split
        · exact .error _
        · split
          · exact .error _
          · refine .bind fun x _ => .bind fun c' bound => ?_
            exact keeps found (name_applyBound bound)

/-- Looking a column up by a word, and adding it if it is missing, adds no other name. -/
theorem extends_withColumn {words : List String} {name : String} (word : name ∈ words)
    (r : Reader α) : Extends words r.columnNames (r.withColumn name).2.columnNames := by
  unfold withColumn
  split
  · exact .same
  · rename_i absent
    have new : name ∉ r.columnNames := by
      intro mem
      obtain ⟨c, here, rfl⟩ := List.mem_map.1 mem
      have other := List.findIdx?_eq_none_iff.1 absent c here
      exact absurd (beq_self_eq_true c.name) (by rw [other]; decide)
    dsimp only
    rw [columnNames, columnNames, List.map_append]
    exact .add word new

/-- A line of the columns adds one of its words as a name at most. -/
theorem extends_readColumn {words : List String} {r r' : Reader α}
    (read : r.readColumn words = .ok r') : Extends words r.columnNames r'.columnNames := by
  have entries {name : String} (word : name ∈ words) {ps : List (String × String)}
      (read : readColumn.entries r name ps = .ok r') :
      Extends words r.columnNames r'.columnNames := by
    have same : r'.columnNames = (r.withColumn name).2.columnNames :=
      (keeps_readEntries _ ps _).of_labels Labels.columns r' read
    rw [same]
    exact extends_withColumn word r
  unfold readColumn at read
  split at read
  · refine .of_keeps ?_ read
    split
    · exact .ok rfl
    · split
      · exact .ok rfl
      · exact .error _
  · split at read
    · exact entries List.mem_cons_self read
    · exact entries List.mem_cons_self read
    · cases read

/-- **What a line can do:** it is passed over, or it opens a section, or it is read as data of the
section where it stands. -/
theorem readLine_cases {line : List Char} {r r' : Reader α} (read : r.readLine line = .ok r') :
    r' = r ∨
    (∃ s, line.head?.any Text.isBlank = false ∧
      r.openSection s (Text.wordsOf line) = .ok r') ∨
    r.readData (Text.wordsOf line) = .ok r' := by
  unfold readLine at read
  dsimp only at read
  split at read
  · cases read
    exact .inl rfl
  · unfold readWords at read
    split at read
    · exact .inr (.inr read)
    · rename_i edge
      dsimp only at read
      split at read
      · exact .inr (.inl ⟨_, Bool.not_eq_true _ ▸ edge, read⟩)
      · split at read
        · cases read
        · exact .inr (.inr read)

/-- **A line adds at most one name.** -/
theorem extends_readLine {line : List Char} {r r' : Reader α} (read : r.readLine line = .ok r') :
    Extends (Text.wordsOf line) r.columnNames r'.columnNames := by
  rcases readLine_cases read with rfl | ⟨s, -, read⟩ | read
  · exact .same
  · exact .of_keeps (keeps_openSection (fun _ _ _ _ => rfl) _ _ r) read
  · unfold readData at read
    split at read
    · cases read
    · cases read
    · refine .of_keeps ?_ read
      split
      · exact .ok rfl
      · exact .error _
    · exact .of_keeps (keeps_readRow (fun _ _ _ _ => rfl) _ r) read
    · exact extends_readColumn read
    · exact .of_keeps ((keeps_readPairs keeps_readRhs _ r).of_labels Labels.columns) read
    · exact .of_keeps ((keeps_readPairs keeps_readRange _ r).of_labels Labels.columns) read
    · exact .of_keeps ((keeps_readBound _ r).of_labels Labels.columns) read

/-- **What every line preserves** is preserved while a file is read. -/
theorem readLines_preserves {P : Reader α → Prop} {path : String} {n : Nat}
    {lines : List (Except AccessFault (List Char))} {r r' : Reader α}
    (step : ∀ line, .ok line ∈ lines → ∀ r r' : Reader α, P r → r.readLine line = .ok r' → P r')
    (start : P r) (read : readLines path n lines r = .ok r') : P r' := by
  induction lines generalizing n r with
  | nil =>
    cases read
    exact start
  | cons line lines ih =>
    cases line with
    | error fault => cases read
    | ok line =>
      rw [readLines] at read
      split at read
      · cases read
      · rename_i r₁ first
        exact ih (fun other mem => step other (List.mem_cons_of_mem _ mem))
          (step line List.mem_cons_self r r₁ start first) read

end Reader

/-- Different words stay different when they are extended. -/
theorem Distinct.extend {words names names' : List String} (h : Distinct names)
    (word : ∀ w ∈ words, Text.IsWord w) (ext : Reader.Extends words names names') :
    Distinct names' := by
  cases ext with
  | same => exact h
  | @add name mem new =>
    refine ⟨List.nodup_append.2 ⟨h.nodup, List.pairwise_singleton _ name, ?_⟩, fun n here => ?_⟩
    · rintro a ha b hb rfl
      exact new (List.mem_singleton.1 hb ▸ ha)
    · rcases List.mem_append.1 here with here | here
      · exact h.word n here
      · exact List.mem_singleton.1 here ▸ word name mem

variable [Scalar α]

/-- **While a file is read** the names stay different words. -/
theorem distinct_readLines {path : String} {n : Nat} {lines : List (Except AccessFault (List Char))}
    {r r' : Reader α} (start : Distinct r.columnNames)
    (read : Reader.readLines path n lines r = .ok r') : Distinct r'.columnNames :=
  Reader.readLines_preserves (P := fun r => Distinct r.columnNames)
    (fun _ _ _ _ h first =>
      h.extend (fun _ => Text.isWord_of_mem_wordsOf) (Reader.extends_readLine first)) start read

/-- **The columns of a program that was read** have different words for names. -/
theorem distinct_ofLines {path : String} {lines : List (Except AccessFault (List Char))}
    {p : Problem α} (read : ofLines path lines = .ok p) : Distinct (p.columns.map Column.name) := by
  unfold ofLines at read
  split at read
  · cases read
  · rename_i r first
    obtain ⟨-, rfl⟩ := (Builder.build_eq_ok_iff _ _).1 read
    have start : Distinct (Reader.start : Reader α).columnNames :=
      ⟨List.nodup_nil, fun n mem => absurd mem List.not_mem_nil⟩
    have names : (r.builder.toProblem.columns.map Column.name) = r.columnNames := by
      show (r.columns.map ColumnPlan.toColumn).map Column.name = r.columnNames
      rw [List.map_map]
      rfl
    exact names ▸ distinct_readLines start first

/-- A program that was read has no surplus. -/
theorem surplus_ofLines {path : String} {lines : List (Except AccessFault (List Char))}
    {p : Problem α} (read : ofLines path lines = .ok p) : p.surplus = {} := by
  unfold ofLines at read
  split at read
  · cases read
  · obtain ⟨-, rfl⟩ := (Builder.build_eq_ok_iff _ _).1 read
    rfl

end Mps
end MipShrink
