/-
# Strict reductions do what reductions do

In a call on a program that is backed, each strict reduction prepares the candidates of its
reduction; it tests and changes them as the reduction does, in every draft that fits, and the draft
still fits afterwards (`StrictReduction.Serves`).  The guards are elsewhere than the look-ups: rows
and columns stay where they are, the coefficients of a row belong to columns, a point has one value
for each column, and there is a mark for each row whenever marks are asked for.
-/

import MipShrink.Proofs.Strict.Backing

namespace MipShrink

variable {α υ : Type} [Scalar α]

namespace StrictReduction

/-- The units of a call on the program `start` are tested and changed by `q` as by `r`, without
fault. -/
structure Serves (q : StrictReduction α υ) (r : Reduction α υ) (start : Problem α)
    (units : List υ) (marks : List Bool) : Prop where
  admissible : ∀ u ∈ units, ∀ m d, d.Fits start m →
    q.admissible marks m d u = .ok (r.admissible start d u)
  apply : ∀ u ∈ units, ∀ m d, d.Fits start m → q.apply m u d = .ok (r.apply u d)
  fits : ∀ u ∈ units, ∀ m d, d.Fits start m → (r.apply u d).Fits start m

/-- Every call on a program that is backed is prepared without fault, and served. -/
def Follows (q : StrictReduction α υ) (r : Reduction α υ) : Prop :=
  ∀ (m : Storage α) (p : Problem α) (s : Settings), m.Backs p →
    ∃ marks, q.prepare m p s = .ok (marks, r.candidates p s) ∧
      q.Serves r p (r.candidates p s) marks

/-- A reduction without marks follows if its candidates lie within the program, and if all that does
so is tested and changed as it should be. -/
theorem Follows.of_guard {q : StrictReduction α υ} {r : Reduction α υ}
    (guard : Nat → Nat → υ → Prop)
    (prepare : ∀ (m : Storage α) (p : Problem α) (s : Settings), m.Backs p →
      q.prepare m p s = .ok ([], r.candidates p s))
    (within : ∀ (m : Storage α) (p : Problem α) (s : Settings), m.Backs p →
      ∀ u ∈ r.candidates p s, guard p.nrows p.ncols u)
    (serves : ∀ (start : Problem α) (m : Storage α) (d : Draft α) (u : υ), d.Fits start m →
      guard d.problem.nrows d.problem.ncols u →
        (∀ marks, q.admissible marks m d u = .ok (r.admissible start d u)) ∧
          q.apply m u d = .ok (r.apply u d) ∧ (r.apply u d).Fits start m) : q.Follows r := by
  intro m p s backed
  have served (u : υ) (mem : u ∈ r.candidates p s) (m' : Storage α) (d : Draft α)
      (fits : d.Fits p m') := serves p m' d u fits
        (by rw [fits.nrows, fits.ncols]; exact within m p s backed u mem)
  exact ⟨[], prepare m p s backed, fun u mem m d fits => (served u mem m d fits).1 [],
    fun u mem m d fits => (served u mem m d fits).2.1,
    fun u mem m d fits => (served u mem m d fits).2.2⟩

end StrictReduction

/-! ### Look-ups in what fits -/

namespace Problem

omit [Scalar α] in
/-- A row that is there has what it has. -/
theorem rowHas_of_getElem? {p : Problem α} {i : Nat} {r : Row α} (found : p.rows[i]? = some r)
    (f : Row α → Bool) : p.rowHas i f = f r := by
  unfold rowHas
  rw [found]
  rfl

omit [Scalar α] in
/-- A column that is there has what it has. -/
theorem columnHas_of_getElem? {p : Problem α} {j : Nat} {c : Column α}
    (found : p.columns[j]? = some c) (f : Column α → Bool) : p.columnHas j f = f c := by
  unfold columnHas
  rw [found]
  rfl

omit [Scalar α] in
/-- Only the row itself counts for what becomes of a row. -/
theorem mapRow_congr {p : Problem α} {i : Nat} {r : Row α} (found : p.rows[i]? = some r)
    {f g : Row α → Row α} (same : f r = g r) : p.mapRow i f = p.mapRow i g := by
  refine congrArg (fun rows => { p with rows := rows }) (List.ext_getElem? fun k => ?_)
  rw [List.getElem?_modify, List.getElem?_modify]
  by_cases here : i = k
  · subst here
    rw [found]
    simp only [if_true]
    exact congrArg some same
  · simp only [if_neg here]

end Problem

namespace Strict

variable {m : Storage α} {p start : Problem α} {d : Draft α} {s : Scope α}

/-- A row that is there is found. -/
theorem row_eq_ok (h : m.Backs p) {i : Nat} {r : Row α} (found : p.rows[i]? = some r) :
    row m i p = .ok r := by
  unfold row
  rw [get_eq_ok found, ok_bind, h.readRow found]
  rfl

omit [Scalar α] in
/-- A column that is there is found. -/
theorem column_eq_ok {j : Nat} {c : Column α} (found : p.columns[j]? = some c) :
    column j p = .ok c := get_eq_ok found

omit [Scalar α] in
/-- A row inside the program is changed without fault. -/
theorem modifyRow_eq_ok {i : Nat} (below : i < d.problem.nrows) (f : Row α → Row α) :
    modifyRow i f d = .ok (d.mapProblem fun p => p.mapRow i f) := by
  unfold modifyRow
  rw [get_eq_ok (List.getElem?_eq_getElem below)]
  rfl

omit [Scalar α] in
/-- A column inside the program is changed without fault. -/
theorem modifyColumn_eq_ok {j : Nat} (below : j < d.problem.ncols) (f : Column α → Column α) :
    modifyColumn j f d = .ok (d.mapProblem fun p => p.mapColumn j f) := by
  unfold modifyColumn
  rw [get_eq_ok (List.getElem?_eq_getElem below)]
  rfl

/-- Coefficients of columns have a value at a point with a value for each column. -/
theorem activity_eq_ok {x : List α} {r : Row α} (columns : ∀ e ∈ r.coeffs, e.1 < x.length) :
    activity x r.coeffs = .ok (r.activity x) := by
  refine foldlM_eq_ok (fun e mem sum => ?_) 0
  have found := List.getElem?_eq_getElem (columns e mem)
  rw [get_eq_ok found, List.getD_eq_getElem?_getD, found]
  rfl

/-- The value of the reference at a column is found without fault. -/
theorem valueOf_eq_ok (h : m.Backs p) {j : Nat} (below : j < p.ncols) :
    valueOf s m j p = .ok (s.valueOf j p) := by
  have column := List.getElem?_eq_getElem below
  unfold valueOf Scope.valueOf
  rw [h.ncols]
  cases point : s.solution.point? p.ncols with
  | none =>
    dsimp only
    rw [column_eq_ok column, column]
    rfl
  | some x =>
    have value := List.getElem?_eq_getElem
      (Nat.lt_of_lt_of_eq below (Solution.length_of_point? point).symm)
    dsimp only
    rw [get_eq_ok value, ok_bind, column_eq_ok column, ok_bind,
      Problem.columnHas_of_getElem? column, List.getD_eq_getElem?_getD, value]
    rfl

/-- The coefficients of a row are looked up at a point. -/
theorem lt_length_of_point (h : m.Backs p) {i : Nat} {r : Row α} (found : p.rows[i]? = some r)
    {x : List α} (point : s.solution.point? p.ncols = some x) :
    ∀ e ∈ r.coeffs, e.1 < x.length := fun _ mem =>
  Nat.lt_of_lt_of_eq (h.lt_ncols found mem) (Solution.length_of_point? point).symm

/-! ### Rows -/

/-- The range of a row is found without fault. -/
theorem rowRange_eq_ok (h : m.Backs p) {i : Nat} {r : Row α} (found : p.rows[i]? = some r) :
    rowRange r p = .ok (p.rowRange r) := by
  refine foldlM_eq_ok (fun e mem range => ?_) _
  have column := List.getElem?_eq_getElem (h.lt_ncols found mem)
  rw [column_eq_ok column, ok_bind, column]
  rfl

/-- Every row gets its mark. -/
theorem implied_eq_ok (tol : α) (h : m.Backs p) :
    implied tol m p = .ok (p.rows.map fun r => (p.rowRange r).impliesSides tol r) := by
  unfold implied
  rw [h.nrows]
  refine mapM_range_eq_ok fun i r found => ?_
  rw [row_eq_ok h found, ok_bind, rowRange_eq_ok h found]
  rfl

/-- A program whose row has a coefficient in a column that is not there. -/
def stray : Problem Rat where
  name := "stray"
  sense := .minimize
  offset := 0
  columns := [{ name := "x", cost := 1, lower := 0, upper := 10, flags := {} }]
  rows := [{ name := "r", coeffs := [(0, 1), (3, 2)], lhs := 1, rhs := 2, flags := {} }]

example : implied 0 (Storage.ofProblem (.sorting Rat) stray) stray = .error (.index 3 1) := by
  decide +kernel

/-- **Dropping rows is safe**: marks are there whenever they are looked up. -/
theorem follows_constraint (s : Scope α) : (constraint s).Follows (Reduction.constraint s) := by
  intro m p st backed
  let marks := if Reduction.keepsReasons s then
    p.rows.map fun r => (p.rowRange r).impliesSides s.tolerance.feasibility r else []
  refine ⟨marks, ?_, fun i mem m d fits => ?_, fun i mem m d fits => ?_, fun i mem m d fits => ?_⟩
  · show (constraint s).prepare m p st = .ok (marks, Scope.downFrom p.nrows)
    unfold constraint
    dsimp only [marks]
    rw [← backed.nrows]
    split
    · rw [implied_eq_ok _ backed]
      rfl
    · rfl
  all_goals
    have start : i < p.nrows := Scope.mem_downFrom.1 mem
    have below : i < d.problem.nrows := fits.nrows ▸ start
  · have here := List.getElem?_eq_getElem below
    -- The marks are those of the program at the start, and the units are rows of it.
    have mark : Reduction.keepsReasons s = true →
        marks[i]? = some (p.impliesRow s.tolerance.feasibility i) := by
      intro keeps
      have begun := List.getElem?_eq_getElem start
      unfold Problem.impliesRow
      rw [Problem.rowHas_of_getElem? begun]
      dsimp only [marks]
      rw [if_pos keeps, List.getElem?_map, begun]
      rfl
    unfold constraint Reduction.constraint
    dsimp only
    rw [get_eq_ok here, ok_bind, Problem.rowHas_of_getElem? here]
    cases (d.problem.rows[i]).isRedundant with
    | true => rfl
    | false =>
      cases keeps : Reduction.keepsReasons s with
      | false => rfl
      | true => exact get_eq_ok (mark keeps)
  · exact modifyRow_eq_ok below _
  · exact fits.mapRow i fun r => rfl

/-- Whether all columns of a row are integral is found without fault. -/
theorem isRowIntegral_eq_ok (h : m.Backs p) {i : Nat} {r : Row α} (found : p.rows[i]? = some r)
    (epsilon : α) : isRowIntegral epsilon r p = .ok (p.isRowIntegral epsilon r) := by
  refine allM_eq_ok fun e mem => ?_
  have column := List.getElem?_eq_getElem (h.lt_ncols found mem)
  rw [column_eq_ok column, ok_bind, Problem.columnHas_of_getElem? column]
  rfl

/-- The value of a row as an equation is found without fault. -/
theorem sideValue_eq_ok (h : m.Backs p) {i : Nat} {r : Row α} (found : p.rows[i]? = some r) :
    sideValue s m r p = .ok (Reduction.sideValue s p r) := by
  unfold sideValue Reduction.sideValue
  rw [h.ncols]
  cases point : s.solution.point? p.ncols with
  | none => rfl
  | some x =>
    dsimp only
    rw [activity_eq_ok (lt_length_of_point h found point), ok_bind, isRowIntegral_eq_ok h found]
    rfl

/-- **Equating sides is safe.** -/
theorem follows_side (s : Scope α) : (side s).Follows (Reduction.side s) := by
  refine .of_guard (fun nrows _ i => i < nrows) (fun m p st backed => ?_)
    (fun _ _ _ _ _ mem => Scope.mem_downFrom.1 mem) fun start m d i fits below => ?_
  · show Except.ok ([], Scope.downFrom m.nrows) = _
    rw [backed.nrows]
    rfl
  have here := List.getElem?_eq_getElem below
  refine ⟨fun marks => ?_, ?_, fits.mapRow i fun r => rfl⟩
  · unfold side Reduction.side
    dsimp only
    rw [row_eq_ok fits.backed here, ok_bind, Problem.rowHas_of_getElem? here]
    split
    · rename_i free
      rw [free, Bool.true_and]
      refine anyM_eq_ok fun e mem => ?_
      have column := List.getElem?_eq_getElem (fits.backed.lt_ncols here mem)
      rw [column_eq_ok column, Problem.columnHas_of_getElem? column]
      rfl
    · rename_i closed
      rw [Bool.eq_false_iff.2 closed]
      rfl
  · unfold side Reduction.side
    dsimp only
    rw [row_eq_ok fits.backed here, ok_bind, sideValue_eq_ok fits.backed here, ok_bind,
      modifyRow_eq_ok below]
    have same : d.problem.mapRow i (fun r => (r.setLhs (Reduction.sideValue s d.problem
        d.problem.rows[i])).setRhs (Reduction.sideValue s d.problem d.problem.rows[i])) =
          d.problem.mapRow i (Reduction.equate s d.problem) := Problem.mapRow_congr here rfl
    exact congrArg (fun p => Except.ok { d with problem := p }) same

/-- The activity of a rounded row is found without fault. -/
theorem roundedActivity_eq_ok (h : m.Backs p) {i : Nat} {r : Row α} (found : p.rows[i]? = some r) :
    roundedActivity s m r =
      .ok ((s.solution.point? p.ncols).map fun x => (Reduction.roundCoeffs r).activity x) := by
  unfold roundedActivity
  rw [h.ncols]
  cases point : s.solution.point? p.ncols with
  | none => rfl
  | some x =>
    have columns : ∀ e ∈ (Reduction.roundCoeffs r).coeffs, e.1 < x.length := by
      intro e mem
      obtain ⟨e', mem', rfl⟩ := List.mem_map.1 mem
      exact lt_length_of_point h found point e' mem'
    dsimp only
    rw [activity_eq_ok columns]
    rfl

/-- Noting the coefficients of a row as rounded keeps a draft fitting. -/
theorem fits_noteRounded (fits : d.Fits start m) {i : Nat} {r : Row α}
    (found : d.problem.rows[i]? = some r) : (Reduction.noteRounded i r d).Fits start m := by
  have row : i < start.nrows := fits.nrows ▸ (List.getElem?_eq_some_iff.1 found).1
  refine List.foldlRecOn (motive := fun d' : Draft α => d'.Fits start m) _ _ fits
    fun d' fits' e mem => ?_
  dsimp only
  split
  · exact fits'
  · exact fits'.change row (fits.ncols ▸ fits.backed.lt_ncols found mem) _

/-- **Rounding rows is safe.** -/
theorem follows_consround (s : Scope α) : (consround s).Follows (Reduction.consround s) := by
  refine .of_guard (fun nrows _ i => i < nrows) (fun m p st backed => ?_)
    (fun _ _ _ _ _ mem => List.mem_range.1 mem) fun start m d i fits below => ?_
  · show Except.ok ([], List.range m.nrows) = _
    rw [backed.nrows]
    rfl
  have here := List.getElem?_eq_getElem below
  have noted := fits_noteRounded fits here
  have same := Reduction.notes_noteRounded i d.problem.rows[i] d
  unfold consround Reduction.consround
  dsimp only
  refine ⟨fun marks => ?_, ?_, ?_⟩
  · rw [row_eq_ok fits.backed here, ok_bind, Problem.rowHas_of_getElem? here]
    rfl
  · rw [row_eq_ok fits.backed here, ok_bind, roundedActivity_eq_ok fits.backed here, ok_bind,
      modifyRow_eq_ok (by rw [same.problem]; exact below), here]
  · rw [here]
    exact noted.mapRow i fun r => Row.coeffs_roundSides ..

/-! ### Columns -/

/-- A reduction of columns that changes the column alone, to `f` of it. -/
theorem follows_column {q : StrictReduction α Nat} {r : Reduction α Nat}
    {test : Column α → Bool} {f : Nat → Problem α → Column α → Column α}
    (prepare : ∀ (m : Storage α) (p : Problem α) (s : Settings), m.Backs p →
      q.prepare m p s = .ok ([], r.candidates p s))
    (within : ∀ p s, ∀ j ∈ r.candidates p s, j < p.ncols)
    (admissible : ∀ start d j, r.admissible start d j = d.problem.columnHas j test)
    (apply : ∀ j d, r.apply j d = d.mapProblem fun p => p.mapColumn j (f j p))
    (strict : ∀ marks m d j, q.admissible marks m d j = do
      return test (← column j d.problem))
    (change : ∀ m d j, m.Backs d.problem → j < d.problem.ncols →
      q.apply m j d = modifyColumn j (f j d.problem) d) : q.Follows r := by
  refine .of_guard (fun _ ncols j => j < ncols) prepare (fun _ p st _ => within p st)
    fun start m d j fits below => ⟨fun marks => ?_, ?_, ?_⟩
  · have here := List.getElem?_eq_getElem below
    rw [strict, admissible, column_eq_ok here, Problem.columnHas_of_getElem? here]
    rfl
  · rw [change m d j fits.backed below, modifyColumn_eq_ok below, apply]
    rfl
  · rw [apply]
    exact fits.mapColumn j _

/-- Positions from the last one down are prepared without fault. -/
theorem downFrom_ncols (h : m.Backs p) : (Except.ok ([], Scope.downFrom m.ncols) :
    Except Fault (List Bool × List Nat)) = .ok ([], Scope.downFrom p.ncols) := by
  rw [h.ncols]

/-- The strict `collapse` does what `collapse` does. -/
theorem follows_collapse (s : Scope α) : (collapse s).Follows (Reduction.collapse s) :=
  follows_column (f := fun j p => Column.collapse (s.valueOf j p))
    (fun _ _ _ backed => downFrom_ncols backed)
    (fun _ _ _ mem => Scope.mem_downFrom.1 mem) (fun _ _ _ => rfl) (fun _ _ => rfl)
    (fun _ _ _ _ => rfl) fun m d j backed below => by
      show (valueOf s m j d.problem >>= fun x => modifyColumn j (Column.collapse x) d) = _
      rw [valueOf_eq_ok backed below]
      rfl

/-- The strict `objective` does what `objective` does. -/
theorem follows_objective (s : Scope α) : (objective s).Follows (Reduction.objective s) :=
  follows_column (f := fun _ _ => Column.setCost 0) (fun _ _ _ backed => downFrom_ncols backed)
    (fun _ _ _ mem => Scope.mem_downFrom.1 mem) (fun _ _ _ => rfl) (fun _ _ => rfl)
    (fun _ _ _ _ => rfl) fun _ _ _ _ _ => rfl

/-- The strict `varround` does what `varround` does. -/
theorem follows_varround (s : Scope α) : (varround s).Follows (Reduction.varround s) :=
  follows_column (f := fun _ _ => Reduction.roundColumn s.tolerance) (fun m p _ backed => by
      show Except.ok ([], List.range m.ncols) = Except.ok ([], List.range p.ncols)
      rw [backed.ncols])
    (fun _ _ _ mem => List.mem_range.1 mem) (fun _ _ _ => rfl) (fun _ _ => rfl)
    (fun _ _ _ _ => rfl) fun _ _ _ _ _ => rfl

/-! ### Entries -/

/-- What is moved out of a row is noted. -/
theorem moveEntry_eq_ok {j : Nat} {x : α} {e : Nat × α} (below : e.1 < d.problem.nrows) :
    moveEntry j x d e =
      .ok ((d.mapProblem fun p => p.mapRow e.1 (Row.shift (e.2 * x))).change e.1 j 0) := by
  unfold moveEntry
  rw [modifyRow_eq_ok below]
  rfl

omit [Scalar α] in
/-- Changes of rows by their places, each of which occurs once. -/
theorem getElem?_foldl_modify {β : Type} {l : List (Nat × α)}
    (sorted : Keyed.Sorted Keyed.natBefore l) (f : α → β → β) (rows : List β) (i : Nat) :
    (l.foldl (fun rows e => rows.modify e.1 (f e.2)) rows)[i]? =
      (rows[i]?).map fun r => ((l.lookup i).map fun a => f a r).getD r := by
  induction l generalizing rows with
  | nil =>
    cases h : rows[i]? <;> simp [h]
  | cons e l ih =>
    obtain ⟨first, rest⟩ := Keyed.sorted_cons.1 sorted
    obtain ⟨k, a⟩ := e
    rw [List.foldl_cons, ih rest, List.getElem?_modify, List.lookup_cons]
    by_cases here : k = i
    · subst here
      rw [Keyed.isOrder_natBefore.lookup_eq_none first, beq_self_eq_true]
      cases rows[k]? <;> simp
    · rw [beq_false_of_ne (Ne.symm here)]
      cases rows[i]? <;> simp [here]

/-- Entries that are moved out one by one are all noted, and all moved out. -/
theorem foldl_moveEntry (j : Nat) (x : α) (l : List (Nat × α)) (d : Draft α) :
    l.foldl (fun (d : Draft α) e =>
        (d.mapProblem fun p => p.mapRow e.1 (Row.shift (e.2 * x))).change e.1 j 0) d =
      { problem := { d.problem with
          rows := l.foldl (fun rows e => rows.modify e.1 (Row.shift (e.2 * x))) d.problem.rows }
        settings := d.settings
        pending := l.foldl (fun c e => c.add e.1 j 0) d.pending } := by
  induction l generalizing d with
  | nil => rfl
  | cons e l ih => exact ih _

/-- Noting a column as erased lets a zero wait for each of its coefficients. -/
theorem pending_noteErased (j : Nat) (d : Draft α) : (Reduction.noteErased j d).pending =
    (d.problem.column j).foldl (fun c e => c.add e.1 j 0) d.pending := by
  unfold Reduction.noteErased
  generalize d.problem.column j = l
  induction l generalizing d with
  | nil => rfl
  | cons e l ih => exact ih _

/-- The rows that are changed by the places in a column are those with a coefficient in it. -/
theorem foldl_column (surplus : p.surplus = {}) (j : Nat) (x : α) :
    (p.column j).foldl (fun rows e => rows.modify e.1 (Row.shift (e.2 * x))) p.rows =
      p.rows.map (Reduction.movedOut j x) := by
  have sorted := Problem.sorted_column surplus j
  refine List.ext_getElem? fun i => ?_
  rw [getElem?_foldl_modify sorted (fun a => Row.shift (a * x)), List.getElem?_map]
  cases found : p.rows[i]? with
  | none => rfl
  | some r =>
    have entry : (p.column j).lookup i = r.coeff? j := by
      refine Option.ext fun a => ?_
      rw [sorted.lookup_eq_some_iff Keyed.isOrder_natBefore, Problem.mem_column_iff surplus]
      constructor
      · rintro ⟨r', found', entry⟩
        obtain rfl := Option.some.inj (found.symm.trans found')
        exact entry
      · exact fun entry => ⟨r, found, entry⟩
    refine congrArg some ?_
    dsimp only
    unfold Reduction.movedOut
    rw [entry]
    cases r.coeff? j <;> rfl

omit [Scalar α] in
/-- The rows of a column belong to the program. -/
theorem lt_nrows_of_mem_column (surplus : p.surplus = {}) {j : Nat} {e : Nat × α}
    (mem : e ∈ p.column j) : e.1 < p.nrows := by
  obtain ⟨r, found, -⟩ := (Problem.mem_column_iff surplus).1 mem
  exact (List.getElem?_eq_some_iff.1 found).1

/-- Noting the coefficients of a column as erased keeps a draft fitting. -/
theorem fits_noteErased (fits : d.Fits start m) {j : Nat} (below : j < d.problem.ncols) :
    (Reduction.noteErased j d).Fits start m := by
  refine List.foldlRecOn (motive := fun d' : Draft α => d'.Fits start m) _ _ fits
    fun d' fits' e mem => ?_
  have row := lt_nrows_of_mem_column fits.backed.surplus mem
  exact fits'.change (fits.nrows ▸ row) (fits.ncols ▸ below) 0

/-- What taking a column out leaves behind, whether its entries are moved out one by one or at
once. -/
theorem foldl_moveEntry_column (surplus : d.problem.surplus = {}) (j : Nat) (c : Column α) (x : α) :
    (((d.problem.column j).foldl (fun (d : Draft α) e =>
        (d.mapProblem fun p => p.mapRow e.1 (Row.shift (e.2 * x))).change e.1 j 0)
      (d.mapProblem fun p =>
        p.mapColumn j fun c => (c.collapse x).assignFlag .fixed true)).mapProblem
        fun p => p.mapColumn j (Column.setCost 0)).mapProblem
          (fun p => { p with offset := p.offset + c.cost * x }) =
      (Reduction.noteErased j d).mapProblem (Reduction.moveOut j c x) := by
  have noted := Reduction.notes_noteErased j d
  have pending := pending_noteErased j d
  have columns : (d.problem.columns.modify j fun c => (c.collapse x).assignFlag .fixed true).modify
      j (Column.setCost 0) = d.problem.columns.modify j (Reduction.fixColumn x) :=
    List.modify_modify_eq ..
  have rows := foldl_column surplus j x
  rw [foldl_moveEntry]
  unfold Draft.mapProblem Problem.mapColumn
  rw [noted.problem, noted.settings, pending, Reduction.moveOut_eq surplus]
  dsimp only
  rw [columns, rows]

/-- **Taking columns out is safe.** -/
theorem follows_fixing (s : Scope α) : (fixing s).Follows (Reduction.fixing s) := by
  refine .of_guard (fun _ ncols j => j < ncols) (fun _ _ _ backed => downFrom_ncols backed)
    (fun _ _ _ _ _ mem => Scope.mem_downFrom.1 mem) fun start m d j fits below => ?_
  have here := List.getElem?_eq_getElem below
  have surplus := fits.backed.surplus
  let x := Reduction.singleValue d.problem.columns[j]
  unfold fixing Reduction.fixing
  dsimp only
  refine ⟨fun marks => ?_, ?_, ?_⟩
  · rw [column_eq_ok here, ok_bind, Problem.columnHas_of_getElem? here]
    rfl
  · -- The entries of the column, as they were read before, are moved out one by one.
    let d₁ := d.mapProblem fun p => p.mapColumn j fun c => (c.collapse x).assignFlag .fixed true
    obtain ⟨d₂, moved, ⟨-, ncols⟩, rfl⟩ := follows_foldlM
      (R := fun d' d'' : Draft α => (d''.problem.nrows = d.problem.nrows ∧
        d''.problem.ncols = d.problem.ncols) ∧ d' = d'')
      (f := moveEntry j x) (g := fun d e =>
        (d.mapProblem fun p => p.mapRow e.1 (Row.shift (e.2 * x))).change e.1 j 0)
      (l := d.problem.column j) (s := d₁) (t := d₁)
      (fun e mem d' d'' ⟨⟨nrows, ncols⟩, same⟩ => by
        have row := lt_nrows_of_mem_column surplus mem
        refine ⟨_, ?_, ⟨(Problem.nrows_mapRow ..).trans nrows, ncols⟩, rfl⟩
        rw [same, moveEntry_eq_ok (nrows ▸ row)])
      ⟨⟨rfl, Problem.ncols_mapColumn ..⟩, rfl⟩
    rw [column_eq_ok here, ok_bind, modifyColumn_eq_ok below, ok_bind,
      fits.backed.readColumn below, ok_bind, moved, ok_bind, modifyColumn_eq_ok (ncols ▸ below),
      here]
    exact congrArg Except.ok (foldl_moveEntry_column surplus j d.problem.columns[j] x)
  · rw [here]
    have noted := Reduction.notes_noteErased j d
    refine (fits_noteErased fits below).congr ?_ ?_ ?_ rfl
    all_goals
      unfold Draft.mapProblem
      dsimp only
      rw [noted.problem, Reduction.moveOut_eq surplus]
    · show (d.problem.rows.map _).map _ = _
      rw [List.map_map]
      exact List.map_congr_left fun r _ => Reduction.coeffs_movedOut ..
    · exact List.length_modify ..

/-! ### Positions -/

/-- The positions are gathered row by row. -/
theorem positions_eq_ok (h : m.Backs p) :
    (List.range m.nrows).reverse.mapM (fun i => do
        return (← m.readRow i).map fun e : Nat × α => (i, e.1)) =
      .ok (p.rows.zipIdx.reverse.map fun e : Row α × Nat =>
        e.1.coeffs.map fun c => (e.2, c.1)) := by
  have places : (List.range m.nrows).reverse = p.rows.zipIdx.reverse.map Prod.snd := by
    rw [List.map_reverse, List.zipIdx_map_snd, ← List.range_eq_range', h.nrows]
    rfl
  rw [places, List.mapM_map]
  refine mapM_eq_ok fun e mem => ?_
  dsimp only [Function.comp_apply]
  rw [h.readRow (List.mem_zipIdx_iff_getElem?.1 (List.mem_reverse.1 mem))]
  rfl

/-- A position of the program lies in it. -/
theorem within_of_mem_positions (h : m.Backs p) {e : Nat × Nat}
    (mem : e ∈ Reduction.positions p) : e.1 < p.nrows ∧ e.2 < p.ncols := by
  obtain ⟨⟨r, i⟩, row, entry⟩ := List.mem_flatMap.1 mem
  obtain ⟨c, mem', rfl⟩ := List.mem_map.1 entry
  have found := List.mem_zipIdx_iff_getElem?.1 (List.mem_reverse.1 row)
  exact ⟨(List.getElem?_eq_some_iff.1 found).1, h.lt_ncols found mem'⟩

/-- **Taking coefficients out is safe.** -/
theorem follows_coefficient (s : Scope α) :
    (coefficient s).Follows (Reduction.coefficient s) := by
  refine .of_guard (fun nrows ncols e => e.1 < nrows ∧ e.2 < ncols) (fun m p st backed => ?_)
    (fun _ _ _ backed _ mem => within_of_mem_positions backed mem)
    fun start m d e fits ⟨row, column⟩ => ?_
  · unfold coefficient
    dsimp only
    rw [positions_eq_ok backed, ok_bind, ← List.flatMap_def]
    rfl
  have here := List.getElem?_eq_getElem row
  have there := List.getElem?_eq_getElem column
  have entry : d.problem.matrix.coeff? e.1 e.2 = (d.problem.rows[e.1]).coeff? e.2 := by
    show (d.problem.rows[e.1]?).bind _ = _
    rw [here]
    rfl
  have read := fits.backed.readCoeff row column
  unfold coefficient Reduction.coefficient
  dsimp only
  refine ⟨fun marks => ?_, ?_, ?_⟩
  · rw [get_eq_ok here, ok_bind, column_eq_ok there, ok_bind, Problem.rowHas_of_getElem? here,
      Problem.columnHas_of_getElem? there, fits.backed.ncols, read, entry, ok_bind]
    unfold Reduction.hasValue
    -- The strict test looks a coefficient up last, and only if all else is admissible.
    generalize (d.problem.rows[e.1]).isRedundant = redundant,
      (d.problem.columns[e.2]).isRemoved = removed,
      (Row.coeff? e.2 d.problem.rows[e.1]).isSome = stored,
      ((s.solution.point? d.problem.ncols).isSome || !(d.problem.columns[e.2]).flags.lbInf ||
        !(d.problem.columns[e.2]).flags.ubInf) = valued
    cases redundant <;> cases removed <;> cases stored <;> cases valued <;> rfl
  · rw [valueOf_eq_ok fits.backed column, ok_bind, read, ok_bind]
    cases d.problem.matrix.coeff? e.1 e.2 with
    | none => rfl
    | some a => exact moveEntry_eq_ok row
  · cases d.problem.matrix.coeff? e.1 e.2 with
    | none => exact fits
    | some a =>
      exact (fits.change (fits.nrows ▸ row) (fits.ncols ▸ column) 0).mapRow _ fun r =>
        Row.coeffs_shift ..

/-- The strict `setting` does what `setting` does. -/
theorem follows_setting (target : Option Settings) :
    (setting target : StrictReduction α _).Follows (Reduction.setting target) := by
  refine .of_guard (fun _ _ _ => True) (fun _ _ _ _ => rfl) (fun _ _ _ _ _ _ => trivial)
    fun start m d e fits _ => ⟨fun _ => rfl, rfl, ?_⟩
  cases target with
  | none => exact fits
  | some t => exact fits.congr rfl rfl rfl rfl

end Strict

namespace ModuleKind

/-- **The strict reduction of every module does what its reduction does.** -/
theorem follows_strict (k : ModuleKind) (target : Option Settings) (s : Scope α) :
    (k.strict target s).Follows (k.reduction target s).reduction :=
  match k with
  | constraint => Strict.follows_constraint s
  | collapse => Strict.follows_collapse s
  | objective => Strict.follows_objective s
  | side => Strict.follows_side s
  | fixing => Strict.follows_fixing s
  | coefficient => Strict.follows_coefficient s
  | varround => Strict.follows_varround s
  | consround => Strict.follows_consround s
  | setting => Strict.follows_setting target

end ModuleKind
end MipShrink
