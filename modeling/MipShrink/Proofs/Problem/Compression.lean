/-
# Compression keeps the meaning

Compressing a program removes its redundant rows and its fixed columns.  The values of the fixed
columns go into the sides of the rows and into the constant of the objective, and what is left is
numbered anew.  A point that has these values for the fixed columns means the same before and
after (`Problem.compress_preserves`): the objective has the same value, every row that is kept is
as far from its finite sides as before, and the same columns and rows are violated.

The fixed columns are put in one after the other.  A row sees this as a change of its own
(`Row.putFixed`), so that the whole has a closed form (`Problem.substituteFixed_eq`), in which no
column of a coefficient is fixed any more (`Row.mem_putFixed`).
-/

import MipShrink.Proofs.Reduction.Bounds
import MipShrink.Proofs.Throughout.Representation

namespace MipShrink

/-! ### Numbering -/

namespace IndexMaps

variable {β γ : Type}

/-- Of what is numbered, what is kept is selected. -/
theorem select_map (keep : β → Bool) (f : β → γ) (next : Nat) (l : List β) :
    select (renumberFrom next (l.map keep)) (l.map f) = (l.filter keep).map f := by
  induction l generalizing next with
  | nil => rfl
  | cons b l ih =>
    rw [List.map_cons, List.map_cons, List.filter_cons]
    cases keep b with
    | true => exact congrArg (f b :: ·) (ih (next + 1))
    | false => exact ih next

/-- What is kept has a number, and nothing else has. -/
theorem isSome_renumberFrom (next : Nat) (keep : List Bool) (i : Nat) :
    ((renumberFrom next keep)[i]?).map Option.isSome = keep[i]? := by
  induction keep generalizing next i with
  | nil => rfl
  | cons b keep ih =>
    cases i with
    | zero => cases b <;> rfl
    | succ i =>
      cases b with
      | true => exact ih (next + 1) i
      | false => exact ih next i

/-- The number of an item is its place among what is selected. -/
theorem getElem?_select {next : Nat} {keep : List Bool} {items : List β} {i k : Nat}
    (place : (renumberFrom next keep)[i]? = some (some k)) (same : items.length = keep.length) :
    next ≤ k ∧ (select (renumberFrom next keep) items)[k - next]? = items[i]? := by
  induction keep generalizing next items i with
  | nil => cases place
  | cons b keep ih =>
    obtain ⟨item, items, rfl⟩ := List.exists_cons_of_length_eq_add_one same
    have rest : items.length = keep.length := Nat.succ.inj same
    cases b with
    | true =>
      cases i with
      | zero =>
        obtain rfl : next = k := Option.some.inj (Option.some.inj place)
        rw [Nat.sub_self]
        exact ⟨Nat.le_refl _, rfl⟩
      | succ i =>
        obtain ⟨le, found⟩ := ih place rest
        refine ⟨Nat.le_of_succ_le le, ?_⟩
        have step : k - next = (k - (next + 1)) + 1 := by omega
        rw [step]
        exact found
    | false =>
      cases i with
      | zero => cases Option.some.inj place
      | succ i => exact ih place rest

end IndexMaps

/-! ### Rows -/

namespace Row

/-- A side is missing exactly if it is marked as infinite. -/
theorem isNone_lhs? (r : Row Rat) : r.lhs?.isNone = r.flags.lhsInf := by
  unfold lhs?
  cases r.flags.lhsInf <;> rfl

/-- A side is missing exactly if it is marked as infinite. -/
theorem isNone_rhs? (r : Row Rat) : r.rhs?.isNone = r.flags.rhsInf := by
  unfold rhs?
  cases r.flags.rhsInf <;> rfl

/-- How far a point is from the finite sides decides whether it violates the row. -/
theorem violatesRow_eq_room (tol : Rat) (x : List Rat) (r : Row Rat) :
    Solution.violatesRow tol x r =
    ((r.lhs?.map (r.activity x - ·)).any (fun d => !decide (-tol ≤ d)) ||
      (r.rhs?.map (r.activity x - ·)).any fun d => !decide (d ≤ tol)) := by
  unfold Solution.violatesRow lhs? rhs?
  cases r.flags.lhsInf <;> cases r.flags.rhsInf <;> rfl

/-- The row `r'` at `y` is as far from its finite sides as the row `r` at `x`. -/
structure SameRoom (x y : List Rat) (r r' : Row Rat) : Prop where
  name : r'.name = r.name
  redundant : r'.isRedundant = r.isRedundant
  lhs : r'.lhs?.map (r'.activity y - ·) = r.lhs?.map (r.activity x - ·)
  rhs : r'.rhs?.map (r'.activity y - ·) = r.rhs?.map (r.activity x - ·)

namespace SameRoom

variable {x y z : List Rat} {r r' r'' : Row Rat}

/-- A row leaves the same room as itself. -/
theorem refl (x : List Rat) (r : Row Rat) : r.SameRoom x x r := ⟨rfl, rfl, rfl, rfl⟩

/-- Leaving the same room is transitive. -/
theorem trans (h : r.SameRoom x y r') (h' : r'.SameRoom y z r'') : r.SameRoom x z r'' :=
  ⟨h'.name.trans h.name, h'.redundant.trans h.redundant, h'.lhs.trans h.lhs, h'.rhs.trans h.rhs⟩

/-- The same sides are infinite. -/
theorem infinite (h : r.SameRoom x y r') :
    r'.flags.lhsInf = r.flags.lhsInf ∧ r'.flags.rhsInf = r.flags.rhsInf := by
  obtain ⟨-, -, lhs, rhs⟩ := h
  have lhs := congrArg Option.isNone lhs
  have rhs := congrArg Option.isNone rhs
  rw [Option.isNone_map, Option.isNone_map, isNone_lhs?, isNone_lhs?] at lhs
  rw [Option.isNone_map, Option.isNone_map, isNone_rhs?, isNone_rhs?] at rhs
  exact ⟨lhs, rhs⟩

/-- With the same room a row is violated or not. -/
theorem violatesRow_eq (h : r.SameRoom x y r') (tol : Rat) :
    Solution.violatesRow tol y r' = Solution.violatesRow tol x r := by
  rw [violatesRow_eq_room, violatesRow_eq_room, h.lhs, h.rhs]

/-- Putting a value in leaves the same room at a point that has this value. -/
theorem putIn (canonical : r.Canonical) (x : List Rat) (j : Nat) :
    r.SameRoom x x (r.putIn j (x.getD j 0)) := by
  have moved (side : Option Rat) (w : Rat) :
      (side.map (· - w)).map (r.activity x - w - ·) = side.map (r.activity x - ·) := by
    rw [Option.map_map]
    exact congrArg (Option.map · side) (funext fun a => by simp only [Function.comp]; grind)
  refine ⟨name_putIn .., isRedundant_putIn .., ?_, ?_⟩
  · rw [lhs?_putIn, activity_putIn canonical, moved]
  · rw [rhs?_putIn, activity_putIn canonical, moved]

end SameRoom

/-- Putting a value in keeps a row canonical. -/
theorem Canonical.putIn {r : Row Rat} (h : r.Canonical) (j : Nat) (v : Rat) :
    (r.putIn j v).Canonical := by
  unfold Row.putIn
  split
  · exact (h.of_coeffs_eq (coeffs_shift ..)).setCoeff j 0
  · exact h

/-- The row with the values of the fixed ones among the columns put in. -/
def putFixed (columns : List (Column Rat × Nat)) (r : Row Rat) : Row Rat :=
  columns.foldl (fun r e => if e.1.flags.fixed then r.putIn e.2 e.1.lower else r) r

/-- The fixed columns are put in from the first to the last. -/
theorem putFixed_cons (e : Column Rat × Nat) (columns : List (Column Rat × Nat)) (r : Row Rat) :
    r.putFixed (e :: columns) =
      (if e.1.flags.fixed then r.putIn e.2 e.1.lower else r).putFixed columns := rfl

/-- Values of the point are put in. -/
theorem sameRoom_putFixed {r : Row Rat} (canonical : r.Canonical) {x : List Rat}
    {columns : List (Column Rat × Nat)}
    (values : ∀ e ∈ columns, e.1.flags.fixed = true → x.getD e.2 0 = e.1.lower) :
    r.SameRoom x x (r.putFixed columns) := by
  induction columns generalizing r with
  | nil => exact .refl x r
  | cons e columns ih =>
    obtain ⟨first, rest⟩ := List.forall_mem_cons.1 values
    rw [putFixed_cons]
    split
    · rename_i fixed
      rw [← first fixed]
      exact (SameRoom.putIn canonical x e.2).trans (ih (canonical.putIn ..) rest)
    · exact ih canonical rest

/-- No fixed column is left. -/
theorem mem_putFixed {r : Row Rat} {columns : List (Column Rat × Nat)} {e : Nat × Rat}
    (mem : e ∈ (r.putFixed columns).coeffs) :
    e ∈ r.coeffs ∧ ∀ c ∈ columns, c.1.flags.fixed = true → c.2 ≠ e.1 := by
  induction columns generalizing r with
  | nil => exact ⟨mem, fun _ none => absurd none List.not_mem_nil⟩
  | cons c columns ih =>
    rw [putFixed_cons] at mem
    obtain ⟨before, others⟩ := ih mem
    split at before
    · obtain ⟨kept, other⟩ := mem_putIn before
      exact ⟨kept, List.forall_mem_cons.2 ⟨fun _ => other.symm, others⟩⟩
    · rename_i notFixed
      exact ⟨before, List.forall_mem_cons.2 ⟨fun fixed => absurd fixed notFixed, others⟩⟩

/-- The row with its columns numbered anew, without those that have no number. -/
def relabel (map : List (Option Nat)) (r : Row Rat) : Row Rat :=
  dropZeros { r with coeffs := r.coeffs.filterMap fun e =>
    (map.getD e.1 none).map fun j => (j, e.2) }

/-- Values that go with the numbers, and coefficients that do not count. -/
theorem dot_relabel {map : List (Option Nat)} {x y : List Rat} {l : List (Nat × Rat)}
    (values : ∀ j k, map.getD j none = some k → y.getD k 0 = x.getD j 0)
    (lost : ∀ e ∈ l, map.getD e.1 none = none → x.getD e.1 0 = 0) :
    dot y (l.filterMap fun e => (map.getD e.1 none).map fun j => (j, e.2)) = dot x l := by
  induction l with
  | nil => rfl
  | cons e l ih =>
    obtain ⟨first, rest⟩ := List.forall_mem_cons.1 lost
    rw [List.filterMap_cons, dot]
    cases number : map.getD e.1 none with
    | none =>
      rw [Option.map_none, ih rest, first number]
      grind
    | some k =>
      rw [Option.map_some, dot, ih rest, values _ _ number]

/-- A row leaves the same room when its columns get new numbers and only zeros are lost. -/
theorem SameRoom.relabel {r : Row Rat} {map : List (Option Nat)} {x y : List Rat}
    (values : ∀ j k, map.getD j none = some k → y.getD k 0 = x.getD j 0)
    (lost : ∀ e ∈ r.coeffs, map.getD e.1 none = none → x.getD e.1 0 = 0) :
    r.SameRoom x y (r.relabel map) := by
  have activity : (r.relabel map).activity y = r.activity x := by
    unfold Row.relabel
    rw [activity_dropZeros, activity_eq_dot, activity_eq_dot]
    exact dot_relabel values lost
  refine ⟨rfl, rfl, ?_, ?_⟩
  · rw [activity]
    rfl
  · rw [activity]
    rfl

end Row

/-! ### Columns -/

namespace Column

/-- What columns contribute to the objective with their values. -/
def total : List (Rat × Column Rat) → Rat
  | [] => 0
  | e :: l => e.2.cost * e.1 + total l

/-- What the fixed ones among the columns contribute to the objective. -/
def fixedTotal : List (Column Rat) → Rat
  | [] => 0
  | c :: l => (if c.flags.fixed then c.cost * c.lower else 0) + fixedTotal l

/-- The column without its cost if it is fixed. -/
def settled (c : Column Rat) : Column Rat :=
  if c.flags.fixed then c.setCost 0 else c

/-- A column that is not fixed is settled already. -/
theorem settled_of_not_fixed {c : Column Rat} (notFixed : (!c.flags.fixed) = true) :
    c.settled = c := by
  rw [Bool.not_eq_true'] at notFixed
  exact if_neg (Bool.eq_false_iff.1 notFixed)

/-- The columns that are not fixed and the fixed ones together. -/
theorem total_filter {l : List (Rat × Column Rat)}
    (values : ∀ e ∈ l, e.2.flags.fixed = true → e.1 = e.2.lower) :
    fixedTotal (l.map Prod.snd) + total (l.filter fun e => !e.2.flags.fixed) = total l := by
  induction l with
  | nil => exact Rat.add_zero 0
  | cons e l ih =>
    obtain ⟨first, rest⟩ := List.forall_mem_cons.1 values
    have later := ih rest
    rw [List.filter_cons, List.map_cons, fixedTotal, total]
    cases fixed : e.2.flags.fixed with
    | true =>
      rw [if_pos rfl, if_neg (by decide), first fixed]
      grind
    | false =>
      rw [if_neg (by decide), if_pos (by decide), total]
      grind

end Column

namespace Problem

/-- The objective is the constant and what the columns add to it. -/
theorem objective_eq (p : Problem Rat) {x : List Rat} (complete : x.length = p.ncols) :
    p.objective x = p.offset + Column.total (x.zip p.columns) := by
  have sum (columns : List (Column Rat)) (k : Nat) (rest : List Rat) (a : Rat)
      (values : ∀ i, x.getD (k + i) 0 = rest.getD i 0) (same : rest.length = columns.length) :
      (columns.zipIdx k).foldl (fun sum e => sum + e.1.cost * x.getD e.2 0) a =
        a + Column.total (rest.zip columns) := by
    induction columns generalizing k rest a with
    | nil =>
      rw [List.zip_nil_right]
      exact (Rat.add_zero a).symm
    | cons c columns ih =>
      obtain ⟨v, rest, rfl⟩ := List.exists_cons_of_length_eq_add_one same
      have here : x.getD k 0 = v := values 0
      have there (i : Nat) : x.getD (k + 1 + i) 0 = rest.getD i 0 := by
        have next := values (i + 1)
        rw [List.getD_cons_succ] at next
        rw [← next]
        congr 1
        omega
      rw [List.zipIdx_cons, List.foldl_cons, ih (k + 1) rest _ there (Nat.succ.inj same), here,
        List.zip_cons_cons, Column.total, Rat.add_assoc]
  exact sum p.columns 0 x p.offset (fun i => by rw [Nat.zero_add]) complete

/-! ### Putting the fixed columns in -/

/-- Substituting a column moves its cost into the constant and its value into the rows. -/
theorem substitute_eq {p : Problem Rat} (surplus : p.surplus = {}) {j : Nat} {c : Column Rat}
    (place : p.columns[j]? = some c) (v : Rat) : p.substitute j v =
      { p with
        offset := p.offset + c.cost * v
        columns := p.columns.modify j (Column.setCost 0)
        rows := p.rows.map (Row.putIn j v) } := by
  obtain ⟨name, sense, offset, columns, rows, rest⟩ := p
  obtain rfl : rest = {} := surplus
  unfold substitute
  rw [place]
  refine congrArg (fun rows => Problem.mk name sense _ _ rows {})
    (List.map_congr_left fun r _ => ?_)
  unfold Row.putIn
  cases r.coeff? j with
  | some a =>
    show _ = (r.shift (a * v)).setCoeff j 0
    unfold Row.setCoeff
    rw [Row.coeffs_shift]
    rfl
  | none => rfl

/-- Putting one column in, if it is fixed. -/
theorem substitute_step {q : Problem Rat} (surplus : q.surplus = {}) {done left : List (Column Rat)}
    {c : Column Rat} (columns : q.columns = done ++ c :: left) :
    (if c.flags.fixed then q.substitute done.length c.lower else q) =
      { q with
        offset := q.offset + if c.flags.fixed then c.cost * c.lower else 0
        columns := done ++ c.settled :: left
        rows := q.rows.map (Row.putFixed [(c, done.length)]) } := by
  obtain ⟨name, sense, offset, all, rows, rest⟩ := q
  obtain rfl : all = done ++ c :: left := columns
  obtain rfl : rest = {} := surplus
  unfold Column.settled
  have single : Row.putFixed [(c, done.length)] = fun r =>
      if c.flags.fixed then r.putIn done.length c.lower else r := rfl
  rw [single]
  cases c.flags.fixed with
  | true =>
    have place : (done ++ c :: left)[done.length]? = some c := by
      rw [List.getElem?_append_right (Nat.le_refl _), Nat.sub_self]
      rfl
    rw [if_pos rfl, if_pos rfl, if_pos rfl, substitute_eq rfl place, modify_append_cons]
    rfl
  | false =>
    have same : offset + 0 = offset := Rat.add_zero _
    simp only [Bool.false_eq_true, if_false, same, List.map_id']

/-- Putting in what is left of the columns when those before are done. -/
theorem foldl_substitute {left done : List (Column Rat)} {q : Problem Rat}
    (surplus : q.surplus = {}) (columns : q.columns = done ++ left) :
    (left.zipIdx done.length).foldl
        (fun q e => if e.1.flags.fixed then q.substitute e.2 e.1.lower else q) q =
      { q with
        offset := q.offset + Column.fixedTotal left
        columns := done ++ left.map Column.settled
        rows := q.rows.map (Row.putFixed (left.zipIdx done.length)) } := by
  induction left generalizing done q with
  | nil =>
    have offset : q.offset + Column.fixedTotal [] = q.offset := Rat.add_zero _
    have rows : q.rows.map (Row.putFixed []) = q.rows := List.map_id _
    rw [List.zipIdx_nil, offset, rows, List.map_nil, ← columns]
    rfl
  | cons c left ih =>
    have length : (done ++ [c.settled]).length = done.length + 1 := List.length_append
    rw [List.zipIdx_cons, List.foldl_cons, substitute_step surplus columns, ← length]
    refine (ih ?_ ?_).trans ?_
    · exact surplus
    · exact List.append_cons ..
    · dsimp only
      rw [List.map_map, Rat.add_assoc, ← List.append_cons]
      rfl

/-- **What putting the fixed columns in makes of a program.** -/
theorem substituteFixed_eq {p : Problem Rat} (surplus : p.surplus = {}) : p.substituteFixed =
    { p with
      offset := p.offset + Column.fixedTotal p.columns
      columns := p.columns.map Column.settled
      rows := p.rows.map (Row.putFixed p.columns.zipIdx) } :=
  foldl_substitute surplus (List.nil_append p.columns).symm

/-! ### What compressing makes of a program -/

/-- The row with the fixed columns put in and the others numbered anew. -/
def pressRow (p : Problem Rat) (r : Row Rat) : Row Rat :=
  (r.putFixed p.columns.zipIdx).relabel p.indexMaps.cols

variable {p : Problem Rat} {s : Solution Rat}

/-- The constant of the compressed program has the costs of the fixed columns in it. -/
theorem offset_compress (canonical : p.Canonical) :
    p.compress.1.offset = p.offset + Column.fixedTotal p.columns :=
  congrArg Problem.offset (substituteFixed_eq canonical.surplus)

/-- The columns of the compressed program are those that are not fixed. -/
theorem columns_compress (canonical : p.Canonical) :
    p.compress.1.columns = p.columns.filter fun c => !c.flags.fixed := by
  show IndexMaps.select p.indexMaps.cols p.substituteFixed.columns = _
  rw [substituteFixed_eq canonical.surplus]
  refine (IndexMaps.select_map ..).trans ?_
  refine (List.map_congr_left fun c mem => ?_).trans (List.map_id _)
  exact Column.settled_of_not_fixed (List.mem_filter.1 mem).2

/-- The rows of the compressed program are those that are not redundant, pressed. -/
theorem rows_compress (canonical : p.Canonical) :
    p.compress.1.rows = (p.rows.filter fun r => !r.isRedundant).map p.pressRow := by
  show (IndexMaps.select p.indexMaps.rows p.substituteFixed.rows).map (Row.relabel _) = _
  rw [substituteFixed_eq canonical.surplus]
  refine (congrArg (List.map _) (IndexMaps.select_map ..)).trans ?_
  rw [List.map_map]
  rfl

/-- The compressed reference has the values of the columns that are left. -/
theorem primal_compress (complete : s.primal.length = p.ncols) :
    (s.compress p.compress.2).primal = IndexMaps.select p.indexMaps.cols s.primal := by
  have length : s.primal.length = p.indexMaps.cols.length := by
    unfold indexMaps IndexMaps.renumber
    rw [IndexMaps.length_renumberFrom, List.length_map]
    exact complete
  exact if_pos length

/-- The values of the columns that are kept. -/
theorem primal_compress_eq_map (complete : s.primal.length = p.ncols) :
    (s.compress p.compress.2).primal =
      ((s.primal.zip p.columns).filter fun e => !e.2.flags.fixed).map Prod.fst := by
  have first : (s.primal.zip p.columns).map Prod.fst = s.primal :=
    List.map_fst_zip (Nat.le_of_eq complete)
  have second : (s.primal.zip p.columns).map Prod.snd = p.columns :=
    List.map_snd_zip (Nat.le_of_eq complete.symm)
  have keep : (s.primal.zip p.columns).map (fun e => !e.2.flags.fixed) =
      p.columns.map fun c => !c.flags.fixed := by
    rw [← second, List.map_map, second]
    rfl
  rw [primal_compress complete, ← IndexMaps.select_map _ _ 0, keep, first]
  rfl

/-- The columns that are kept, with their values. -/
theorem zip_compress (canonical : p.Canonical) (complete : s.primal.length = p.ncols) :
    (s.compress p.compress.2).primal.zip p.compress.1.columns =
      (s.primal.zip p.columns).filter fun e => !e.2.flags.fixed := by
  have second : (s.primal.zip p.columns).map Prod.snd = p.columns :=
    List.map_snd_zip (Nat.le_of_eq complete.symm)
  have columns : p.compress.1.columns =
      ((s.primal.zip p.columns).filter fun e => !e.2.flags.fixed).map Prod.snd := by
    rw [columns_compress canonical, ← second, List.filter_map, second]
    rfl
  rw [primal_compress_eq_map complete, columns, List.zip_map']
  exact List.map_id _

/-- The compressed reference has a value for each column that is left. -/
theorem complete_compress (canonical : p.Canonical) (complete : s.primal.length = p.ncols) :
    (s.compress p.compress.2).primal.length = p.compress.1.ncols := by
  have second : (s.primal.zip p.columns).map Prod.snd = p.columns :=
    List.map_snd_zip (Nat.le_of_eq complete.symm)
  unfold ncols
  rw [primal_compress_eq_map complete, columns_compress canonical, List.length_map, ← second,
    List.filter_map, List.length_map, second]
  rfl

/-- **The objective has the same value.** -/
theorem objective_compress (canonical : p.Canonical) (complete : s.primal.length = p.ncols)
    (values : ∀ e ∈ p.columns.zipIdx, e.1.flags.fixed = true → s.primal.getD e.2 0 = e.1.lower) :
    p.compress.1.objective (s.compress p.compress.2).primal = p.objective s.primal := by
  have second : (s.primal.zip p.columns).map Prod.snd = p.columns :=
    List.map_snd_zip (Nat.le_of_eq complete.symm)
  have fixed : ∀ e ∈ s.primal.zip p.columns, e.2.flags.fixed = true → e.1 = e.2.lower := by
    intro e mem fixed
    obtain ⟨j, place⟩ := List.mem_iff_getElem?.1 mem
    obtain ⟨value, column⟩ := List.getElem?_zip_eq_some.1 place
    rw [← values (e.2, j) (List.mem_zipIdx_iff_getElem?.2 column) fixed,
      List.getD_eq_getElem?_getD, value]
    rfl
  have split := Column.total_filter fixed
  rw [second] at split
  rw [objective_eq _ (complete_compress canonical complete), objective_eq _ complete,
    offset_compress canonical, zip_compress canonical complete, ← split, Rat.add_assoc]

/-- A column that has a number has its value there. -/
theorem getD_primal_compress (complete : s.primal.length = p.ncols) {j k : Nat}
    (number : p.indexMaps.cols.getD j none = some k) :
    (s.compress p.compress.2).primal.getD k 0 = s.primal.getD j 0 := by
  have place : (IndexMaps.renumberFrom 0 (p.columns.map fun c => !c.flags.fixed))[j]? =
      some (some k) := by
    rw [List.getD_eq_getElem?_getD, Option.getD_eq_iff] at number
    exact number.resolve_right fun absent => Option.some_ne_none k absent.2.symm
  have length : s.primal.length = (p.columns.map fun c => !c.flags.fixed).length :=
    complete.trans (List.length_map _).symm
  obtain ⟨-, found⟩ := IndexMaps.getElem?_select place length
  rw [primal_compress complete, List.getD_eq_getElem?_getD, List.getD_eq_getElem?_getD, ← found]
  rfl

/-- A column that has no number is fixed or is not there. -/
theorem fixed_of_no_number {j : Nat} (number : p.indexMaps.cols.getD j none = none)
    {c : Column Rat} (place : p.columns[j]? = some c) : c.flags.fixed = true := by
  have kept := IndexMaps.isSome_renumberFrom 0 (p.columns.map fun c => !c.flags.fixed) j
  have cols : p.indexMaps.cols =
      IndexMaps.renumberFrom 0 (p.columns.map fun c => !c.flags.fixed) := rfl
  rw [List.getD_eq_getElem?_getD, cols] at number
  rw [List.getElem?_map, place] at kept
  obtain ⟨k, here, some⟩ := Option.map_eq_some_iff.1 kept
  rw [here, Option.getD_some] at number
  rw [number] at some
  have lost : (!c.flags.fixed) = false := some.symm
  rwa [Bool.not_eq_false'] at lost

/-- **A row is as far from its sides as before**, in the new program and at the new point. -/
theorem sameRoom_pressRow (canonical : p.Canonical) (complete : s.primal.length = p.ncols)
    (values : ∀ e ∈ p.columns.zipIdx, e.1.flags.fixed = true → s.primal.getD e.2 0 = e.1.lower)
    {r : Row Rat} (mem : r ∈ p.rows) :
    r.SameRoom s.primal (s.compress p.compress.2).primal (p.pressRow r) := by
  refine (Row.sameRoom_putFixed (canonical.rows r mem) values).trans (.relabel ?_ ?_)
  · exact fun j k number => getD_primal_compress complete number
  · intro e entry number
    rw [List.getD_eq_getElem?_getD]
    cases column : p.columns[e.1]? with
    | some c =>
      have fixed := fixed_of_no_number number column
      have other :=
        (Row.mem_putFixed entry).2 (c, e.1) (List.mem_zipIdx_iff_getElem?.2 column) fixed
      exact absurd rfl other
    | none =>
      have beyond : s.primal.length ≤ e.1 :=
        Nat.le_trans (Nat.le_of_eq complete) (List.getElem?_eq_none_iff.1 column)
      rw [List.getElem?_eq_none_iff.2 beyond]
      rfl

/-- A row that is kept is found at its number. -/
theorem getElem?_rows_compress (canonical : p.Canonical) {i : Nat} {r : Row Rat}
    (place : p.rows[i]? = some r) (used : r.isRedundant = false) :
    ∃ k, p.compress.2.rows[i]? = some (some k) ∧ p.compress.1.rows[k]? = some (p.pressRow r) := by
  have kept := IndexMaps.isSome_renumberFrom 0 (p.rows.map fun r => !r.isRedundant) i
  rw [List.getElem?_map, place, Option.map_some, used] at kept
  obtain ⟨number, here, some⟩ := Option.map_eq_some_iff.1 kept
  obtain ⟨k, rfl⟩ := Option.isSome_iff_exists.1 some
  refine ⟨k, here, ?_⟩
  have length : p.substituteFixed.rows.length = (p.rows.map fun r => !r.isRedundant).length := by
    rw [substituteFixed_eq canonical.surplus, List.length_map, List.length_map]
  obtain ⟨-, found⟩ := IndexMaps.getElem?_select here length
  have rows : p.compress.1.rows =
      (IndexMaps.select p.indexMaps.rows p.substituteFixed.rows).map
        (Row.relabel p.indexMaps.cols) :=
    rfl
  rw [rows, List.getElem?_map, show k = k - 0 from rfl]
  refine (congrArg (Option.map _) found).trans ?_
  rw [substituteFixed_eq canonical.surplus, List.getElem?_map, place]
  rfl

end Problem

/-! ### Violations -/

namespace Solution

/-- The names of the columns of a kind that the point violates, and those of the rows. -/
def violationsAmong (kind : Column Rat → Bool) (tol : Rat) (p : Problem Rat) (s : Solution Rat) :
    List String :=
  match s.point? p.ncols with
  | none => []
  | some x =>
    let columns := ((x.zip p.columns).filter fun e => violatesColumn tol e.1 e.2 && kind e.2).map
      fun e => e.2.name
    let rows := (p.rows.filter fun r => !r.isRedundant && violatesRow tol x r).map Row.name
    columns ++ rows

/-- Among all columns the violations are the violations. -/
theorem violations_eq_among (tol : Rat) (p : Problem Rat) (s : Solution Rat) :
    s.violations tol p = s.violationsAmong (fun _ => true) tol p := by
  unfold violations violationsAmong
  cases s.point? p.ncols with
  | none => rfl
  | some x => simp only [Bool.and_true]

/-- **The same is violated, apart from fixed columns.** -/
theorem violations_compress {p : Problem Rat} {s : Solution Rat} (canonical : p.Canonical)
    (complete : s.primal.length = p.ncols)
    (values : ∀ e ∈ p.columns.zipIdx, e.1.flags.fixed = true → s.primal.getD e.2 0 = e.1.lower)
    (tol : Rat) : (s.compress p.compress.2).violations tol p.compress.1 =
      s.violationsAmong (fun c => !c.flags.fixed) tol p := by
  have complete' := Problem.complete_compress canonical complete
  have feasible : (s.compress p.compress.2).isFeasible = s.isFeasible := rfl
  unfold violations violationsAmong point?
  rw [complete, complete', beq_self_eq_true, beq_self_eq_true, feasible]
  cases s.isFeasible with
  | false => rfl
  | true =>
    have columns := Problem.zip_compress canonical complete
    have room {r : Row Rat} (mem : r ∈ p.rows) :=
      Problem.sameRoom_pressRow canonical complete values mem
    rw [Bool.and_self, if_pos rfl, if_pos rfl]
    dsimp only
    rw [columns, List.filter_filter, Problem.rows_compress canonical, List.filter_map,
      List.filter_filter, List.map_map]
    refine congrArg _ ?_
    have same : ∀ r ∈ p.rows, (((fun r => !r.isRedundant &&
        violatesRow tol (s.compress p.compress.2).primal r) ∘ p.pressRow) r && !r.isRedundant) =
          (!r.isRedundant && violatesRow tol s.primal r) := by
      intro r mem
      rw [Function.comp, (room mem).redundant, (room mem).violatesRow_eq]
      cases r.isRedundant <;> simp
    rw [List.filter_congr same]
    exact List.map_congr_left fun r mem => (room (List.mem_filter.1 mem).1).name

end Solution

namespace Problem

/-- **Compressing a program keeps its meaning** for every point that has the stored values in the
fixed columns.  The objective has the same value; every row that is kept has the same infinite
sides and is as far from the finite ones; and what is violated, whatever the tolerance, is what was
violated without the fixed columns. -/
theorem compress_preserves {p : Problem Rat} {s : Solution Rat} (canonical : p.Canonical)
    (complete : s.primal.length = p.ncols)
    (values : ∀ e ∈ p.columns.zipIdx, e.1.flags.fixed = true → s.primal.getD e.2 0 = e.1.lower) :
    let c := p.compress.1
    let maps := p.compress.2
    let y := (s.compress maps).primal
    c.objective y = p.objective s.primal ∧
      (∀ (i : Nat) (r : Row Rat), p.rows[i]? = some r → r.isRedundant = false →
        ∃ (k : Nat) (r' : Row Rat), maps.rows[i]? = some (some k) ∧ c.rows[k]? = some r' ∧
          r'.flags.lhsInf = r.flags.lhsInf ∧ r'.flags.rhsInf = r.flags.rhsInf ∧
          r.SameRoom s.primal y r') ∧
      ∀ tol, (s.compress maps).violations tol c =
        s.violationsAmong (fun c => !c.flags.fixed) tol p := by
  refine ⟨objective_compress canonical complete values, fun i r place used => ?_,
    Solution.violations_compress canonical complete values⟩
  obtain ⟨k, number, found⟩ := getElem?_rows_compress canonical place used
  have room := sameRoom_pressRow canonical complete values (List.mem_of_getElem? place)
  exact ⟨k, p.pressRow r, number, found, room.infinite.1, room.infinite.2, room⟩

/-- Three columns, the first one fixed while it still has a cost and coefficients, in two rows of
which one is redundant. -/
def burdened : Problem Rat :=
  { name := "burdened", sense := .minimize, offset := 1
    columns :=
      [{ name := "x", cost := 2, lower := 3 / 2, upper := 3 / 2
         flags := { integral := true, fixed := true } },
        { name := "y", cost := 1, lower := 0, upper := 4, flags := { integral := true } },
        { name := "z", cost := -1, lower := 0, upper := 0
          flags := { lbInf := true, ubInf := true } }]
    rows :=
      [{ name := "r", coeffs := [(0, 1)], lhs := 0, rhs := 1, flags := { redundant := true } },
        { name := "s", coeffs := [(0, 4), (1, 1), (2, 3)], lhs := 2, rhs := 0,
          flags := { rhsInf := true } }] }

/-- The fixed column goes into the constant and into the side of the row that is kept.  The point
violates it, because its value is not whole, and afterwards only the other column and the row. -/
theorem compress_preserves_burdened :
    let s : Solution Rat := { status := .feasible, primal := [3 / 2, 5, -4], ray := [] }
    let c := burdened.compress.1
    let s' := s.compress burdened.compress.2
    s'.primal = [5, -4] ∧ c.offset = 4 ∧ c.rows.map Row.lhs? = [some (-4)] ∧
      s.violations 0 burdened = ["x", "y", "s"] ∧ s'.violations 0 c = ["y", "s"] ∧
      c.objective s'.primal = burdened.objective s.primal ∧
      s'.violations 0 c = s.violationsAmong (fun c => !c.flags.fixed) 0 burdened := by
  intro s c s'
  have preserved := compress_preserves (p := burdened) (s := s) (by decide +kernel) rfl
    (by decide +kernel)
  exact ⟨by decide +kernel, by decide +kernel, by decide +kernel, by decide +kernel,
    by decide +kernel, preserved.1, preserved.2.2 0⟩

end Problem
end MipShrink
