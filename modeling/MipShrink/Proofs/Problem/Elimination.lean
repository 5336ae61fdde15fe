/-
# Two ways of taking columns out

The module `fixing` moves the value of a column into sides and constant as soon as it fixes the
column, in the order of its batch, and lets the coefficients wait for the flush.  Compressing does
the same for all columns that are fixed by then, from the first to the last.  A column may also be
*pinned*: it gets its single value and is marked as fixed, and nothing else is changed.

The two agree (`Problem.compress_fixing`): compressing what `fixing` has made of some columns gives
the same program and the same index maps as compressing the program in which they are only pinned.
The reason is that values may be put in in any order (`Row.putIn_comm`), so that it does not matter
for the compressed program whether the value of a fixed column has been put in beforehand
(`Problem.compress_substitute`).
-/

import MipShrink.Proofs.Problem.Compression
import MipShrink.Proofs.Reduction.Partition

namespace MipShrink

/-! ### Rows -/

namespace Row

/-- Shifting a row by two values does not depend on their order. -/
theorem shift_comm (a b : Rat) (r : Row Rat) : (r.shift a).shift b = (r.shift b).shift a := by
  have swap (side : Rat) : side - a - b = side - b - a := by grind
  obtain ⟨name, coeffs, lhs, rhs, ⟨lhsInf, rhsInf, equation, redundant⟩⟩ := r
  cases lhsInf <;> cases rhsInf <;>
    simp [shift, setLhs, setRhs, refresh, assignFlag, RowFlags.assign, RowFlags.unset, sidesAgree,
      swap]

/-- Entries are removed in any order. -/
theorem setCoeff_zero_comm (j k : Nat) (r : Row Rat) :
    (r.setCoeff j 0).setCoeff k 0 = (r.setCoeff k 0).setCoeff j 0 := by
  have removed (i : Nat) (r : Row Rat) :
      r.setCoeff i 0 = { r with coeffs := Keyed.drop i r.coeffs } := rfl
  rw [removed, removed, removed, removed]
  unfold Keyed.drop
  rw [List.filter_filter, List.filter_filter]
  simp only [Bool.and_comm]

/-- **Values of two columns may be put in in either order.** -/
theorem putIn_comm {j k : Nat} (ne : j ≠ k) (x y : Rat) (r : Row Rat) :
    (r.putIn j x).putIn k y = (r.putIn k y).putIn j x := by
  have left := coeff?_putIn_of_ne ne.symm x r
  have right := coeff?_putIn_of_ne ne y r
  cases entry : r.coeff? j with
  | none =>
    have same (r' : Row Rat) (absent : r'.coeff? j = none) : r'.putIn j x = r' := by
      unfold putIn
      rw [absent]
    rw [same r entry, same _ (right.trans entry)]
  | some a =>
    cases entry' : r.coeff? k with
    | none =>
      have same (r' : Row Rat) (absent : r'.coeff? k = none) : r'.putIn k y = r' := by
        unfold putIn
        rw [absent]
      rw [same r entry', same _ (left.trans entry')]
    | some b =>
      have first (r' : Row Rat) (present : r'.coeff? j = some a) :
          r'.putIn j x = (r'.shift (a * x)).setCoeff j 0 := by
        unfold putIn
        rw [present]
      have second (r' : Row Rat) (present : r'.coeff? k = some b) :
          r'.putIn k y = (r'.shift (b * y)).setCoeff k 0 := by
        unfold putIn
        rw [present]
      rw [second _ (left.trans entry'), first _ (right.trans entry), first r entry,
        second r entry', shift_setCoeff, shift_setCoeff, shift_comm, setCoeff_zero_comm]

/-- A value passes by the fixed columns, as long as it is the one of its own column. -/
theorem putFixed_putIn {columns : List (Column Rat × Nat)} {j : Nat} {x : Rat}
    (own : ∀ e ∈ columns, e.1.flags.fixed = true → e.2 = j → e.1.lower = x) (r : Row Rat) :
    (r.putIn j x).putFixed columns = (r.putFixed columns).putIn j x := by
  induction columns generalizing r with
  | nil => rfl
  | cons e columns ih =>
    obtain ⟨first, rest⟩ := List.forall_mem_cons.1 own
    rw [putFixed_cons, putFixed_cons, ← ih rest]
    split
    · rename_i fixed
      by_cases here : e.2 = j
      · rw [here, first fixed here]
      · rw [putIn_comm (Ne.symm here)]
    · rfl

/-- **The value of a fixed column may be put in beforehand.** -/
theorem putFixed_putIn_of_mem {columns : List (Column Rat × Nat)} {c : Column Rat} {j : Nat}
    (mem : (c, j) ∈ columns) (fixed : c.flags.fixed = true)
    (own : ∀ e ∈ columns, e.1.flags.fixed = true → e.2 = j → e.1.lower = c.lower) (r : Row Rat) :
    (r.putIn j c.lower).putFixed columns = r.putFixed columns := by
  have absent : (r.putFixed columns).coeff? j = none := by
    refine List.lookup_eq_none_iff.2 fun e entry => ?_
    rw [bne_iff_ne]
    exact (mem_putFixed entry).2 (c, j) mem fixed
  rw [putFixed_putIn own]
  unfold putIn
  rw [absent]

/-- The costs of the columns do not matter to the rows. -/
theorem putFixed_setCost (columns : List (Column Rat)) (j n : Nat) (x : Rat) (r : Row Rat) :
    r.putFixed ((columns.modify j (Column.setCost x)).zipIdx n) =
      r.putFixed (columns.zipIdx n) := by
  induction columns generalizing j n r with
  | nil => rw [List.modify_nil]
  | cons c columns ih =>
    cases j with
    | zero => rfl
    | succ j =>
      rw [List.modify_succ_cons, List.zipIdx_cons, List.zipIdx_cons, putFixed_cons, putFixed_cons,
        ih]

end Row

/-! ### Columns -/

namespace Column

/-- The column with its single value, marked as fixed. -/
def pin (c : Column Rat) : Column Rat :=
  (c.collapse (Reduction.singleValue c)).assignFlag .fixed true

/-- A fixed column whose cost is gone contributes nothing any more. -/
theorem fixedTotal_modify {columns : List (Column Rat)} {j : Nat} {c : Column Rat}
    (place : columns[j]? = some c) (fixed : c.flags.fixed = true) :
    c.cost * c.lower + fixedTotal (columns.modify j (Column.setCost 0)) = fixedTotal columns := by
  induction columns generalizing j with
  | nil => cases place
  | cons d columns ih =>
    cases j with
    | zero =>
      obtain rfl : d = c := Option.some.inj place
      have gone : (d.setCost 0).cost = 0 := rfl
      have still : (d.setCost 0).flags.fixed = true := fixed
      rw [List.modify_zero_cons, fixedTotal, fixedTotal, if_pos still, if_pos fixed, gone]
      grind
    | succ j =>
      have rest := ih place
      rw [List.modify_succ_cons, fixedTotal, fixedTotal, ← rest]
      grind

end Column

/-! ### Programs -/

namespace Problem

/-- The program in which the columns at the given places are pinned, and nothing else is changed. -/
def pin (js : List Nat) (p : Problem Rat) : Problem Rat :=
  { p with columns := p.columns.mapIdx fun j c => if j ∈ js then c.pin else c }

variable {p : Problem Rat}

/-- Fixing columns at their values keeps a program canonical. -/
theorem canonical_pin (h : p.Canonical) (js : List Nat) : (p.pin js).Canonical :=
  ⟨h.rows, h.surplus⟩

/-- Putting in the value of a fixed column leaves nothing to be done for it. -/
theorem substituteFixed_substitute (canonical : p.Canonical) {j : Nat} {c : Column Rat}
    (place : p.columns[j]? = some c) (fixed : c.flags.fixed = true) :
    (p.substitute j c.lower).substituteFixed = p.substituteFixed := by
  -- The second time, the cost of the column is zero, and so is its coefficient in every row.
  have offset : p.offset + c.cost * c.lower +
      Column.fixedTotal (p.columns.modify j (Column.setCost 0)) =
        p.offset + Column.fixedTotal p.columns := by
    rw [Rat.add_assoc, Column.fixedTotal_modify place fixed]
  have columns : (p.columns.modify j (Column.setCost 0)).map Column.settled =
      p.columns.map Column.settled := by
    refine map_modify_eq fun d found => ?_
    obtain rfl := Option.some.inj (place.symm.trans found)
    have still : (c.setCost 0).flags.fixed = true := fixed
    unfold Column.settled
    rw [if_pos still, if_pos fixed]
    rfl
  have own : ∀ e ∈ p.columns.zipIdx, e.1.flags.fixed = true → e.2 = j → e.1.lower = c.lower := by
    rintro ⟨d, k⟩ mem - rfl
    rw [List.mem_zipIdx_iff_getElem?] at mem
    rw [Option.some.inj (mem.symm.trans place)]
  have rows : (p.rows.map (Row.putIn j c.lower)).map
      (Row.putFixed (p.columns.modify j (Column.setCost 0)).zipIdx) =
        p.rows.map (Row.putFixed p.columns.zipIdx) := by
    rw [List.map_map]
    refine List.map_congr_left fun r _ => ?_
    rw [Function.comp, Row.putFixed_setCost]
    exact Row.putFixed_putIn_of_mem (List.mem_zipIdx_iff_getElem?.2 place) fixed own r
  have surplus : (p.substitute j c.lower).surplus = {} := by
    rw [substitute_eq canonical.surplus place]
    exact canonical.surplus
  rw [substituteFixed_eq surplus, substituteFixed_eq canonical.surplus,
    substitute_eq canonical.surplus place]
  dsimp only
  rw [offset, columns, rows]

/-- **It does not matter whether the value of a fixed column is put in before compressing.** -/
theorem compress_substitute (canonical : p.Canonical) {j : Nat} {c : Column Rat}
    (place : p.columns[j]? = some c) (fixed : c.flags.fixed = true) :
    (p.substitute j c.lower).compress = p.compress := by
  have maps : (p.substitute j c.lower).indexMaps = p.indexMaps := by
    unfold indexMaps
    rw [substitute_eq canonical.surplus place]
    dsimp only
    rw [List.map_map]
    congr 2
    · exact List.map_congr_left fun r _ => congrArg (! ·) (Row.isRedundant_putIn ..)
    · exact map_modify_eq fun _ _ => rfl
  unfold compress
  dsimp only
  rw [maps, substituteFixed_substitute canonical place fixed]

/-- Taking one more column out is pinning it and putting in its value. -/
theorem pin_eliminate (canonical : p.Canonical) {j : Nat} {js : List Nat} (new : j ∉ js)
    {c : Column Rat} (place : p.columns[j]? = some c) :
    (p.pin (j :: js)).columns[j]? = some c.pin ∧
      (p.eliminate j).pin js = (p.pin (j :: js)).substitute j c.pin.lower := by
  have pinned : (p.pin (j :: js)).columns[j]? = some c.pin := by
    unfold pin
    rw [List.getElem?_mapIdx, place]
    exact congrArg some (if_pos (List.mem_cons_self ..))
  refine ⟨pinned, ?_⟩
  have surplus : (p.pin (j :: js)).surplus = {} := canonical.surplus
  rw [substitute_eq surplus pinned]
  unfold eliminate
  rw [place]
  refine congrArg (fun columns => Problem.mk _ _ _ columns _ _) (List.ext_getElem? fun k => ?_)
  by_cases here : j = k
  · subst here
    rw [List.getElem?_modify_eq, pinned, List.getElem?_mapIdx, List.getElem?_modify_eq, place]
    exact congrArg some (if_neg new)
  · have member : k ∈ j :: js ↔ k ∈ js := by simp [Ne.symm here]
    rw [List.getElem?_modify_ne _ _ here, List.getElem?_mapIdx, List.getElem?_modify_ne _ _ here]
    unfold pin
    rw [List.getElem?_mapIdx]
    simp only [member]

/-- A place beyond the columns does not count. -/
theorem pin_of_none {j : Nat} (none : p.columns[j]? = none) (js : List Nat) :
    p.pin (j :: js) = p.pin js := by
  refine congrArg (fun columns => { p with columns := columns }) (List.ext_getElem? fun k => ?_)
  rw [List.getElem?_mapIdx, List.getElem?_mapIdx]
  by_cases here : j = k
  · rw [← here, none]
    rfl
  · have member : k ∈ j :: js ↔ k ∈ js := by simp [Ne.symm here]
    simp only [member]

/-- Eliminating a column keeps a program canonical. -/
theorem canonical_eliminate (h : p.Canonical) (j : Nat) : (p.eliminate j).Canonical := by
  unfold eliminate
  split
  · exact h
  · refine ⟨fun r' mem => ?_, h.surplus⟩
    obtain ⟨r, before, rfl⟩ := List.mem_map.1 mem
    exact (h.rows r before).putIn j _

/-- **Taking columns out one after the other and compressing is pinning them and compressing.**  The
induction is on the columns; the value of the first one is put in after the others are pinned. -/
theorem compress_foldl_eliminate (canonical : p.Canonical) {js : List Nat} (distinct : js.Nodup) :
    (js.foldl (fun p j => p.eliminate j) p).compress = (p.pin js).compress := by
  induction js generalizing p with
  | nil =>
    have same : p.pin [] = p := by
      refine congrArg (fun columns => { p with columns := columns }) (List.ext_getElem? fun k => ?_)
      rw [List.getElem?_mapIdx]
      exact Option.map_id'
    rw [same]
    rfl
  | cons j js ih =>
    obtain ⟨new, distinct⟩ := List.nodup_cons.1 distinct
    rw [List.foldl_cons, ih (canonical_eliminate canonical j) distinct]
    cases place : p.columns[j]? with
    | none =>
      have nothing : p.eliminate j = p := by
        unfold eliminate
        rw [place]
      rw [nothing, pin_of_none place]
    | some c =>
      obtain ⟨pinned, eliminated⟩ := pin_eliminate canonical new place
      rw [eliminated]
      exact compress_substitute (canonical_pin canonical _) pinned rfl

end Problem

/-! ### Drafts -/

/-- Changing units one after the other in a draft does to the instance that it stands for what
changing them at once does. -/
theorem Reduction.Buffers.settled_foldl {α υ : Type} [Scalar α] {r : Reduction α υ}
    {q : DirectReduction α υ} {touches : υ → Nat × Nat → Prop} (h : r.Buffers q touches)
    (solution : Solution α) {us : List υ} (distinct : us.Nodup) {d : Draft α}
    (sound : d.Sound touches) (fresh : ∀ u ∈ us, d.Fresh touches u) :
    (us.foldl (fun d u => r.apply u d) d).settled solution =
      us.foldl (fun x u => q.apply u x) (d.settled solution) := by
  induction us generalizing d with
  | nil => rfl
  | cons u us ih =>
    obtain ⟨once, distinct⟩ := List.nodup_cons.1 distinct
    obtain ⟨first, rest⟩ := List.forall_mem_cons.1 fresh
    rw [List.foldl_cons, List.foldl_cons, ← h.apply solution sound first]
    refine ih distinct (h.sound u sound) fun v mem => h.fresh (rest v mem) ?_
    rintro rfl
    exact once mem

namespace Problem

/-- **Fixing columns and compressing is pinning them and compressing**: it gives the same program
and the same index maps, in whatever order the columns are fixed, and for all columns of a draft,
be they admissible or not. -/
theorem compress_fixing (s : Scope Rat) {i : Instance Rat} (canonical : i.problem.Canonical)
    {js : List Nat} (distinct : js.Nodup) :
    let d := js.foldl (fun d j => (Reduction.fixing s).apply j d) (Draft.ofInstance i)
    d.flush.problem.compress = (i.problem.pin js).compress := by
  intro d
  have idle : (Draft.ofInstance i).pending = [] := rfl
  have settled := (Reduction.buffers_fixing s).settled_foldl i.solution distinct
    (Draft.sound_of_pending_eq_nil canonical idle)
    fun j _ => Draft.fresh_of_pending_eq_nil idle j
  have problem : d.flush.problem = js.foldl (fun p j => p.eliminate j) i.problem := by
    refine (congrArg Instance.problem settled).trans ?_
    exact (List.foldl_hom Instance.problem fun _ _ => rfl).symm
  rw [problem]
  exact compress_foldl_eliminate canonical distinct

/-- Two columns with single values up to the tolerance, the first one integral, in an equation, in a
redundant row and in another row. -/
def paired : Problem Rat :=
  { name := "paired", sense := .minimize, offset := 1
    columns :=
      [{ name := "x", cost := 3, lower := 199997 / 100000, upper := 2
         flags := { integral := true } },
        { name := "y", cost := -1, lower := 1 / 2, upper := 1 / 2, flags := {} },
        { name := "z", cost := 1, lower := 0, upper := 4, flags := {} }]
    rows :=
      [{ name := "r", coeffs := [(0, 4), (1, 2), (2, 1)], lhs := 10, rhs := 10
         flags := { equation := true } },
        { name := "s", coeffs := [(0, 1), (1, -1)], lhs := 0, rhs := 0
          flags := { rhsInf := true, redundant := true } },
        { name := "t", coeffs := [(1, 1), (2, 3)], lhs := 0, rhs := 5
          flags := { lhsInf := true } }] }

/-- Fixed from the second column to the first, with five coefficients that wait for the flush, they
leave the same program as pinned: the equation and the last row in one column. -/
theorem compress_fixing_paired :
    let i : Instance Rat := { settings := {}, problem := paired, solution := .unknown }
    let fixing := Reduction.fixing (Scope.ofRun .standard i)
    let d := [1, 0].foldl (fun d j => fixing.apply j d) (Draft.ofInstance i)
    let c := d.flush.problem.compress
    [1, 0].all (fixing.admissible paired (Draft.ofInstance i)) = true ∧ d.pending.length = 5 ∧
      c.2 = { rows := [some 0, none, some 1], cols := [none, none, some 0] } ∧
      c.1.offset = 13 / 2 ∧ c.1.rows.map Row.lhs? = [some 1, none] ∧
      c.1.rows.map Row.rhs? = [some 1, some (9 / 2)] ∧ [1, 0].Nodup ∧
      c = (paired.pin [1, 0]).compress := by
  intro i fixing d c
  have canonical : paired.Canonical := by decide +kernel
  have distinct : [1, 0].Nodup := by decide
  exact ⟨by decide +kernel, by decide +kernel, by decide +kernel, by decide +kernel,
    by decide +kernel, by decide +kernel, distinct,
    compress_fixing (Scope.ofRun .standard i) (i := i) canonical distinct⟩

end Problem
end MipShrink
