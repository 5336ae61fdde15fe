/-
# Locks

A row *blocks* a column in a direction if from every point that satisfies the row some step of this
column alone leads to a point that violates it, and the row leaves the column *free* if no step from
such a point ever does.  A row that has a coefficient of the column and sides in order does exactly
one of the two, and the locks of a column are the numbers of the rows that block it
(`Problem.locks_eq_countP_blocks`).

When a column moves, the activity of a row moves by the coefficient times the step, so that one of
the two sides lies ahead and the other one behind (`Row.ahead`).  The side ahead is passed sooner or
later, if it is finite, and nothing is passed if it is not.
-/

import MipShrink.Proofs.Problem.ImpliedSides
import MipShrink.Proofs.Throughout.Consistency
import MipShrink.Proofs.Throughout.Feasibility

namespace MipShrink

/-- A positive slope leads to every positive number. -/
theorem exists_pos_mul_eq {slope v : Rat} (rising : 0 < slope) (above : 0 < v) :
    ∃ t, 0 < t ∧ slope * t = v := by
  have positive : 0 < v / slope := by
    rw [Rat.div_def]
    exact Rat.mul_pos above (Rat.inv_pos.2 rising)
  exact ⟨v / slope, positive, by grind⟩

/-- A way in which a column can be moved. -/
inductive Direction where
  | up
  | down
deriving DecidableEq, Repr

/-- The step by an amount in a direction. -/
def Direction.step (t : Rat) : Direction → Rat
  | up => t
  | down => -t

/-- The locks of a column in a direction. -/
def Locks.toward (l : Locks) : Direction → Nat
  | .up => l.up
  | .down => l.down

/-- The point with the value of one column moved. -/
def moved (j : Nat) (s : Rat) (x : List Rat) : List Rat :=
  x.set j (x.getD j 0 + s)

namespace Row

/-- Every point that satisfies the row violates it after some step of the column. -/
def Blocks (n j : Nat) (d : Direction) (r : Row Rat) : Prop :=
  ∀ x : List Rat, x.length = n → r.SolvedBy x →
    ∃ t, 0 < t ∧ ¬r.SolvedBy (moved j (d.step t) x)

/-- No point that satisfies the row violates it after a step of the column. -/
def Frees (n j : Nat) (d : Direction) (r : Row Rat) : Prop :=
  ∀ x : List Rat, x.length = n → r.SolvedBy x →
    ∀ t, 0 < t → r.SolvedBy (moved j (d.step t) x)

/-- The row counts and has a coefficient of the column. -/
def Bears (j : Nat) (r : Row Rat) : Prop :=
  r.isRedundant = false ∧ (r.coeff? j).isSome = true

/-- The side that an activity moves toward, by the sign of its slope. -/
def ahead (slope : Rat) (r : Row Rat) : Option Rat :=
  if 0 < slope then r.rhs? else r.lhs?

variable {r : Row Rat} {n j : Nat} {d : Direction} {a : Rat} {x : List Rat}

/-- A canonical row shows no zero. -/
theorem Canonical.nonzero_of_coeff? (h : r.Canonical) (entry : r.coeff? j = some a) : a ≠ 0 :=
  h.proper.nonzero _ (h.coeff?_eq_some_iff.1 entry)

/-- **The activity moves by what the step of the column is worth.** -/
theorem activity_moved (canonical : r.Canonical) (inside : j < x.length) (s : Rat) :
    r.activity (moved j s x) = r.activity x + r.worth j s := by
  -- without the column, both points have the same activity
  have rest : (r.putIn j 0).activity (moved j s x) = (r.putIn j 0).activity x := by
    rw [activity_eq_dot, activity_eq_dot]
    exact dot_set (fun e mem => (mem_putIn mem).2) x _
  have value : (moved j s x).getD j 0 = x.getD j 0 + s := by
    unfold moved
    rw [List.getD_eq_getElem?_getD, List.getElem?_set_self inside, Option.getD_some]
  rw [activity_putIn canonical, activity_putIn canonical, value] at rest
  have added : r.worth j (x.getD j 0 + s) = r.worth j (x.getD j 0) + r.worth j s := by
    unfold worth
    cases r.coeff? j with
    | none => exact (Rat.add_zero 0).symm
    | some a => exact Rat.mul_add ..
  grind

/-- A step along a column moves the activity by its coefficient. -/
theorem activity_moved_of_coeff? (canonical : r.Canonical) (entry : r.coeff? j = some a)
    (inside : j < x.length) (t : Rat) :
    r.activity (moved j (d.step t) x) = r.activity x + d.step a * t := by
  have worth : r.worth j (d.step t) = a * d.step t := by
    unfold Row.worth
    rw [entry]
    rfl
  rw [activity_moved canonical inside, worth]
  cases d with
  | up => rfl
  | down =>
    show r.activity x + a * -t = r.activity x + -a * t
    grind

/-- A row without coefficient of the column is left as it is. -/
theorem frees_of_coeff?_eq_none (canonical : r.Canonical) (inside : j < n)
    (absent : r.coeff? j = none) : r.Frees n j d := by
  intro x complete solved t _
  have same : r.activity (moved j (d.step t) x) = r.activity x := by
    have worth : r.worth j (d.step t) = 0 := by
      unfold Row.worth
      rw [absent]
      rfl
    rw [activity_moved canonical (complete ▸ inside), worth, Rat.add_zero]
  exact ⟨same ▸ solved.lhs, same ▸ solved.rhs⟩

/-- A finite side ahead is passed. -/
theorem blocks_of_ahead (canonical : r.Canonical) (inside : j < n) (entry : r.coeff? j = some a)
    (nonzero : d.step a ≠ 0) {b : Rat} (finite : r.ahead (d.step a) = some b) :
    r.Blocks n j d := by
  intro x complete solved
  have activity := activity_moved_of_coeff? (d := d) canonical entry (complete ▸ inside)
  generalize d.step a = slope at nonzero finite activity
  unfold ahead at finite
  split at finite
  · rename_i rising
    have below := solved.rhs b finite
    obtain ⟨t, positive, reached⟩ : ∃ t, 0 < t ∧ slope * t = b - r.activity x + 1 :=
      exists_pos_mul_eq rising (by grind)
    refine ⟨t, positive, fun solved' => ?_⟩
    have still := solved'.rhs b finite
    rw [activity, reached] at still
    grind
  · rename_i notRising
    have above := solved.lhs b finite
    obtain ⟨t, positive, reached⟩ : ∃ t, 0 < t ∧ -slope * t = r.activity x - b + 1 :=
      exists_pos_mul_eq (by grind) (by grind)
    refine ⟨t, positive, fun solved' => ?_⟩
    have still := solved'.lhs b finite
    rw [activity] at still
    grind

/-- Without a side ahead nothing is passed. -/
theorem frees_of_ahead_eq_none (canonical : r.Canonical) (inside : j < n)
    (entry : r.coeff? j = some a) (infinite : r.ahead (d.step a) = none) : r.Frees n j d := by
  intro x complete solved t positive
  have activity := activity_moved_of_coeff? (d := d) canonical entry (complete ▸ inside) t
  generalize d.step a = slope at infinite activity
  unfold ahead at infinite
  split at infinite
  · rename_i rising
    have gain : 0 < slope * t := Rat.mul_pos rising positive
    refine ⟨fun l left => ?_, fun u right => ?_⟩
    · have above := solved.lhs l left
      grind
    · rw [infinite] at right
      exact absurd right (Option.not_mem_none u)
  · rename_i notRising
    have loss : 0 ≤ -slope * t := Rat.mul_nonneg (by grind) (Rat.le_of_lt positive)
    refine ⟨fun l left => ?_, fun u right => ?_⟩
    · rw [infinite] at left
      exact absurd left (Option.not_mem_none l)
    · have below := solved.rhs u right
      grind

/-- A row that has a coefficient can be given any activity. -/
theorem exists_activity_eq (canonical : r.Canonical) (inside : j < n) (entry : r.coeff? j = some a)
    (nonzero : a ≠ 0) (v : Rat) : ∃ x : List Rat, x.length = n ∧ r.activity x = v := by
  let origin := List.replicate n (0 : Rat)
  have complete : origin.length = n := List.length_replicate
  let t := (v - r.activity origin) / a
  refine ⟨moved j (Direction.up.step t) origin, (List.length_set ..).trans complete, ?_⟩
  have reached : a * t = v - r.activity origin := by grind
  have slope : Direction.up.step a = a := rfl
  rw [activity_moved_of_coeff? canonical entry (complete ▸ inside), slope, reached]
  grind

/-- A row that has a coefficient is satisfied somewhere, if its sides are in order. -/
theorem Consistent.exists_solvedBy (ordered : r.Consistent) (canonical : r.Canonical)
    (inside : j < n) (entry : r.coeff? j = some a) (nonzero : a ≠ 0) :
    ∃ x : List Rat, x.length = n ∧ r.SolvedBy x := by
  obtain ⟨v, lhs, rhs⟩ := Ordered.exists_between ordered
  obtain ⟨x, complete, rfl⟩ := exists_activity_eq canonical inside entry nonzero v
  exact ⟨x, complete, lhs, rhs⟩

/-- No row does both, because a step that is blocked starts somewhere. -/
theorem not_blocks_of_frees {x : List Rat} (complete : x.length = n) (solved : r.SolvedBy x)
    (frees : r.Frees n j d) : ¬r.Blocks n j d := by
  intro blocks
  obtain ⟨t, positive, violated⟩ := blocks x complete solved
  exact violated (frees x complete solved t positive)

/-- **A row blocks a column exactly if the side ahead is finite**, and leaves it free otherwise. -/
theorem blocks_iff (canonical : r.Canonical) (ordered : r.Consistent) (inside : j < n)
    (entry : r.coeff? j = some a) :
    (r.Blocks n j d ↔ (r.ahead (d.step a)).isSome = true) ∧ (r.Blocks n j d ↔ ¬r.Frees n j d) := by
  have nonzero := canonical.nonzero_of_coeff? entry
  have slope : d.step a ≠ 0 := by
    cases d with
    | up => exact nonzero
    | down =>
      show -a ≠ 0
      grind
  obtain ⟨x, complete, solved⟩ := ordered.exists_solvedBy canonical inside entry nonzero
  cases side : r.ahead (d.step a) with
  | some b =>
    have blocks := blocks_of_ahead canonical inside entry slope side
    exact ⟨iff_of_true blocks rfl,
      iff_of_true blocks fun frees => not_blocks_of_frees complete solved frees blocks⟩
  | none =>
    have frees := frees_of_ahead_eq_none canonical inside entry side
    have free := not_blocks_of_frees complete solved frees
    exact ⟨iff_of_false free Bool.false_ne_true, iff_of_false free (not_not_intro frees)⟩

end Row

namespace Problem

open Row

variable {p : Problem Rat}

/-- What is counted for a direction. -/
def lockTest (row : Row Rat) (a : Rat) : Direction → Bool
  | .up => locksUp row a
  | .down => locksDown row a

/-- The test looks whether the side ahead is finite. -/
theorem lockTest_eq {row : Row Rat} {a : Rat} (nonzero : a ≠ 0) (d : Direction) :
    lockTest row a d = (row.ahead (d.step a)).isSome := by
  have positive : Scalar.isPositive a = decide (0 < a) := rfl
  have lhs : (!row.flags.lhsInf) = row.lhs?.isSome := by
    unfold lhs?
    cases row.flags.lhsInf <;> rfl
  have rhs : (!row.flags.rhsInf) = row.rhs?.isSome := by
    unfold rhs?
    cases row.flags.rhsInf <;> rfl
  unfold ahead
  cases d with
  | up =>
    show locksUp row a = (if 0 < a then row.rhs? else row.lhs?).isSome
    unfold locksUp
    rw [positive, lhs, rhs]
    by_cases rising : 0 < a <;> simp [rising]
  | down =>
    show locksDown row a = (if 0 < -a then row.rhs? else row.lhs?).isSome
    unfold locksDown
    rw [positive, lhs, rhs]
    by_cases rising : 0 < a
    · have falling : ¬0 < -a := by grind
      simp [rising, falling]
    · have falling : 0 < -a := by grind
      simp [rising, falling]

/-- The locks of a column, counted over all rows. -/
theorem toward_columnLocks (canonical : p.Canonical) (j : Nat) (d : Direction) :
    (p.columnLocks j).toward d = p.rows.countP fun r =>
      ((r.coeff? j).map fun a => !r.isRedundant && lockTest r a d).getD false := by
  have column : p.columnRows j = p.rows.filterMap fun r => (r.coeff? j).map fun a => (r, a) := by
    unfold columnRows
    rw [canonical.surplus]
  have count (test : Row Rat → Rat → Bool) :
      ((p.columnRows j).countP fun e => !e.1.isRedundant && test e.1 e.2) =
        p.rows.countP fun r =>
          ((r.coeff? j).map fun a => !r.isRedundant && test r a).getD false := by
    rw [column, List.countP_filterMap]
    simp only [Option.map_map]
    rfl
  cases d with
  | up => exact count locksUp
  | down => exact count locksDown

open Classical in
/-- **Locks count the rows that block a column.**  In both directions every row that counts and has
a coefficient of the column either blocks it or leaves it free; the locks are the number of those
that block it; and a row without coefficient leaves it free. -/
theorem locks_eq_countP_blocks (canonical : p.Canonical) (ordered : ∀ r ∈ p.rows, r.Consistent) :
    p.locks.length = p.ncols ∧ ∀ j l, p.locks[j]? = some l → ∀ d : Direction,
      (∀ r ∈ p.rows, r.Bears j → (r.Blocks p.ncols j d ↔ ¬r.Frees p.ncols j d)) ∧
      l.toward d = p.rows.countP (fun r => r.Bears j ∧ r.Blocks p.ncols j d) ∧
      ∀ r ∈ p.rows, r.coeff? j = none → r.Frees p.ncols j d := by
  refine ⟨(List.length_map _).trans List.length_range, fun j l place d => ?_⟩
  unfold locks at place
  rw [List.getElem?_map] at place
  obtain ⟨j', within, rfl⟩ := Option.map_eq_some_iff.1 place
  obtain ⟨inside, rfl⟩ := List.getElem?_eq_some_iff.1 within
  rw [List.length_range] at inside
  rw [List.getElem_range]
  refine ⟨fun r mem ⟨_, bears⟩ => ?_, ?_, fun r mem absent => ?_⟩
  · obtain ⟨a, entry⟩ := Option.isSome_iff_exists.1 bears
    exact (blocks_iff (canonical.rows r mem) (ordered r mem) inside entry).2
  · rw [toward_columnLocks canonical]
    refine List.countP_congr fun r mem => ?_
    rw [decide_eq_true_iff, Bears]
    cases entry : r.coeff? j with
    | none => simp
    | some a =>
      have row := canonical.rows r mem
      have blocks := (blocks_iff (d := d) row (ordered r mem) inside entry).1
      rw [blocks, ← lockTest_eq (row.nonzero_of_coeff? entry)]
      simp
  · exact frees_of_coeff?_eq_none (canonical.rows r mem) inside absent

/-- An equation, a row with a left-hand side and a negative coefficient, a redundant row, a row
without coefficient of the first column, and one without sides. -/
def propped : Problem Rat :=
  { name := "propped", sense := .minimize, offset := 0
    columns :=
      [{ name := "x", cost := 1, lower := 0, upper := 0, flags := { ubInf := true } },
        { name := "y", cost := 1, lower := 0, upper := 0, flags := { ubInf := true } }]
    rows :=
      [{ name := "e", coeffs := [(0, 2), (1, 1)], lhs := 3, rhs := 3
         flags := { equation := true } },
        { name := "g", coeffs := [(0, -1)], lhs := -4, rhs := 0, flags := { rhsInf := true } },
        { name := "r", coeffs := [(0, 1)], lhs := 0, rhs := 1
          flags := { lhsInf := true, redundant := true } },
        { name := "l", coeffs := [(1, 1)], lhs := 0, rhs := 5, flags := { lhsInf := true } },
        { name := "f", coeffs := [(0, 1)], lhs := 0, rhs := 0
          flags := { lhsInf := true, rhsInf := true } }] }

open Classical in
/-- The equation blocks the first column in both directions, the second row only upward. -/
theorem locks_eq_countP_blocks_propped :
    propped.Canonical ∧ (∀ r ∈ propped.rows, r.Consistent) ∧ propped.locks = [⟨2, 1⟩, ⟨2, 1⟩] ∧
      (propped.rows.countP fun r => r.Bears 0 ∧ r.Blocks 2 0 .up) = 2 ∧
      (propped.rows.countP fun r => r.Bears 0 ∧ r.Blocks 2 0 .down) = 1 := by
  have canonical : propped.Canonical := by decide +kernel
  have ordered : ∀ r ∈ propped.rows, r.Consistent := by decide +kernel
  have locks : propped.locks = [⟨2, 1⟩, ⟨2, 1⟩] := by decide +kernel
  have first : propped.locks[0]? = some ⟨2, 1⟩ := by rw [locks]; rfl
  have counts (d : Direction) :=
    ((locks_eq_countP_blocks canonical ordered).2 0 ⟨2, 1⟩ first d).2.1
  exact ⟨canonical, ordered, locks, (counts .up).symm, (counts .down).symm⟩

end Problem
end MipShrink
