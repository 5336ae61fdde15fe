/-
# Look-ups that have to succeed

The functions of this library are total: a look-up of an item that is not there gives nothing, or
zero.  To say that no item is ever missed, the same work is done by *strict* functions, which stop
with a `Fault` at the first look-up that finds nothing, the first coefficient that is written
outside of the matrix, the first division by zero and the first list that overflows.

A loop whose body does not fault does not fault either (`Strict.follows_foldlM`), and a matrix of
which the coefficients are assembled (`Storage.Assembled`) is read without fault: by rows, by
columns, by position, and while changes are written into it.
-/

import MipShrink.Proofs.Problem.Storage

namespace MipShrink

/-- What would stop a run. -/
inductive Fault where
  /-- An item is looked up that is not there. -/
  | index (place length : Nat)
  /-- A part of a list is looked up whose bounds do not fit. -/
  | bounds (first last length : Nat)
  /-- A coefficient is written outside of the matrix. -/
  | outside
  /-- There are more modules than a run can hold. -/
  | modules (count : Nat)
  /-- Something is divided by zero. -/
  | division
  /-- There is no room for another item. -/
  | full (capacity : Nat)
deriving DecidableEq, Repr

variable {α β γ σ τ υ : Type}

namespace Strict

/-- The item at a place. -/
def get (k : Nat) (l : List β) : Except Fault β :=
  match l[k]? with
  | some x => .ok x
  | none => .error (.index k l.length)

/-- The part of a list from the first bound to the second one. -/
def part (first last : Nat) (l : List β) : Except Fault (List β) :=
  if first ≤ last ∧ last ≤ l.length then .ok (Sparse.slice (first, last) l)
  else .error (.bounds first last l.length)

/-- The quotient rounded up. -/
def divCeil (a b : Nat) : Except Fault Nat :=
  if b = 0 then .error .division else .ok ((a + b - 1) / b)

/-- The list with an item behind it, if there is room for it. -/
def push (capacity : Nat) (x : β) (l : List β) : Except Fault (List β) :=
  if l.length < capacity then .ok (l ++ [x]) else .error (.full capacity)

/-- An item that is there is found. -/
theorem get_eq_ok {k : Nat} {l : List β} {x : β} (found : l[k]? = some x) : get k l = .ok x := by
  unfold get
  rw [found]

/-- A part of a list that lies inside it is found. -/
theorem part_eq_ok {first last : Nat} {l : List β} (ordered : first ≤ last)
    (within : last ≤ l.length) : part first last l = .ok (Sparse.slice (first, last) l) :=
  if_pos ⟨ordered, within⟩

/-- Behind a result comes the rest. -/
theorem ok_bind (x : β) (f : β → Except Fault γ) : (Except.ok x >>= f) = f x := rfl

/-! ### Loops -/

/-- A list is mapped without fault if each item is. -/
theorem mapM_eq_ok {f : β → Except Fault γ} {g : β → γ} {l : List β}
    (each : ∀ x ∈ l, f x = .ok (g x)) : l.mapM f = .ok (l.map g) := by
  induction l with
  | nil => rfl
  | cons x l ih =>
    obtain ⟨first, rest⟩ := List.forall_mem_cons.1 each
    rw [List.mapM_cons, first, ok_bind, ih rest]
    rfl

/-- All items of a list are looked up by their places. -/
theorem mapM_range_eq_ok {f : Nat → Except Fault γ} {g : β → γ} {l : List β}
    (each : ∀ k x, l[k]? = some x → f k = .ok (g x)) :
    (List.range l.length).mapM f = .ok (l.map g) := by
  have items : l.zipIdx.map (fun e => g e.1) = l.map g := by
    calc l.zipIdx.map (fun e => g e.1)
        = (l.zipIdx.map Prod.fst).map g := by
          rw [List.map_map]
          rfl
      _ = l.map g := by rw [List.zipIdx_map_fst]
  rw [List.range_eq_range', ← List.zipIdx_map_snd, List.mapM_map, ← items]
  exact mapM_eq_ok fun e mem => each e.2 e.1 (List.mem_zipIdx_iff_getElem?.1 mem)

/-- A list is mapped without fault if each of its elements is. -/
theorem mapM_eq_filterMap {f : β → Except Fault γ} {g : β → Option γ} {l : List β}
    (each : ∀ x ∈ l, ∃ y, f x = .ok y ∧ g x = some y) : l.mapM f = .ok (l.filterMap g) := by
  induction l with
  | nil => rfl
  | cons x l ih =>
    obtain ⟨⟨y, strict, plain⟩, rest⟩ := List.forall_mem_cons.1 each
    rw [List.mapM_cons, strict, ok_bind, ih rest, List.filterMap_cons_some plain]
    rfl

/-- A list is filtered without fault if each of its elements is tested. -/
theorem filterM_eq_ok {f : β → Except Fault Bool} {g : β → Bool} {l : List β}
    (each : ∀ x ∈ l, f x = .ok (g x)) : l.filterM f = .ok (l.filter g) := by
  have gathered (acc : List β) : l.filterAuxM f acc = .ok ((l.filter g).reverse ++ acc) := by
    induction l generalizing acc with
    | nil => rfl
    | cons x l ih =>
      obtain ⟨first, rest⟩ := List.forall_mem_cons.1 each
      rw [List.filterAuxM, first, ok_bind, ih rest]
      cases kept : g x with
      | false => rw [List.filter_cons_of_neg (Bool.eq_false_iff.1 kept)]; rfl
      | true => rw [List.filter_cons_of_pos kept, List.reverse_cons, List.append_assoc]; rfl
  unfold List.filterM
  rw [gathered, ok_bind, List.append_nil, List.reverse_reverse]
  rfl

/-- Whether some element passes a test is found without fault if each of them is tested. -/
theorem anyM_eq_ok {f : β → Except Fault Bool} {g : β → Bool} {l : List β}
    (each : ∀ x ∈ l, f x = .ok (g x)) : l.anyM f = .ok (l.any g) := by
  induction l with
  | nil => rfl
  | cons x l ih =>
    obtain ⟨first, rest⟩ := List.forall_mem_cons.1 each
    rw [List.anyM_cons, first, ok_bind, ih rest, List.any_cons]
    cases g x <;> rfl

/-- Whether all elements pass a test is found without fault if each of them is tested. -/
theorem allM_eq_ok {f : β → Except Fault Bool} {g : β → Bool} {l : List β}
    (each : ∀ x ∈ l, f x = .ok (g x)) : l.allM f = .ok (l.all g) := by
  induction l with
  | nil => rfl
  | cons x l ih =>
    obtain ⟨first, rest⟩ := List.forall_mem_cons.1 each
    rw [List.allM_cons, first, ok_bind, ih rest, List.all_cons]
    cases g x <;> rfl

/-- **A strict loop follows a loop** if its body does, in states that are related. -/
theorem follows_foldlM {R : σ → τ → Prop} {f : σ → β → Except Fault σ} {g : τ → β → τ}
    {l : List β} (body : ∀ e ∈ l, ∀ s t, R s t → ∃ s', f s e = .ok s' ∧ R s' (g t e)) {s : σ}
    {t : τ} (h : R s t) : ∃ s', l.foldlM f s = .ok s' ∧ R s' (l.foldl g t) := by
  induction l generalizing s t with
  | nil => exact ⟨s, rfl, h⟩
  | cons e l ih =>
    obtain ⟨first, rest⟩ := List.forall_mem_cons.1 body
    obtain ⟨s', step, next⟩ := first s t h
    rw [List.foldlM_cons, step]
    exact ih rest next

/-- A list is walked without fault if each step is made. -/
theorem foldlM_eq_ok {f : σ → β → Except Fault σ} {g : σ → β → σ} {l : List β}
    (body : ∀ e ∈ l, ∀ s, f s e = .ok (g s e)) (s : σ) : l.foldlM f s = .ok (l.foldl g s) := by
  obtain ⟨s', done, rfl⟩ := follows_foldlM (R := Eq) (g := g) (l := l) (f := f)
    (fun e mem s t same => ⟨g s e, body e mem s, by rw [same]⟩) (rfl : s = s)
  exact done

end Strict

/-! ### Stored coefficients -/

namespace Sparse

/-- The entries of line `k`, with their places. -/
def readLine (k : Nat) (m : Sparse β) : Except Fault (List (Nat × β)) := do
  let first ← Strict.get k m.starts
  let last ← Strict.get (k + 1) m.starts
  let places ← Strict.part first last m.places
  let values ← Strict.part first last m.values
  return places.zip values

/-- **A stored line is read without fault.** -/
theorem readLine_ofLines {lines : List (List (Nat × β))} {k : Nat} (below : k < lines.length) :
    (ofLines lines).readLine k = .ok ((ofLines lines).line k) := by
  let before := lines.take k
  let after := lines.drop (k + 1)
  have split : before ++ lines[k] :: after = lines := by
    rw [← List.drop_eq_getElem_cons below, List.take_append_drop]
  have length : before.length = k := List.length_take_of_le (Nat.le_of_lt below)
  have first : (ofLines lines).starts[k]? = some before.flatten.length := by
    have found := getElem?_startsFrom 0 before (lines[k] :: after)
    rwa [split, length, Nat.zero_add] at found
  -- The line ends where the next one starts, or where all of them end.
  have last : (ofLines lines).starts[k + 1]? =
      some (before.flatten.length + lines[k].length) := by
    have found := getElem?_startsFrom 0 (before ++ [lines[k]]) after
    rwa [List.append_assoc, List.singleton_append, split, List.length_append, length,
      List.flatten_concat, List.length_append, Nat.zero_add] at found
  have whole : before.flatten.length + lines[k].length ≤ lines.flatten.length := by
    conv_rhs => rw [← split]
    rw [List.flatten_append, List.flatten_cons, List.length_append, List.length_append]
    omega
  have places : before.flatten.length + lines[k].length ≤ (ofLines lines).places.length :=
    whole.trans_eq (List.length_map ..).symm
  have values : before.flatten.length + lines[k].length ≤ (ofLines lines).values.length :=
    whole.trans_eq (List.length_map ..).symm
  have range : (ofLines lines).range k =
      (before.flatten.length, before.flatten.length + lines[k].length) := by
    have bounds := range_ofLines before after lines[k]
    rwa [split, length] at bounds
  unfold readLine line
  rw [Strict.get_eq_ok first, Strict.ok_bind, Strict.get_eq_ok last, Strict.ok_bind,
    Strict.part_eq_ok (Nat.le_add_right ..) places, Strict.ok_bind,
    Strict.part_eq_ok (Nat.le_add_right ..) values, range]
  rfl

/-- Each line that is stored is read without fault. -/
theorem Stores.readLine {n : Nat} {triplets : List ((Nat × Nat) × β)} {m : Sparse β}
    (h : m.Stores n triplets) {k : Nat} (below : k < n) : m.readLine k = .ok (m.line k) := by
  obtain ⟨lines, rfl, rfl, -⟩ := h
  exact readLine_ofLines below

end Sparse

namespace Storage

/-- The coefficients of row `i` with their columns. -/
def readRow (i : Nat) (m : Storage α) : Except Fault (List (Nat × α)) :=
  m.coefficients.readLine i

/-- The coefficients of column `j` with their rows. -/
def readColumn (j : Nat) (m : Storage α) : Except Fault (List (Nat × α)) := do
  (← m.transpose.readLine j).mapM fun e => do
    return (e.1, ← Strict.get e.2 m.coefficients.values)

/-- The coefficient at a position, if it is stored. -/
def readCoeff (i j : Nat) (m : Storage α) : Except Fault (Option α) := do
  let line ← m.readRow i
  match bisect (line.map Prod.fst) j 0 (line.map Prod.fst).length with
  | none => return none
  | some k => return some (← Strict.get k (line.map Prod.snd))

/-- Write changes, if there are any, among the coefficients of all rows, and store them anew.  Every
coefficient has to belong to the matrix, whether it is new or not. -/
def rewrite [Scalar α] (v : Conversion α) (c : Changes α) (m : Storage α) :
    Except Fault (Storage α) := do
  if c.isEmpty then return m
  let _ ← (List.range m.nrows).mapM fun i => m.readRow i
  let entries := c.foldl (fun l e => Keyed.put Keyed.positionBefore e.1 e.2 l) m.entries
  if entries.all fun e => m.covers e.1 then return assemble v m.nrows m.ncols entries
  else throw .outside

namespace Assembled

variable {nrows ncols : Nat} {map : Changes α} {m : Storage α}

/-- Each row that is stored is read without fault. -/
theorem readRow (h : m.Assembled nrows ncols map) {i : Nat} (below : i < nrows) :
    m.readRow i = .ok (m.row i) :=
  h.coefficients.readLine below

/-- A column finds all its values among those of the rows. -/
theorem readColumn (h : m.Assembled nrows ncols map) {j : Nat} (below : j < ncols) :
    m.readColumn j = .ok (m.column j) := by
  unfold Storage.readColumn column
  rw [h.transpose.readLine below, Strict.ok_bind]
  refine Strict.mapM_eq_filterMap fun e mem => ?_
  obtain ⟨a, value, -⟩ := h.value_of_mem below mem
  refine ⟨(e.1, a), ?_, ?_⟩
  · rw [Strict.get_eq_ok value]
    rfl
  · rw [value]
    rfl

/-- What bisection finds is a place of the row. -/
theorem readCoeff (h : m.Assembled nrows ncols map) {i : Nat} (below : i < nrows) (j : Nat) :
    m.readCoeff i j = .ok (m.coeff? i j) := by
  have sorted : Keyed.Sorted Keyed.natBefore (m.row i) := (h.coefficients.line below).1
  have increasing : ((m.row i).map Prod.fst).Pairwise (· < ·) :=
    List.pairwise_map.2 (sorted.imp of_decide_eq_true)
  unfold Storage.readCoeff coeff?
  rw [h.readRow below, Strict.ok_bind]
  dsimp only
  cases found : bisect ((m.row i).map Prod.fst) j 0 ((m.row i).map Prod.fst).length with
  | none => rfl
  | some k =>
    obtain ⟨-, within, -⟩ := (bisect_eq_some_iff increasing (Nat.le_refl _)).1 found
    have here := List.getElem?_eq_getElem (l := (m.row i).map Prod.snd) (i := k) (by
      rwa [List.length_map] at within ⊢)
    dsimp only
    rw [Strict.get_eq_ok here, Option.bind_some, here]
    rfl

/-- **Changes in the matrix are written without fault.** -/
theorem rewrite [Scalar α] {v : Conversion α} (lawful : v.Lawful) {l : List ((Nat × Nat) × α)}
    (h : m.Assembled nrows ncols (Changes.settled l)) {c : Changes α}
    (sorted : Keyed.Sorted Keyed.positionBefore c)
    (inside : ∀ e ∈ c, e.1.1 < nrows ∧ e.1.2 < ncols) :
    ∃ m', m.rewrite v c = .ok m' ∧ m'.Assembled nrows ncols (Changes.settled (l ++ c)) := by
  obtain ⟨m', changed, assembled⟩ := h.change? lawful inside
  rw [sorted.ofList_eq Keyed.isOrder_positionBefore] at changed
  refine ⟨m', ?_, assembled⟩
  unfold Storage.change? at changed
  unfold Storage.rewrite
  by_cases empty : c.isEmpty = true
  · rw [if_pos empty] at changed ⊢
    exact congrArg Except.ok (Option.some.inj changed)
  · have rows : (List.range m.nrows).mapM (fun i => m.readRow i) =
        .ok ((List.range m.nrows).map fun i => m.row i) :=
      Strict.mapM_eq_ok fun i mem => h.readRow (h.nrows_eq ▸ List.mem_range.1 mem)
    -- Each entry that is written is one of the old ones or one of the changes.
    have covered : (c.foldl (fun l e => Keyed.put Keyed.positionBefore e.1 e.2 l) m.entries).all
        (fun e => m.covers e.1) = true := by
      refine List.all_eq_true.2 fun e mem => ?_
      have within : e.1.1 < nrows ∧ e.1.2 < ncols := by
        rcases Keyed.mem_of_mem_foldl_put mem with new | old
        · exact inside e new
        · exact h.inside e (h.shows.entries ▸ old)
      unfold covers
      rw [h.nrows_eq, h.ncols_eq, decide_eq_true within.1, decide_eq_true within.2]
      rfl
    rw [if_neg empty] at changed
    dsimp only at changed
    split at changed
    · rw [if_neg empty, rows, Strict.ok_bind]
      dsimp only
      rw [if_pos covered]
      exact congrArg Except.ok (Option.some.inj changed)
    · cases changed

end Assembled
end Storage
end MipShrink
