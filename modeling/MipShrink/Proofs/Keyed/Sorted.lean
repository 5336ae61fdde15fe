/-
# Association lists with increasing keys

`Keyed.put` and `Keyed.drop` keep the keys of a list strictly increasing (`sorted_put`,
`Sorted.drop`).  On such lists a look-up finds exactly the members
(`Sorted.lookup_eq_some_iff`), and what is looked up determines the list (`Sorted.ext`).

Of any list that is put into another one, the last value of each key counts (`lookup_foldl_put`).
-/

import MipShrink.Keyed

namespace MipShrink
namespace Keyed

variable {κ β : Type} {before : κ → κ → Bool}

/-- A test that orders keys strictly and totally. -/
structure IsOrder (before : κ → κ → Bool) : Prop where
  irrefl : ∀ a, before a a = false
  trans : ∀ {a b c}, before a b = true → before b c = true → before a c = true
  total : ∀ {a b}, before a b = false → before b a = false → a = b

/-- The order of natural numbers is an order of keys. -/
theorem isOrder_natBefore : IsOrder natBefore where
  irrefl a := by simp [natBefore]
  trans {a b c} h h' := by simp only [natBefore, decide_eq_true_eq] at *; omega
  total {a b} h h' := by simp only [natBefore, decide_eq_false_iff_not] at *; omega

/-- Positions are in order by their rows, and in the same row by their columns. -/
theorem positionBefore_iff {a b : Nat × Nat} :
    positionBefore a b = true ↔ a.1 < b.1 ∨ a.1 = b.1 ∧ a.2 < b.2 := by
  simp [positionBefore]

/-- The order of positions is an order of keys. -/
theorem isOrder_positionBefore : IsOrder positionBefore where
  irrefl a := Bool.eq_false_iff.2 fun h => by rw [positionBefore_iff] at h; omega
  trans {a b c} h h' := by rw [positionBefore_iff] at *; omega
  total {a b} h h' := by
    rw [Bool.eq_false_iff, ne_eq, positionBefore_iff] at h h'
    exact Prod.ext (by omega) (by omega)

/-- The order of names is an order of keys. -/
theorem isOrder_nameBefore : IsOrder nameBefore where
  irrefl a := decide_eq_false (String.lt_irrefl a)
  trans h h' := decide_eq_true (String.lt_trans (of_decide_eq_true h) (of_decide_eq_true h'))
  total h h' := String.le_antisymm (String.not_lt.1 (of_decide_eq_false h'))
    (String.not_lt.1 (of_decide_eq_false h))

/-- The keys increase strictly. -/
def Sorted (before : κ → κ → Bool) (l : List (κ × β)) : Prop :=
  l.Pairwise fun a b => before a.1 b.1 = true

/-- No keys are out of order in an empty list. -/
theorem sorted_nil : Sorted before ([] : List (κ × β)) := List.Pairwise.nil

/-- The first key is before all others, and these are in order. -/
theorem sorted_cons {a : κ × β} {l : List (κ × β)} :
    Sorted before (a :: l) ↔ (∀ e ∈ l, before a.1 e.1 = true) ∧ Sorted before l :=
  List.pairwise_cons

/-- What is in the list after an entry is put is the entry or was there before. -/
theorem mem_put {k : κ} {v : β} {l : List (κ × β)} {e : κ × β} (h : e ∈ put before k v l) :
    e = (k, v) ∨ e ∈ l := by
  induction l with
  | nil => exact .inl (List.mem_singleton.1 h)
  | cons a l ih =>
    rw [put] at h
    split at h
    · exact List.mem_cons.1 h
    · split at h
      · rcases List.mem_cons.1 h with rfl | h
        · exact .inr (List.mem_cons_self ..)
        · exact (ih h).imp id (List.mem_cons_of_mem _)
      · exact (List.mem_cons.1 h).imp id (List.mem_cons_of_mem _)

/-- A key put into its place keeps the order. -/
theorem sorted_put (order : IsOrder before) {l : List (κ × β)} (sorted : Sorted before l) (k : κ)
    (v : β) : Sorted before (put before k v l) := by
  induction l with
  | nil => exact List.pairwise_singleton ..
  | cons a l ih =>
    obtain ⟨first, rest⟩ := sorted_cons.1 sorted
    rw [put]
    split
    · rename_i below
      refine sorted_cons.2 ⟨fun e mem => ?_, sorted⟩
      rcases List.mem_cons.1 mem with rfl | mem
      · exact below
      · exact order.trans below (first e mem)
    · rename_i notBelow
      split
      · rename_i above
        refine sorted_cons.2 ⟨fun e mem => ?_, ih rest⟩
        rcases mem_put mem with rfl | mem
        · exact above
        · exact first e mem
      · rename_i notAbove
        have same : k = a.1 :=
          order.total (Bool.eq_false_iff.2 notBelow) (Bool.eq_false_iff.2 notAbove)
        exact sorted_cons.2 ⟨fun e mem => same ▸ first e mem, rest⟩

variable [BEq κ] [LawfulBEq κ]

/-- A key that is put has its new value, and the others keep theirs. -/
theorem lookup_put (order : IsOrder before) (k j : κ) (v : β) (l : List (κ × β)) :
    (put before k v l).lookup j = if j == k then some v else l.lookup j := by
  induction l with
  | nil =>
    rw [put, List.lookup_cons, List.lookup_nil]
    cases j == k <;> rfl
  | cons a l ih =>
    rw [put]
    split
    · rw [List.lookup_cons]
      cases j == k <;> rfl
    · rename_i notBelow
      split
      · rename_i above
        have ne : a.1 ≠ k := by
          intro eq
          rw [eq, order.irrefl] at above
          exact absurd above Bool.false_ne_true
        rw [List.lookup_cons, List.lookup_cons, ih]
        by_cases eq : j = a.1
        · have other : (a.1 == k) = false := by simp [ne]
          rw [eq, other, beq_self_eq_true]
          rfl
        · have other : (j == a.1) = false := by simp [eq]
          rw [other]
      · rename_i notAbove
        have same : k = a.1 :=
          order.total (Bool.eq_false_iff.2 notBelow) (Bool.eq_false_iff.2 notAbove)
        rw [List.lookup_cons, List.lookup_cons, same]
        cases j == a.1 <;> rfl

/-- A key that is dropped is not found, and the others keep their values. -/
theorem lookup_drop (k j : κ) (l : List (κ × β)) :
    (drop k l).lookup j = if j == k then none else l.lookup j := by
  induction l with
  | nil => simp [drop]
  | cons a l ih =>
    unfold drop at ih
    rw [drop, List.filter_cons]
    by_cases dropped : a.1 = k
    · rw [if_neg (by simp [dropped]), ih, List.lookup_cons, dropped]
      cases j == k <;> rfl
    · rw [if_pos (by simp [dropped]), List.lookup_cons, List.lookup_cons, ih]
      by_cases eq : j = a.1
      · have other : (a.1 == k) = false := by simp [dropped]
        rw [eq, other, beq_self_eq_true]
        rfl
      · have other : (j == a.1) = false := by simp [eq]
        rw [other]

/-- A key below all others is not among them. -/
theorem IsOrder.lookup_eq_none (order : IsOrder before) {k : κ} {l : List (κ × β)}
    (below : ∀ e ∈ l, before k e.1 = true) : l.lookup k = none := by
  rw [List.lookup_eq_none_iff]
  intro e mem
  rw [bne_iff_ne]
  intro same
  have loop := below e mem
  rw [← same, order.irrefl] at loop
  exact Bool.false_ne_true loop

omit [BEq κ] [LawfulBEq κ] in
/-- What is selected from a sorted list is sorted. -/
theorem Sorted.filter {l : List (κ × β)} (sorted : Sorted before l) (f : κ × β → Bool) :
    Sorted before (l.filter f) :=
  List.Pairwise.sublist List.filter_sublist sorted

omit [LawfulBEq κ] in
/-- Dropping a key keeps the order. -/
theorem Sorted.drop {l : List (κ × β)} (sorted : Sorted before l) (k : κ) :
    Sorted before (Keyed.drop k l) :=
  sorted.filter _

omit [BEq κ] [LawfulBEq κ] in
/-- No key occurs twice. -/
theorem Sorted.keys_ne (order : IsOrder before) {l : List (κ × β)} (sorted : Sorted before l) :
    l.Pairwise fun a b => a.1 ≠ b.1 :=
  sorted.imp fun below eq => by
    rw [eq, order.irrefl] at below
    exact Bool.false_ne_true below

/-- A look-up finds exactly the members if no key occurs twice. -/
theorem lookup_eq_some_iff_mem {l : List (κ × β)} (keys : l.Pairwise fun a b => a.1 ≠ b.1) {k : κ}
    {v : β} : l.lookup k = some v ↔ (k, v) ∈ l := by
  induction l with
  | nil => simp
  | cons a l ih =>
    obtain ⟨first, rest⟩ := List.pairwise_cons.1 keys
    rw [List.lookup_cons, List.mem_cons]
    by_cases eq : k = a.1
    · have absent : (k, v) ∉ l := fun mem => first _ mem eq.symm
      rw [eq, beq_self_eq_true, ← eq]
      simp only [Option.some.injEq, absent, or_false]
      exact ⟨fun h => Prod.ext eq h.symm, fun h => (congrArg Prod.snd h).symm⟩
    · have other : (k == a.1) = false := by simp [eq]
      have ne : (k, v) ≠ a := fun h => eq (congrArg Prod.fst h)
      simp only [other, ne, false_or]
      exact ih rest

/-- A look-up finds exactly the members. -/
theorem Sorted.lookup_eq_some_iff (order : IsOrder before) {l : List (κ × β)}
    (sorted : Sorted before l) {k : κ} {v : β} : l.lookup k = some v ↔ (k, v) ∈ l :=
  lookup_eq_some_iff_mem (sorted.keys_ne order)

/-- A look-up finds the same from the other end. -/
theorem Sorted.lookup_reverse (order : IsOrder before) {l : List (κ × β)}
    (sorted : Sorted before l) (k : κ) : l.reverse.lookup k = l.lookup k := by
  have keys := sorted.keys_ne order
  refine Option.ext fun v => ?_
  rw [lookup_eq_some_iff_mem (List.pairwise_reverse.2 (keys.imp Ne.symm)),
    lookup_eq_some_iff_mem keys, List.mem_reverse]

omit [BEq κ] [LawfulBEq κ] in
/-- Of two keys only one is before the other. -/
theorem IsOrder.asymm (order : IsOrder before) {a b : κ} (below : before a b = true) :
    before b a = false :=
  Bool.eq_false_iff.2 fun above => by
    have loop := order.trans below above
    rw [order.irrefl] at loop
    exact Bool.false_ne_true loop

omit [BEq κ] [LawfulBEq κ] in
/-- Keys in order have no entry twice. -/
theorem Sorted.nodup (order : IsOrder before) {l : List (κ × β)} (sorted : Sorted before l) :
    l.Nodup :=
  (sorted.keys_ne order).imp fun ne eq => ne (congrArg _ eq)

omit [BEq κ] [LawfulBEq κ] in
/-- The members determine the list. -/
theorem Sorted.ext_mem (order : IsOrder before) {l l' : List (κ × β)} (sorted : Sorted before l)
    (sorted' : Sorted before l') (same : ∀ e, e ∈ l ↔ e ∈ l') : l = l' := by
  refine ((List.perm_ext_iff_of_nodup (sorted.nodup order) (sorted'.nodup order)).2
    same).eq_of_pairwise (fun a b _ _ below above => ?_) sorted sorted'
  rw [order.asymm below] at above
  exact absurd above Bool.false_ne_true

/-- What is looked up determines the list. -/
theorem Sorted.ext (order : IsOrder before) {l l' : List (κ × β)} (sorted : Sorted before l)
    (sorted' : Sorted before l') (h : ∀ k, l.lookup k = l'.lookup k) : l = l' :=
  sorted.ext_mem order sorted' fun e => by
    rw [← sorted.lookup_eq_some_iff order, ← sorted'.lookup_eq_some_iff order, h]

/-! ### Lists that are put one after the other -/

/-- Of the values of a key, the last one counts. -/
theorem lookup_foldl_put (order : IsOrder before) (k : κ) (l m : List (κ × β)) :
    (l.foldl (fun m e => put before e.1 e.2 m) m).lookup k =
      (l.reverse.lookup k).or (m.lookup k) := by
  induction l generalizing m with
  | nil => rfl
  | cons e l ih =>
    rw [List.foldl_cons, ih, lookup_put order, List.reverse_cons, List.lookup_append,
      List.lookup_cons, List.lookup_nil, Option.or_assoc]
    cases k == e.1 <;> rfl

/-- Of several entries with one key the last one counts. -/
theorem lookup_ofList (order : IsOrder before) (k : κ) (l : List (κ × β)) :
    (ofList before l).lookup k = l.reverse.lookup k := by
  unfold ofList
  rw [lookup_foldl_put order, List.lookup_nil, Option.or_none]

omit [BEq κ] [LawfulBEq κ] in
/-- Putting entries one after the other keeps the order. -/
theorem sorted_foldl_put (order : IsOrder before) (l : List (κ × β)) {m : List (κ × β)}
    (sorted : Sorted before m) : Sorted before (l.foldl (fun m e => put before e.1 e.2 m) m) :=
  List.foldlRecOn _ _ sorted fun _ h e _ => sorted_put order h e.1 e.2

omit [BEq κ] [LawfulBEq κ] in
/-- A list that is made of entries is in order. -/
theorem sorted_ofList (order : IsOrder before) (l : List (κ × β)) :
    Sorted before (ofList before l) :=
  sorted_foldl_put order l sorted_nil

omit [BEq κ] [LawfulBEq κ] in
/-- Putting entries one after the other adds nothing else. -/
theorem mem_of_mem_foldl_put {l m : List (κ × β)} {e : κ × β}
    (mem : e ∈ l.foldl (fun m e => put before e.1 e.2 m) m) : e ∈ l ∨ e ∈ m := by
  induction l generalizing m with
  | nil => exact .inr mem
  | cons a l ih =>
    rcases ih mem with later | now
    · exact .inl (List.mem_cons_of_mem _ later)
    · rcases mem_put now with rfl | before
      · exact .inl (List.mem_cons_self ..)
      · exact .inr before

omit [BEq κ] [LawfulBEq κ] in
/-- A list that is made of entries has no other ones. -/
theorem mem_of_mem_ofList {l : List (κ × β)} {e : κ × β} (mem : e ∈ ofList before l) : e ∈ l :=
  (mem_of_mem_foldl_put mem).resolve_right List.not_mem_nil

/-- Nothing is replaced if no key occurs twice. -/
theorem mem_ofList (order : IsOrder before) {l : List (κ × β)}
    (keys : l.Pairwise fun a b => a.1 ≠ b.1) {e : κ × β} : e ∈ ofList before l ↔ e ∈ l := by
  rw [← (sorted_ofList order l).lookup_eq_some_iff order, lookup_ofList order,
    lookup_eq_some_iff_mem (List.pairwise_reverse.2 (keys.imp Ne.symm)), List.mem_reverse]

/-- A sorted list is put as it is. -/
theorem Sorted.ofList_eq (order : IsOrder before) {l : List (κ × β)} (sorted : Sorted before l) :
    ofList before l = l :=
  (sorted_ofList order l).ext order sorted fun k => by
    rw [lookup_ofList order, sorted.lookup_reverse order]

end Keyed
end MipShrink
