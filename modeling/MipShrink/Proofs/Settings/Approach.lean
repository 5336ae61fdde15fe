/-
# Settings come closer to their target

The distance from the target is the number of places at which the settings have the name of the
target and another value.  Moving a setting to its target makes the distance smaller, unless the
value of the target is not even equal to itself (`Settings.distance_copyFrom_lt`).  Among all
values this is so for the doubles that are no numbers only (`SettingValue.beq_self`).
-/

import MipShrink.Modules

namespace MipShrink

namespace SettingValue

/-- A value is equal to itself unless it is a double that is no number. -/
theorem beq_self {v : SettingValue} (number : ∀ x, v = .double x → (x == x) = true) :
    (v == v) = true := by
  cases v with
  | bool b => exact beq_self_eq_true b
  | int n => exact beq_self_eq_true n
  | long n => exact beq_self_eq_true n
  | double x => exact number x rfl
  | char c => exact beq_self_eq_true c
  | string s => exact beq_self_eq_true s
  | limit n => exact beq_self_eq_true n

end SettingValue

namespace Settings

open Reduction

variable {s target : Settings} {k : SettingKind} {i : Nat} {name : String} {v : SettingValue}

/-- A setting that is found among a kind has a value of this kind. -/
theorem kind_of_get? (found : s.get? k i = some (name, v)) : v.kind = k := by
  unfold get? list at found
  cases k
  all_goals
    dsimp only at found
    rw [List.getElem?_map, Option.map_eq_some_iff] at found
    obtain ⟨e, -, eq⟩ := found
    rw [← (Prod.mk.inj eq).2]
    rfl

/-- A list of named values with a new one, seen as a list of values of one kind. -/
theorem map_assign {β : Type} (c : β → SettingValue) (i : Nat) (x : β) (l : List (String × β)) :
    (assign i x l).map (fun e => (e.1, c e.2)) =
      (l.map fun e => (e.1, c e.2)).modify i fun e => (e.1, c x) := by
  unfold assign
  apply List.ext_getElem?
  intro j
  rw [List.getElem?_map, List.getElem?_modify, List.getElem?_modify, List.getElem?_map]
  cases l[j]? with
  | none => rfl
  | some e =>
    refine congrArg some ?_
    dsimp only
    split <;> rfl

/-- Setting a value changes one place in the list of its kind. -/
theorem list_set (s : Settings) (i : Nat) (v : SettingValue) (k : SettingKind) :
    (s.set i v).list k =
      if v.kind = k then (s.list k).modify i fun e => (e.1, v) else s.list k := by
  by_cases kind : v.kind = k
  · rw [if_pos kind]
    subst kind
    cases v with
    | bool b => exact map_assign SettingValue.bool i b s.bools
    | int n => exact map_assign SettingValue.int i n s.ints
    | long n => exact map_assign SettingValue.long i n s.longs
    | double x => exact map_assign SettingValue.double i x s.doubles
    | char c => exact map_assign SettingValue.char i c s.chars
    | string t => exact map_assign SettingValue.string i t s.strings
    | limit n => exact map_assign SettingValue.limit i n s.limits
  · rw [if_neg kind]
    cases v <;> cases k <;> first | rfl | exact absurd rfl kind

/-- A setting that is given a value has it, and keeps its name. -/
theorem get?_set_self (s : Settings) (i : Nat) (v : SettingValue) :
    (s.set i v).get? v.kind i = (s.get? v.kind i).map fun e => (e.1, v) := by
  unfold get?
  rw [list_set, if_pos rfl, List.getElem?_modify_eq]
  rfl

/-- The other settings keep their values. -/
theorem get?_set_of_ne (s : Settings) (v : SettingValue) {j : Nat}
    (ne : (k, j) ≠ (v.kind, i)) : (s.set i v).get? k j = s.get? k j := by
  unfold get?
  rw [list_set]
  split
  · rename_i kind
    have other : i ≠ j := fun eq => ne (Prod.ext kind.symm eq.symm)
    exact List.getElem?_modify_ne _ _ other
  · rfl

/-- The number of places at which the settings differ from the target. -/
def distance (target s : Settings) : Nat :=
  (places s).countP (differsAt s target)

/-- Giving a setting another value keeps the places. -/
theorem places_set (s : Settings) (i : Nat) (v : SettingValue) : places (s.set i v) = places s := by
  unfold places
  refine congrArg List.flatten (List.map_congr_left fun k _ => ?_)
  rw [count_set]

/-- Settings that differ at a place both have one there, with the same name. -/
theorem exists_of_differsAt {e : SettingKind × Nat} (differs : differsAt s target e = true) :
    ∃ name v v', s.get? e.1 e.2 = some (name, v) ∧ target.get? e.1 e.2 = some (name, v') := by
  unfold differsAt at differs
  split at differs
  · rename_i name v name' v' here there
    obtain ⟨same, -⟩ := Bool.and_eq_true_iff.1 differs
    obtain rfl : name = name' := eq_of_beq same
    exact ⟨name, v, v', here, there⟩
  · cases differs

/-- Moving one setting leaves the other places alone, and at its own there is the value of the
target. -/
theorem differsAt_copyFrom {e : SettingKind × Nat} {v v' : SettingValue}
    (here : s.get? e.1 e.2 = some (name, v)) (there : target.get? e.1 e.2 = some (name, v'))
    (e' : SettingKind × Nat) : differsAt (copyFrom target e s) target e' =
      if e' = e then !(v' == v') else differsAt s target e' := by
  obtain ⟨k, i⟩ := e
  obtain rfl : v'.kind = k := kind_of_get? there
  have moved : copyFrom target (v'.kind, i) s = s.set i v' := by
    unfold copyFrom
    rw [there]
  rw [moved]
  unfold differsAt
  by_cases same : e' = (v'.kind, i)
  · rw [if_pos same, same, get?_set_self, here, there]
    show (name == name && !(v' == v')) = _
    rw [beq_self_eq_true, Bool.true_and]
  · rw [if_neg same, get?_set_of_ne s v' same]

/-- Copying a setting keeps the places. -/
theorem places_copyFrom (target : Settings) (e : SettingKind × Nat) (s : Settings) :
    places (copyFrom target e s) = places s := by
  unfold copyFrom
  split
  · exact places_set ..
  · rfl

/-- Moving a setting makes no place differ that did not differ before. -/
theorem differsAt_of_copyFrom {e e' : SettingKind × Nat} (differs : differsAt s target e = true)
    (later : differsAt (copyFrom target e s) target e' = true) : differsAt s target e' = true := by
  obtain ⟨name, v, v', here, there⟩ := exists_of_differsAt differs
  rw [differsAt_copyFrom here there] at later
  split at later
  · rename_i same
    rw [same]
    exact differs
  · exact later

/-- **Moving a setting takes the settings no further from the target.** -/
theorem distance_copyFrom_le {e : SettingKind × Nat} (differs : differsAt s target e = true) :
    distance target (copyFrom target e s) ≤ distance target s := by
  unfold distance
  rw [places_copyFrom]
  exact List.countP_mono_left fun _ _ later => differsAt_of_copyFrom differs later

/-- A setting that is found has a place. -/
theorem mem_places {e : SettingKind × Nat} {v : String × SettingValue}
    (found : s.get? e.1 e.2 = some v) : e ∈ places s := by
  have bound : e.2 < s.count e.1 := (List.getElem?_eq_some_iff.1 found).1
  unfold places
  rw [List.mem_flatMap]
  exact ⟨e.1, SettingKind.mem_all e.1, List.mem_map.2 ⟨e.2, List.mem_range.2 bound, rfl⟩⟩

/-- A setting that was moved to a target of numbers does not differ from it any more. -/
theorem differsAt_copyFrom_self {e : SettingKind × Nat}
    (numbers : ∀ k i name x, target.get? k i = some (name, .double x) → (x == x) = true)
    (differs : differsAt s target e = true) : differsAt (copyFrom target e s) target e = false := by
  obtain ⟨name, v, v', here, there⟩ := exists_of_differsAt differs
  have equal : (v' == v') = true := SettingValue.beq_self fun x eq =>
    numbers e.1 e.2 name x (eq ▸ there)
  rw [differsAt_copyFrom here there, if_pos rfl, equal]
  rfl

/-- **Moving a setting takes the settings closer to a target of numbers.** -/
theorem distance_copyFrom_lt {e : SettingKind × Nat}
    (numbers : ∀ k i name x, target.get? k i = some (name, .double x) → (x == x) = true)
    (differs : differsAt s target e = true) :
    distance target (copyFrom target e s) < distance target s := by
  obtain ⟨name, v, v', here, -⟩ := exists_of_differsAt differs
  have settled := differsAt_copyFrom_self numbers differs
  have fewer (l : List (SettingKind × Nat)) :
      l.countP (differsAt (copyFrom target e s) target) ≤ l.countP (differsAt s target) :=
    List.countP_mono_left fun _ _ later => differsAt_of_copyFrom differs later
  obtain ⟨before, after, split⟩ := List.append_of_mem (mem_places here)
  have first := fewer before
  have second := fewer after
  unfold distance
  rw [places_copyFrom, split, List.countP_append, List.countP_append,
    List.countP_cons_of_neg (by simp [settled]), List.countP_cons_of_pos differs]
  omega

end Settings
end MipShrink
