/-
# Assignments to parameters

A parameter has the value of the last argument with its key, else that of the last line of the file
which its type and its bounds admit, else the one it was registered with
(`Parameters.useOverrides_useText`).  Lines that cannot be used leave the registry as it is, and so
do the first argument that cannot be used and all arguments behind it.

Whether a text can be assigned depends on the type and the bounds of the parameter alone, and these
never change (`Parameter.reading_with`).  So each assignment is judged by the registry as it was at
first, whatever stands before it, and in the end only the list of pass-codes can be wrong.
-/

import Mathlib.Data.List.TakeWhile
import MipShrink.Parameters.Basic
import MipShrink.Proofs.Keyed.Sorted
import MipShrink.Proofs.Text.Trimming

namespace MipShrink

/-! ### Values -/

/-- Texts are read alike for values of one type. -/
theorem ParamValue.readLike_congr {v w : ParamValue} (same : v.typeName = w.typeName)
    (t : List Char) : v.readLike t = w.readLike t := by
  cases v <;> cases w <;> first | rfl | simp [typeName] at same

/-- What is read like a value has its type. -/
theorem ParamValue.typeName_of_readLike {v w : ParamValue} {t : List Char}
    (read : v.readLike t = .ok w) : w.typeName = v.typeName := by
  unfold readLike at read
  cases v with
  | string s =>
    cases read
    rfl
  | bool _ | int _ | long _ | double _ =>
    dsimp only at read
    split at read
    · cases read
      rfl
    · cases read

namespace Parameter

/-- **The value that a text gives the parameter**, if it reads as the type of the parameter and lies
in the bounds. -/
def reading (p : Parameter) (text : List Char) : Except ParameterFault ParamValue :=
  match p.value.readLike (Text.trim text) with
  | .error fault => .error fault
  | .ok v =>
    if p.rejects v then
      .error (.outside (String.ofList (Text.trim text)) (ParamValue.doubleText p.low)
        (ParamValue.doubleText p.high))
    else .ok v

variable {p : Parameter} {v w : ParamValue} {a b text : List Char}

/-- Assigning a text stores its reading. -/
theorem assign_eq (p : Parameter) (text : List Char) :
    p.assign text = (p.reading text).map fun v => { p with value := v } := by
  unfold assign reading
  dsimp only
  cases p.value.readLike (Text.trim text) with
  | error fault => rfl
  | ok v =>
    dsimp only
    cases p.rejects v <;> rfl

/-- Only the trimmed text is read. -/
theorem reading_congr (same : Text.trim a = Text.trim b) (p : Parameter) :
    p.reading a = p.reading b := by
  unfold reading
  rw [same]

/-- **The present value of a parameter does not matter**, but for its type. -/
theorem reading_with (same : v.typeName = p.value.typeName) (text : List Char) :
    Parameter.reading { p with value := v } text = p.reading text := by
  unfold reading
  rw [ParamValue.readLike_congr same]
  rfl

/-- What a parameter reads has its type. -/
theorem typeName_of_reading (read : p.reading text = .ok v) : v.typeName = p.value.typeName := by
  unfold reading at read
  split at read
  · cases read
  · rename_i w like
    split at read
    · cases read
    · cases read
      exact ParamValue.typeName_of_readLike like

end Parameter

namespace ParameterSet

variable {s : ParameterSet} {a : String × List Char} {key : String}

/-- A name finds the parameter that was put last under it. -/
theorem find?_insert (name key : String) (p : Parameter) (s : ParameterSet) :
    (s.insert name p).find? key = if key == name then some p else s.find? key :=
  Keyed.lookup_put Keyed.isOrder_nameBefore name key p s.params

/-! ### Assignments -/

/-- The assignment of a line of a file: cut at the first `#`, split at the first `=`, and the key is
trimmed. -/
def lineAssignment? (line : List Char) : Option (String × List Char) :=
  (Text.splitFirst '=' (line.takeWhile (· != '#'))).map fun parts =>
    (String.ofList (Text.trim parts.1), parts.2)

/-- The assignment of an argument `--key=value`. -/
def argAssignment? (arg : String) : Option (String × List Char) :=
  (splitOverride? arg).map fun parts => (String.ofList parts.1, parts.2)

/-- The set after an assignment, which leaves the set as it is when it is wrong. -/
def attempt (s : ParameterSet) (a : String × List Char) : ParameterSet :=
  match s.setText a.1 a.2 with
  | .ok s => s
  | .error _ => s

/-- Only the trimmed text is assigned. -/
theorem setText_congr {x y : List Char} (same : Text.trim x = Text.trim y) (key : String)
    (s : ParameterSet) : s.setText key x = s.setText key y := by
  unfold setText
  split
  · rfl
  · rw [Parameter.assign_eq, Parameter.assign_eq, Parameter.reading_congr same]

/-- **A line makes its assignment**, if it has one. -/
theorem useLine_eq (s : ParameterSet) (line : List Char) :
    s.useLine line = ((lineAssignment? line).map s.attempt).getD s := by
  unfold useLine lineAssignment?
  dsimp only
  cases parts : Text.splitFirst '=' (line.takeWhile (· != '#')) with
  | none =>
    have absent := mt Text.mem_of_mem_trim (Text.splitFirst_eq_none_iff.1 parts)
    rw [Text.splitFirst_eq_none_iff.2 absent]
    rfl
  | some parts' =>
    obtain ⟨a, b⟩ := parts'
    have new : '=' ∉ a.dropWhile Text.isBlank := fun mem =>
      Text.not_mem_of_splitFirst parts ((List.dropWhile_suffix _).subset mem)
    rw [Text.splitFirst_eq_some parts, Text.trim_append_cons (by decide),
      Text.splitFirst_append new]
    dsimp only
    rw [Text.trim_dropWhile, setText_congr (Text.trim_reverse_dropWhile b)]
    rfl

/-- **What an assignment does.**  Only the value of its parameter is changed, and only by a text
that its type and its bounds admit. -/
theorem find?_attempt (s : ParameterSet) (a : String × List Char) (key : String) :
    (s.attempt a).find? key =
      if key = a.1 then
        (s.find? key).map fun p => { p with value := (p.reading a.2).toOption.getD p.value }
      else s.find? key := by
  unfold attempt setText
  cases found : s.find? a.1 with
  | none =>
    dsimp only
    split
    · rename_i same
      rw [same, found]
      rfl
    · rfl
  | some p =>
    dsimp only
    rw [Parameter.assign_eq]
    cases read : p.reading a.2 with
    | error fault =>
      show s.find? key = _
      split
      · rename_i same
        rw [same, found, Option.map_some, read]
        rfl
      · rfl
    | ok v =>
      show (s.insert a.1 { p with value := v }).find? key = _
      rw [find?_insert]
      by_cases same : key = a.1
      · rw [if_pos same, same, beq_self_eq_true, if_pos rfl, found, Option.map_some, read]
        rfl
      · rw [if_neg same, beq_eq_false_iff_ne.2 same]
        rfl

/-- What is wrong with an argument: its form, its key, or the text of its value. -/
def fault? (s : ParameterSet) (arg : String) : Option Error :=
  match argAssignment? arg with
  | none => some (.parameter arg .overrideShape)
  | some a =>
    match s.find? a.1 with
    | none => some (.parameter a.1 .unknown)
    | some p =>
      match p.reading a.2 with
      | .ok _ => none
      | .error fault => some (.parameter a.1 fault)

/-- **An argument makes its assignment**, or it is refused. -/
theorem useOverride_eq (s : ParameterSet) (arg : String) :
    s.useOverride arg =
      match s.fault? arg with
      | some e => .error e
      | none => .ok (((argAssignment? arg).map s.attempt).getD s) := by
  unfold useOverride fault? argAssignment?
  cases splitOverride? arg with
  | none => rfl
  | some parts =>
    dsimp only [Option.map_some, Option.getD_some]
    unfold attempt setText
    cases found : s.find? (String.ofList parts.1) with
    | none => rfl
    | some p =>
      dsimp only
      rw [Parameter.assign_eq]
      cases p.reading parts.2 <;> rfl

/-- An argument is right if it has a key and a value that the parameter of the key reads. -/
theorem fault?_eq_none_iff {arg : String} : s.fault? arg = none ↔
    ∃ a p v, argAssignment? arg = some a ∧ s.find? a.1 = some p ∧ p.reading a.2 = .ok v := by
  unfold fault?
  constructor
  · intro right
    split at right
    · cases right
    · rename_i a parts
      split at right
      · cases right
      · rename_i p found
        split at right
        · rename_i v read
          exact ⟨a, p, v, parts, found, read⟩
        · cases right
  · rintro ⟨a, p, v, parts, found, read⟩
    rw [parts]
    dsimp only
    rw [found]
    dsimp only
    rw [read]

end ParameterSet

/-! ### One assignment after another -/

namespace Parameter

variable {p : Parameter} {key : String} {as bs : List (String × List Char)}

/-- The value of the last assignment to the key that the parameter admits. -/
def lastValue? (p : Parameter) (key : String) (as : List (String × List Char)) :
    Option ParamValue :=
  as.reverse.findSome? fun a => if a.1 = key then (p.reading a.2).toOption else none

/-- The last value is that of the later assignments, if they have one. -/
theorem lastValue?_append (p : Parameter) (key : String) (as bs : List (String × List Char)) :
    p.lastValue? key (as ++ bs) = (p.lastValue? key bs).or (p.lastValue? key as) := by
  unfold lastValue?
  rw [List.reverse_append, List.findSome?_append]

/-- The last value has been read from some text. -/
theorem exists_reading_of_lastValue? {p : Parameter} {key : String} {v : ParamValue}
    {as : List (String × List Char)} (last : p.lastValue? key as = some v) :
    ∃ text, p.reading text = .ok v := by
  obtain ⟨a, -, given⟩ := List.exists_of_findSome?_eq_some last
  split at given
  · cases read : p.reading a.2 with
    | error fault =>
      rw [read] at given
      cases given
    | ok w =>
      rw [read] at given
      cases given
      exact ⟨a.2, read⟩
  · cases given

/-- The last value has the type of the parameter. -/
theorem typeName_lastValue? (p : Parameter) (key : String) (as : List (String × List Char)) :
    ((p.lastValue? key as).getD p.value).typeName = p.value.typeName := by
  cases last : p.lastValue? key as with
  | none => rfl
  | some v =>
    obtain ⟨text, read⟩ := exists_reading_of_lastValue? last
    exact typeName_of_reading read

/-- When all assignments to the key are admitted, the last one counts. -/
theorem lastValue?_of_admitted
    (admitted : ∀ a ∈ as, a.1 = key → ∃ v, p.reading a.2 = .ok v) :
    p.lastValue? key as = (as.reverse.lookup key).bind fun text => (p.reading text).toOption := by
  -- From the last assignment to the first: the first one with the key decides, as it is admitted.
  have latest (l : List (String × List Char))
      (admitted : ∀ a ∈ l, a.1 = key → ∃ v, p.reading a.2 = .ok v) :
      (l.findSome? fun a => if a.1 = key then (p.reading a.2).toOption else none) =
        (l.lookup key).bind fun text => (p.reading text).toOption := by
    induction l with
    | nil => rfl
    | cons a l ih =>
      obtain ⟨first, rest⟩ := List.forall_mem_cons.1 admitted
      rw [List.findSome?_cons, List.lookup_cons, ih rest]
      by_cases same : a.1 = key
      · obtain ⟨v, read⟩ := first same
        rw [if_pos same, same, beq_self_eq_true, read]
        dsimp only [Option.bind_some]
        rw [read]
        rfl
      · rw [if_neg same, beq_eq_false_iff_ne.2 (Ne.symm same)]
  exact latest as.reverse fun a mem => admitted a (List.mem_reverse.1 mem)

/-- Assignments that are admitted come before the earlier ones; without any of them the earlier ones
count. -/
theorem lastValue?_behind (as : List (String × List Char))
    (admitted : ∀ b ∈ bs, b.1 = key → ∃ v, p.reading b.2 = .ok v) :
    match bs.reverse.lookup key with
    | some word => p.reading word = .ok ((p.lastValue? key (as ++ bs)).getD p.value)
    | none => (p.lastValue? key (as ++ bs)).getD p.value = (p.lastValue? key as).getD p.value := by
  rw [p.lastValue?_append, lastValue?_of_admitted admitted]
  cases last : bs.reverse.lookup key with
  | none => rfl
  | some word =>
    obtain ⟨before, after, split, -⟩ := List.lookup_eq_some_iff.1 last
    have mem : (key, word) ∈ bs.reverse := split ▸ List.mem_append_right _ List.mem_cons_self
    obtain ⟨v, read⟩ := admitted _ (List.mem_reverse.1 mem) rfl
    dsimp only [Option.bind_some]
    rw [read]
    rfl

end Parameter

namespace ParameterSet

/-- **The parameters of a set with the values that assignments gave them.** -/
def Assigned (s : ParameterSet) (as : List (String × List Char)) (s' : ParameterSet) : Prop :=
  ∀ key, s'.find? key =
    (s.find? key).map fun p => { p with value := (p.lastValue? key as).getD p.value }

variable {s s' : ParameterSet} {as : List (String × List Char)}

/-- Without assignments every set is as it was assigned. -/
theorem assigned_nil (s : ParameterSet) : s.Assigned [] s := by
  intro key
  exact (Option.map_id' ..).symm

namespace Assigned

/-- **One more assignment.** -/
theorem attempt (h : s.Assigned as s') (a : String × List Char) :
    s.Assigned (as ++ [a]) (s'.attempt a) := by
  intro key
  rw [find?_attempt, h key]
  cases s.find? key with
  | none => exact ite_self _
  | some p =>
    rw [Option.map_some, Option.map_some, Option.map_some, p.lastValue?_append]
    have last : p.lastValue? key [a] = if a.1 = key then (p.reading a.2).toOption else none := by
      show List.findSome? _ [a] = _
      rw [List.findSome?_cons]
      split <;> rename_i same <;> exact same.symm
    rw [last]
    by_cases same : key = a.1
    · rw [if_pos same, if_pos same.symm, Parameter.reading_with (p.typeName_lastValue? key as),
        Option.getD_or]
    · rw [if_neg same, if_neg (Ne.symm same), Option.none_or]

/-- **A run of assignments.** -/
theorem foldl (h : s.Assigned as s') (bs : List (String × List Char)) :
    s.Assigned (as ++ bs) (bs.foldl ParameterSet.attempt s') := by
  induction bs generalizing as s' with
  | nil => rwa [List.append_nil]
  | cons a bs ih =>
    rw [List.append_cons]
    exact ih (h.attempt a)

/-- **Whether an argument is wrong does not depend on the values** of the parameters. -/
theorem fault?_eq (h : s.Assigned as s') (arg : String) : s'.fault? arg = s.fault? arg := by
  unfold fault?
  cases argAssignment? arg with
  | none => rfl
  | some a =>
    dsimp only
    rw [h a.1]
    cases s.find? a.1 with
    | none => rfl
    | some p =>
      dsimp only [Option.map_some]
      rw [Parameter.reading_with (p.typeName_lastValue? a.1 as)]

/-- The types stay as they were. -/
theorem typeName_get? (h : s.Assigned as s') {key : String} {p : Parameter}
    (found : s.find? key = some p) :
    (s'.get? key).map ParamValue.typeName = some p.value.typeName := by
  unfold get?
  rw [h key, found]
  exact congrArg some (p.typeName_lastValue? key as)

end Assigned

/-- The assignments of a parameter file. -/
def lineAssignments (text : String) : List (String × List Char) :=
  (Text.linesOf text).filterMap lineAssignment?

/-- The assignments of arguments. -/
def argAssignments (args : List String) : List (String × List Char) :=
  args.filterMap argAssignment?

/-- A parameter file makes its assignments. -/
theorem useText_eq (s : ParameterSet) (text : String) :
    s.useText text = (lineAssignments text).foldl attempt s := by
  unfold useText lineAssignments
  induction Text.linesOf text generalizing s with
  | nil => rfl
  | cons line lines ih =>
    rw [List.foldl_cons, ih, useLine_eq]
    cases parts : lineAssignment? line with
    | none =>
      rw [List.filterMap_cons_none parts]
      rfl
    | some a =>
      rw [List.filterMap_cons_some parts]
      rfl

/-- A text assigns what its lines assign. -/
theorem assigned_useText (s : ParameterSet) (text : String) :
    s.Assigned (lineAssignments text) (s.useText text) := by
  rw [useText_eq]
  exact s.assigned_nil.foldl _

/-- The arguments in front of the first one that is wrong. -/
def usable (s : ParameterSet) (args : List String) : List String :=
  args.takeWhile fun arg => (s.fault? arg).isNone

/-- If no argument is wrong, all of them can be used. -/
theorem usable_eq_self {s : ParameterSet} {args : List String}
    (right : args.findSome? s.fault? = none) : s.usable args = args := by
  refine List.takeWhile_eq_self_iff.2 fun arg mem => ?_
  rw [List.findSome?_eq_none_iff.1 right arg mem]
  rfl

/-- What is assigned by an argument that is not wrong is admitted. -/
theorem admitted_of_usable (args : List String) {key : String} {p : Parameter}
    (found : s.find? key = some p) :
    ∀ a ∈ argAssignments (s.usable args), a.1 = key → ∃ v, p.reading a.2 = .ok v := by
  rintro a mem rfl
  obtain ⟨arg, used, parts⟩ := List.mem_filterMap.1 mem
  have right : s.fault? arg = none :=
    Option.isNone_iff_eq_none.1 (List.all_eq_true.1 List.all_takeWhile arg used)
  obtain ⟨a', p', v, parts', found', read⟩ := fault?_eq_none_iff.1 right
  obtain rfl := Option.some.inj (parts.symm.trans parts')
  obtain rfl := Option.some.inj (found.symm.trans found')
  exact ⟨v, read⟩

/-- **Arguments make their assignments** up to the first one that is wrong. -/
theorem Assigned.useOverrides_eq (h : s.Assigned as s') (args : List String) :
    s'.useOverrides args = ((argAssignments (s.usable args)).foldl ParameterSet.attempt s',
      args.findSome? s.fault?) := by
  induction args generalizing as s' with
  | nil => rfl
  | cons arg args ih =>
    rw [useOverrides, useOverride_eq, h.fault?_eq, usable, List.takeWhile_cons, List.findSome?_cons]
    cases fault : s.fault? arg with
    | some e => rfl
    | none =>
      obtain ⟨a, p, v, parts, -, -⟩ := fault?_eq_none_iff.1 fault
      dsimp only [Option.isNone_none]
      rw [if_pos rfl, parts, argAssignments, List.filterMap_cons_some parts]
      exact ih (h.attempt a)

/-! ### Typed values -/

variable {name : String}

/-- A parameter with a type has a value of this type. -/
theorem exists_get {type : String} (typed : (s.get? name).map ParamValue.typeName = some type) :
    ∃ v, s.get? name = some v ∧ s.get name = .ok v ∧ v.typeName = type := by
  obtain ⟨v, found, same⟩ := Option.map_eq_some_iff.1 typed
  refine ⟨v, found, ?_, same⟩
  unfold get
  rw [found]

/-- A parameter with a truth value gives it. -/
theorem exists_getBool (typed : (s.get? name).map ParamValue.typeName = some "bool") :
    ∃ b, s.getBool name = .ok b := by
  obtain ⟨v, -, found, type⟩ := exists_get typed
  unfold getBool
  rw [found]
  cases v with
  | bool b => exact ⟨b, rfl⟩
  | int _ | long _ | double _ | string _ => simp [ParamValue.typeName] at type

/-- A parameter with an integer of 32 bits gives it. -/
theorem exists_getInt (typed : (s.get? name).map ParamValue.typeName = some "int") :
    ∃ n, s.getInt name = .ok n := by
  obtain ⟨v, -, found, type⟩ := exists_get typed
  unfold getInt
  rw [found]
  cases v with
  | int n => exact ⟨n, rfl⟩
  | bool _ | long _ | double _ | string _ => simp [ParamValue.typeName] at type

/-- A parameter with an integer of 64 bits gives it. -/
theorem exists_getLong (typed : (s.get? name).map ParamValue.typeName = some "long") :
    ∃ n, s.getLong name = .ok n := by
  obtain ⟨v, -, found, type⟩ := exists_get typed
  unfold getLong
  rw [found]
  cases v with
  | long n => exact ⟨n, rfl⟩
  | bool _ | int _ | double _ | string _ => simp [ParamValue.typeName] at type

/-- A parameter with a double gives it. -/
theorem exists_getDouble (typed : (s.get? name).map ParamValue.typeName = some "double") :
    ∃ x, s.getDouble name = .ok x := by
  obtain ⟨v, -, found, type⟩ := exists_get typed
  unfold getDouble
  rw [found]
  cases v with
  | double x => exact ⟨x, rfl⟩
  | bool _ | int _ | long _ | string _ => simp [ParamValue.typeName] at type

/-- A parameter with a text gives it. -/
theorem exists_getString (typed : (s.get? name).map ParamValue.typeName = some "string") :
    ∃ t, s.get? name = some (.string t) ∧ s.getString name = .ok t := by
  obtain ⟨v, value, found, type⟩ := exists_get typed
  unfold getString
  rw [found]
  cases v with
  | string t => exact ⟨t, value, rfl⟩
  | bool _ | int _ | long _ | double _ => simp [ParamValue.typeName] at type

end ParameterSet

namespace Parameters

open ParameterSet

/-! ### The registry of a run -/

/-- A key that is not found after an entry is another key, and was not found before. -/
theorem ne_and_find?_eq_none {s : ParameterSet} {key key' : String} {p : Parameter}
    (absent : (s.insert key p).find? key' = none) : key' ≠ key ∧ s.find? key' = none := by
  rw [find?_insert] at absent
  split at absent
  · cases absent
  · rename_i other
    exact ⟨fun same => other (beq_iff_eq.2 same), absent⟩

/-- Parameters are registered if none of their keys is there, each of them once. -/
theorem find?_foldlM_register? {l : List (String × Parameter)} {base s : ParameterSet}
    (registered : l.foldlM (fun s e => s.register? e.1 e.2) base = some s) :
    (∀ e ∈ l, base.find? e.1 = none) ∧ ∀ key, s.find? key = (l.lookup key).or (base.find? key) := by
  induction l generalizing base with
  | nil =>
    obtain rfl := Option.some.inj registered
    exact ⟨fun e mem => absurd mem List.not_mem_nil, fun key => rfl⟩
  | cons e l ih =>
    rw [List.foldlM_cons] at registered
    obtain ⟨next, added, rest⟩ := Option.bind_eq_some_iff.1 registered
    obtain ⟨new, found⟩ := ih rest
    unfold register? contains at added
    split at added
    · cases added
    · rename_i absent
      obtain rfl := Option.some.inj added
      have absent : base.find? e.1 = none := Option.not_isSome_iff_eq_none.1 absent
      constructor
      · exact List.forall_mem_cons.2 ⟨absent, fun e' mem => (ne_and_find?_eq_none (new e' mem)).2⟩
      · intro key
        rw [found, find?_insert, List.lookup_cons]
        by_cases same : key = e.1
        · subst same
          -- The rest does not hold the key again, so that this entry is the one that is found.
          have once : l.lookup e.1 = none := by
            refine List.lookup_eq_none_iff.2 fun e' mem => ?_
            rw [bne_iff_ne]
            exact (ne_and_find?_eq_none (new e' mem)).1.symm
          rw [once, beq_self_eq_true]
          rfl
        · rw [beq_eq_false_iff_ne.2 same]
          rfl

/-- **What is registered** is found with the values that it was registered with. -/
theorem find?_registerIn? {base s : ParameterSet} (registered : registerIn? base = some s)
    (key : String) : s.find? key = ((general ++ switches).lookup key).or (base.find? key) :=
  (find?_foldlM_register? registered).2 key

/-- The items of a list of pass-codes; empty ones are passed over. -/
def codeItems (text : String) : List (List Char) :=
  ((Text.pieces (· == ',') text.toList).map Text.trim).filter fun t => !t.isEmpty

/-- The list is read unless an item is no integer of 32 bits, and the first such item is told. -/
theorem readCodes_answers (text : String) :
    match (codeItems text).find? fun item => (Grammar.word? 32 item).isNone with
    | some item =>
      readCodes text = .error (.parameter "bugger.passcodes" (.badCode (String.ofList item)))
    | none => ∃ codes, readCodes text = .ok codes := by
  show match (codeItems text).find? _ with
    | some item => (codeItems text).mapM readCode = _
    | none => ∃ codes, (codeItems text).mapM readCode = .ok codes
  induction codeItems text with
  | nil => exact ⟨[], rfl⟩
  | cons item items ih =>
    rw [List.find?_cons, List.mapM_cons]
    -- The first item that is no number decides, and is named.
    cases read : Grammar.word? 32 item with
    | none =>
      have refused : readCode item =
          .error (.parameter "bugger.passcodes" (.badCode (String.ofList item))) := by
        unfold readCode
        rw [read]
      rw [refused]
      rfl
    | some n =>
      have code : readCode item = .ok n := by
        unfold readCode
        rw [read]
      rw [code]
      dsimp only [Option.isNone_some]
      cases bad : items.find? fun item => (Grammar.word? 32 item).isNone with
      | some other =>
        rw [bad] at ih
        dsimp only at ih ⊢
        rw [ih]
        rfl
      | none =>
        rw [bad] at ih
        obtain ⟨codes, rest⟩ := ih
        exact ⟨n :: codes, by rw [rest]; rfl⟩

/-- A list can be mapped if all its items can. -/
theorem exists_mapM_eq_ok {β γ : Type} {f : β → Except Error γ} {l : List β}
    (each : ∀ x ∈ l, ∃ y, f x = .ok y) : ∃ ys, l.mapM f = .ok ys := by
  induction l with
  | nil => exact ⟨[], rfl⟩
  | cons x l ih =>
    obtain ⟨⟨y, first⟩, rest⟩ := List.forall_mem_cons.1 each
    obtain ⟨ys, others⟩ := ih rest
    refine ⟨y :: ys, ?_⟩
    rw [List.mapM_cons, first, others]
    rfl

/-- **With the types of the registry** only the list of pass-codes can be wrong. -/
theorem ofSet_answers {s : ParameterSet}
    (typed : ∀ name p, (general ++ switches).lookup name = some p →
      (s.get? name).map ParamValue.typeName = some p.value.typeName) :
    ∃ text, s.get? "bugger.passcodes" = some (.string text) ∧
      match (codeItems text).find? fun item => (Grammar.word? 32 item).isNone with
      | some item =>
        ofSet s = .error (.parameter "bugger.passcodes" (.badCode (String.ofList item)))
      | none => ∃ p, ofSet s = .ok p := by
  obtain ⟨mode, mode'⟩ := exists_getInt (typed "bugger.mode" _ rfl)
  obtain ⟨emphasis, emphasis'⟩ := exists_getInt (typed "bugger.emphasis" _ rfl)
  obtain ⟨timeLimit, timeLimit'⟩ := exists_getDouble (typed "bugger.tlim" _ rfl)
  obtain ⟨batches, batches'⟩ := exists_getLong (typed "bugger.nbatches" _ rfl)
  obtain ⟨expenditure, expenditure'⟩ := exists_getLong (typed "bugger.expenditure" _ rfl)
  obtain ⟨firstRound, firstRound'⟩ := exists_getInt (typed "bugger.initround" _ rfl)
  obtain ⟨firstStage, firstStage'⟩ := exists_getInt (typed "bugger.initstage" _ rfl)
  obtain ⟨maxRounds, maxRounds'⟩ := exists_getInt (typed "bugger.maxrounds" _ rfl)
  obtain ⟨maxStages, maxStages'⟩ := exists_getInt (typed "bugger.maxstages" _ rfl)
  obtain ⟨debugFile, -, debugFile'⟩ := exists_getString (typed "bugger.debugfile" _ rfl)
  obtain ⟨checkpoint, -, checkpoint'⟩ := exists_getString (typed "bugger.checkpoint" _ rfl)
  obtain ⟨compress, compress'⟩ := exists_getBool (typed "bugger.compress" _ rfl)
  obtain ⟨epsilon, epsilon'⟩ := exists_getDouble (typed "numerics.epsilon" _ rfl)
  obtain ⟨feasibility, feasibility'⟩ := exists_getDouble (typed "numerics.feastol" _ rfl)
  obtain ⟨admissibility, admissibility'⟩ := exists_getDouble (typed "numerics.zeta" _ rfl)
  obtain ⟨text, value, codes'⟩ := exists_getString (typed "bugger.passcodes" _ rfl)
  obtain ⟨enabled, enabled'⟩ : ∃ enabled, readSwitches s = .ok enabled := by
    have types : ∀ k ∈ ModuleKind.all, ((general ++ switches).lookup (switchName k.name)).map
        (fun p => p.value.typeName) = some "bool" := by
      decide
    refine exists_mapM_eq_ok fun k mem => ?_
    obtain ⟨p, found, type⟩ := Option.map_eq_some_iff.1 (types k mem)
    obtain ⟨b, value⟩ := exists_getBool (type ▸ typed _ p found)
    exact ⟨(k.name, b), by rw [value]; rfl⟩
  refine ⟨text, value, ?_⟩
  have answers := readCodes_answers text
  -- Every other parameter is read by its type alone, in front of the pass-codes or behind them.
  unfold ofSet
  rw [mode', emphasis', codes', enabled', timeLimit', batches', expenditure', firstRound',
    firstStage', maxRounds', maxStages', debugFile', checkpoint', compress', epsilon',
    feasibility', admissibility']
  cases bad : (codeItems text).find? fun item => (Grammar.word? 32 item).isNone with
  | some item =>
    rw [bad] at answers
    show Except.bind (readCodes text) _ = _
    rw [show readCodes text = _ from answers]
    rfl
  | none =>
    rw [bad] at answers
    obtain ⟨codes, read⟩ := answers
    show ∃ p, Except.bind (readCodes text) _ = .ok p
    rw [read]
    exact ⟨_, rfl⟩

/-- **Parameters take the last valid assignment**, and nothing else about them changes.  A wrong
argument is told, and those in front of it have taken effect. -/
theorem useOverrides_useText {base s : ParameterSet} (registered : registerIn? base = some s)
    (text : String) (args : List String) :
    let r := (s.useText text).useOverrides args
    (∀ key, s.find? key = ((general ++ switches).lookup key).or (base.find? key)) ∧
    r.2 = args.findSome? s.fault? ∧
    (r.2 = none → s.usable args = args) ∧
    (∀ key, s.find? key = none → r.1.find? key = none) ∧
    (∀ key p, s.find? key = some p → ∃ v, r.1.find? key = some { p with value := v } ∧
      v.typeName = p.value.typeName ∧
      match (argAssignments (s.usable args)).reverse.lookup key with
      | some word => p.reading word = .ok v
      | none => v = (p.lastValue? key (lineAssignments text)).getD p.value) ∧
    ∃ codes, r.1.get? "bugger.passcodes" = some (.string codes) ∧
      match (codeItems codes).find? fun item => (Grammar.word? 32 item).isNone with
      | some item =>
        ofSet r.1 = .error (.parameter "bugger.passcodes" (.badCode (String.ofList item)))
      | none => ∃ p, ofSet r.1 = .ok p := by
  have defaults := find?_registerIn? registered
  have file := s.assigned_useText text
  have result := file.useOverrides_eq args
  have assigned : s.Assigned (lineAssignments text ++ argAssignments (s.usable args))
      ((s.useText text).useOverrides args).1 := by
    rw [result]
    exact file.foldl _
  have told := congrArg Prod.snd result
  refine ⟨defaults, told, fun right => usable_eq_self (told.symm.trans right), fun key absent => ?_,
    fun key p found => ?_, ofSet_answers fun name p here => assigned.typeName_get? ?_⟩
  · rw [assigned key, absent]
    rfl
  · exact ⟨_, by rw [assigned key, found]; rfl, p.typeName_lastValue? ..,
      p.lastValue?_behind _ (admitted_of_usable args found)⟩
  · rw [defaults, here]
    rfl

/-- The registry is what the empty set becomes. -/
theorem registerIn?_empty : registerIn? ParameterSet.empty = some registry := by
  have registered : (registerIn? ParameterSet.empty).isSome = true := by decide +kernel
  obtain ⟨s, here⟩ := Option.isSome_iff_exists.1 registered
  unfold registry
  rw [here]
  rfl

/-- A parameter file in which one line cannot be used. -/
def sampleText : String :=
  "bugger.debugfile = \"probe\" # trailing\nthis line is wrong\nbugger.checkpoint = a\n"

/-- The value in the file counts unless there is an argument. -/
theorem useOverrides_useText_sample : registerIn? ParameterSet.empty = some registry ∧
    let r := (registry.useText sampleText).useOverrides ["--bugger.checkpoint=b"]
    r.1.get? "bugger.debugfile" = some (.string "probe") ∧
    r.1.get? "bugger.checkpoint" = some (.string "b") := by
  obtain ⟨defaults, -, -, -, values, -⟩ :=
    useOverrides_useText registerIn?_empty sampleText ["--bugger.checkpoint=b"]
  have lines : lineAssignments sampleText =
      [("bugger.debugfile", " \"probe\" ".toList), ("bugger.checkpoint", " a".toList)] := by
    decide +kernel
  have args : argAssignments (registry.usable ["--bugger.checkpoint=b"]) =
      [("bugger.checkpoint", ['b'])] := by
    decide +kernel
  refine ⟨registerIn?_empty, ?_, ?_⟩
  · obtain ⟨v, found, -, last⟩ := values "bugger.debugfile"
      (stringParam "stem of files written for every probe" "") (defaults _)
    rw [args, lines] at last
    have line : v = .string "probe" := last
    unfold get?
    rw [found, line]
    rfl
  · obtain ⟨v, found, -, last⟩ := values "bugger.checkpoint"
      (stringParam "snapshot written after every round" "") (defaults _)
    rw [args] at last
    have arg : Except.ok (.string "b") = Except.ok v := last
    unfold get?
    rw [found, ← Except.ok.inj arg]
    rfl

end Parameters
end MipShrink
