/-
# Settings survive as a text

Settings are kept in a list for each kind and written kind after kind.  The kind of what is read
shows in its value, so the lists are put together again (`Settings.foldl_push_toList`), and every
line that is written is read as its setting: settings that were read from a text, and written, are
read again as they are (`Settings.ofText_toText_ofText`).
-/

import MipShrink.Proofs.Settings.Lines
import MipShrink.Proofs.Text.Words

namespace MipShrink

namespace Settings

/-! ### Lists of settings -/

/-- Settings are told by their lists. -/
theorem ext_list {s t : Settings} (h : ∀ k, s.list k = t.list k) : s = t := by
  have same {β : Type} {value : β → SettingValue} (told : ∀ x y, value x = value y → x = y)
      {a b : List (String × β)}
      (h : (a.map fun e => (e.1, value e.2)) = b.map fun e => (e.1, value e.2)) : a = b := by
    refine (List.map_inj_right fun x y same => ?_).1 h
    obtain ⟨name, value⟩ := Prod.mk.inj same
    exact Prod.ext name (told _ _ value)
  cases s
  cases t
  rw [mk.injEq]
  exact ⟨same (fun _ _ => SettingValue.bool.inj) (h .bool),
    same (fun _ _ => SettingValue.int.inj) (h .int),
    same (fun _ _ => SettingValue.long.inj) (h .long),
    same (fun _ _ => SettingValue.double.inj) (h .double),
    same (fun _ _ => SettingValue.char.inj) (h .char),
    same (fun _ _ => SettingValue.string.inj) (h .string),
    same (fun _ _ => SettingValue.limit.inj) (h .limit)⟩

/-- A setting that is added comes last in the list of its kind. -/
theorem list_push (name : String) (v : SettingValue) (s : Settings) (k : SettingKind) :
    (s.push name v).list k = s.list k ++ if v.kind = k then [(name, v)] else [] := by
  cases v <;> cases k <;> simp [push, list, SettingValue.kind]

/-- The settings in the list of a kind are of this kind. -/
theorem kind_of_mem_list {s : Settings} {k : SettingKind} {e : String × SettingValue}
    (mem : e ∈ s.list k) : e.2.kind = k := by
  cases k <;>
    · obtain ⟨f, -, rfl⟩ := List.mem_map.1 mem
      rfl

/-- Settings that are added one by one come last in the lists of their kinds. -/
theorem list_foldl_push (es : List (String × SettingValue)) (s : Settings) (k : SettingKind) :
    (es.foldl (fun s e => s.push e.1 e.2) s).list k =
      s.list k ++ es.filter fun e => e.2.kind = k := by
  induction es generalizing s with
  | nil => exact (List.append_nil _).symm
  | cons e es ih =>
    rw [List.foldl_cons, ih, list_push, List.append_assoc, List.filter_cons]
    split <;> simp_all

/-- The settings of a kind are those in the list of all. -/
theorem filter_toList (s : Settings) (k : SettingKind) :
    (s.toList.filter fun e => e.2.kind = k) = s.list k := by
  have parts : ∀ k', ((s.list k').filter fun e => e.2.kind = k) =
      if k' = k then s.list k else [] := by
    intro k'
    split
    · rename_i here
      rw [here]
      exact List.filter_eq_self.2 fun e mem => decide_eq_true (kind_of_mem_list mem)
    · rename_i elsewhere
      refine List.filter_eq_nil_iff.2 fun e mem => ?_
      rw [kind_of_mem_list mem, decide_eq_false elsewhere]
      exact Bool.false_ne_true
  unfold toList
  rw [List.filter_flatMap]
  simp only [parts]
  cases k <;> simp [SettingKind.all]

/-- **Settings are put together again from the list of all.** -/
theorem foldl_push_toList (s : Settings) :
    s.toList.foldl (fun s e => s.push e.1 e.2) empty = s := by
  refine ext_list fun k => ?_
  rw [list_foldl_push, filter_toList]
  cases k <;> rfl

/-! ### Texts -/

/-- **What is read is legible.** -/
theorem legible_of_readLines {path : String} {number : Nat} {lines : List (List Char)}
    {s t : Settings} (whole : ∀ line ∈ lines, '\n' ∉ line)
    (known : ∀ k, ∀ e ∈ s.list k, Legible e) (read : readLines path number lines s = .ok t) :
    ∀ k, ∀ e ∈ t.list k, Legible e := by
  induction lines generalizing number s with
  | nil =>
    cases read
    exact known
  | cons line lines ih =>
    obtain ⟨first, others⟩ := List.forall_mem_cons.1 whole
    rw [readLines] at read
    split at read
    · cases read
    · exact ih others known read
    · rename_i name v found
      refine ih others (fun k e mem => ?_) read
      rw [list_push] at mem
      rcases List.mem_append.1 mem with mem | mem
      · exact known k e mem
      · split at mem
        · rw [List.mem_singleton.1 mem]
          exact legible_of_readLine first found
        · exact absurd mem List.not_mem_nil

/-- **Legible settings are read from their lines.** -/
theorem readLines_lineOf {path : String} {number : Nat} {es : List (String × SettingValue)}
    {s : Settings} (known : ∀ e ∈ es, Legible e) :
    readLines path number (es.map fun e => (lineOf e).toList) s =
      .ok (es.foldl (fun s e => s.push e.1 e.2) s) := by
  induction es generalizing number s with
  | nil => rfl
  | cons e es ih =>
    obtain ⟨first, others⟩ := List.forall_mem_cons.1 known
    rw [List.map_cons, readLines, first.reads]
    exact ih others

/-- The lines of the text are those of the settings, if they do not break into others. -/
theorem linesOf_toText {s : Settings} (whole : ∀ e ∈ s.toList, '\n' ∉ (lineOf e).toList)
    (last : ∀ e ∈ s.toList, (lineOf e).toList.getLast? ≠ some '\r') :
    Text.linesOf (toText s) = s.toList.map fun e => (lineOf e).toList := by
  unfold toText
  rw [Text.linesOf_unlines_of_not_mem (List.forall_mem_map.2 whole) (List.forall_mem_map.2 last),
    List.map_map]
  rfl

/-- **Settings that were read survive as a text.** -/
theorem ofText_toText_ofText {path text : String} {s : Settings} (read : ofText path text = .ok s)
    (path' : String) : ofText path' (toText s) = .ok s := by
  have known : ∀ e ∈ s.toList, Legible e := by
    intro e mem
    obtain ⟨k, -, mem⟩ := List.mem_flatMap.1 mem
    refine legible_of_readLines (fun line => Text.not_mem_of_mem_linesOf) (fun k e mem => ?_) read
      k e mem
    cases k <;> exact absurd mem List.not_mem_nil
  have lines := linesOf_toText (fun e mem => (known e mem).whole) fun e mem => (known e mem).last
  unfold ofText
  rw [lines, readLines_lineOf known, foldl_push_toList]

/-- Quotes, marks and carriage returns at unusual places. -/
def oddText : String :=
  "# a comment\nname\" = '#'\n\"x # y\"=  0.10 # rest\nlimits/n = +7\n" ++
    " s = \"a\" \rb\" # c\"\r\n\n = true"

/-- The settings of the text. -/
def oddSettings : Settings where
  bools := [("", true)]
  doubles := [("\"x # y\"", 0.1)]
  chars := [("name\"", '#')]
  strings := [("s", "a\" \rb\" # c")]
  limits := [("limits/n", 7)]

/-- The example is read, written and read again. -/
theorem ofText_toText_odd : ofText "odd.set" oddText = .ok oddSettings ∧
    ofText "back.set" (toText oddSettings) = .ok oddSettings := by
  have read : ofText "odd.set" oddText = .ok oddSettings := by with_unfolding_all rfl
  exact ⟨read, ofText_toText_ofText read "back.set"⟩

end Settings
end MipShrink
