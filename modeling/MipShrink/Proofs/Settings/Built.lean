/-
# Settings that were built

Settings need not come from a text: other programs put them together.  A setting that was put
together has a line of its own if its name is a word without marks, and if its kind shows in its
value and its name (`Settings.Tellable`).  Its line is read as the setting, whatever stands between
its quotes (`Settings.Told`), unless a comment begins in it.  Double quotes keep a `#` from
beginning a comment, and single quotes do not: so the settings survive as a text exactly if none of
them is the character `#`, and else the first line with this character is refused
(`Settings.ofText_toText_eq_ok_iff`).
-/

import MipShrink.Proofs.Settings.RoundTrip

namespace MipShrink

namespace Text

/-- Between characters that are not blank a text is trimmed. -/
theorem trimmed_quoted {c : Char} (solid : isBlank c = false) (t : List Char) :
    Trimmed (c :: (t ++ [c])) where
  first d mem := by
    obtain rfl := Option.some.inj mem
    exact solid
  last d mem := by
    have ends : (c :: (t ++ [c])).getLast? = some c := List.getLast?_concat (l := c :: t)
    rw [ends] at mem
    obtain rfl := Option.some.inj mem
    exact solid

/-- What was put between quotes is found there. -/
theorem unquote_quoted (c : Char) (t : List Char) : unquote c (c :: (t ++ [c])) = some t := by
  show (if c = c ∧ (t ++ [c]).getLast? = some c then some (t ++ [c]).dropLast else none) = some t
  rw [if_pos ⟨rfl, List.getLast?_concat⟩, List.dropLast_concat]

/-- Inside of double quotes no comment begins. -/
theorem uncommented_quoted {t : List Char} (h : '"' ∉ t) :
    Uncommented false ('"' :: (t ++ ['"'])) := by
  have inside : Uncommented true t := by
    induction t with
    | nil => rfl
    | cons c t ih =>
      obtain ⟨other, rest⟩ := not_or.1 (mt List.mem_cons.2 h)
      refine uncommented_cons.2 ⟨fun comment => absurd comment.2 (by decide), ?_⟩
      rw [if_neg (Ne.symm other)]
      exact ih rest
  refine uncommented_cons.2 ⟨by decide, uncommented_append.2 ⟨inside, ?_⟩⟩
  rw [if_pos rfl, Bool.not_false, quotedAfter_of_not_mem h]
  rfl

/-- A comment begins at the first mark outside of double quotes. -/
theorem stripComment_append_mark {quoted : Bool} {a : List Char} (clean : Uncommented quoted a)
    (outside : quotedAfter quoted a = false) (b : List Char) :
    stripComment quoted (a ++ '#' :: b) = a := by
  induction a generalizing quoted with
  | nil => exact if_pos ⟨rfl, outside⟩
  | cons c a ih =>
    obtain ⟨other, rest⟩ := uncommented_cons.1 clean
    rw [List.cons_append, stripComment, if_neg other, ih rest outside]

end Text

namespace Settings

/-- A name of a setting: a word without marks. -/
def IsName (name : String) : Prop :=
  Text.IsWord name ∧ ∀ mark ∈ ['=', '#', '"'], mark ∉ name.toList

instance (name : String) : Decidable (IsName name) :=
  have : Decidable (∀ mark ∈ ['=', '#', '"'], mark ∉ name.toList) :=
    List.decidableBAll (fun mark => mark ∉ name.toList) ['=', '#', '"']
  inferInstanceAs (Decidable (_ ∧ ∀ mark ∈ ['=', '#', '"'], mark ∉ name.toList))

/-- The name of a limit. -/
def IsLimitName (name : String) : Prop :=
  "limits/".toList <+: name.toList

instance (name : String) : Decidable (IsLimitName name) :=
  inferInstanceAs (Decidable ("limits/".toList <+: name.toList))

/-- **Settings whose names and values tell them.**  Integers have 32 or 64 bits; an integer of 64
bits that is no limit does not fit in 32. -/
structure Tellable (s : Settings) : Prop where
  names : ∀ e ∈ s.toList, IsName e.1
  ints : ∀ e ∈ s.ints, ¬IsLimitName e.1 ∧ -2147483648 ≤ e.2 ∧ e.2 ≤ 2147483647
  longs : ∀ e ∈ s.longs, ¬IsLimitName e.1 ∧ ¬(-2147483648 ≤ e.2 ∧ e.2 ≤ 2147483647) ∧
    -9223372036854775808 ≤ e.2 ∧ e.2 ≤ 9223372036854775807
  limits : ∀ e ∈ s.limits, IsLimitName e.1 ∧
    -9223372036854775808 ≤ e.2 ∧ e.2 ≤ 9223372036854775807
  chars : ∀ e ∈ s.chars, e.2 ≠ '\n'
  strings : ∀ e ∈ s.strings, '"' ∉ e.2.toList ∧ '\n' ∉ e.2.toList

/-! ### Values -/

/-- The text of the value is read as the value, and stands on one line. -/
structure Told (name : List Char) (v : SettingValue) : Prop where
  trimmed : Text.Trimmed v.text.toList
  whole : '\n' ∉ v.text.toList
  read : readValue name v.text.toList = some v

variable {name : List Char}

/-- A truth value is told by its text. -/
theorem told_bool (name : List Char) (b : Bool) : Told name (.bool b) := by
  have plain : ∀ c ∈ (SettingValue.bool b).text.toList, isPlain c = true :=
    List.all_eq_true.1 (by cases b <;> decide)
  refine ⟨Text.trimmed_of_not_blank fun c mem => not_isBlank_of_isPlain (plain c mem),
    fun mem => absurd (plain _ mem) (by decide), ?_⟩
  cases b <;> rfl

/-- A value in the characters of numbers is told by its text if it is read back. -/
theorem told_of_numeric {v : SettingValue} (numeric : Layout.Numeric v.text.toList)
    (read : readNumber name v.text.toList = some v) : Told name v where
  trimmed := numeric.trimmed
  whole := numeric.not_mem rfl
  read := (readValue_numeric name numeric).trans read

/-- An integer is told by the kind that its name and its size give it. -/
theorem told_ofInt {n : Int} (range : -9223372036854775808 ≤ n ∧ n ≤ 9223372036854775807)
    (name : List Char) : Told name (ofInt name n) := by
  refine told_of_numeric ?_ ?_ <;> rw [text_ofInt, SettingValue.intText, String.toList_ofList]
  · exact Layout.numeric_ofInt n
  · exact readNumber_ofInt range name

/-- A double is told by its text. -/
theorem told_double (name : List Char) (x : Float) : Told name (.double x) :=
  told_of_numeric (Layout.numeric_pointed _) (readNumber_pointed name x)

/-- A character is written in single quotes. -/
theorem toList_text_char (c : Char) : (SettingValue.char c).text.toList = '\'' :: ([c] ++ ['\'']) :=
  String.toList_ofList

/-- A text is written in double quotes. -/
theorem toList_text_string (t : String) :
    (SettingValue.string t).text.toList = '"' :: (t.toList ++ ['"']) := by
  simp [SettingValue.text]

/-- A character is told by its quotes, unless it breaks the line. -/
theorem told_char {c : Char} (whole : c ≠ '\n') (name : List Char) : Told name (.char c) where
  trimmed := toList_text_char c ▸ Text.trimmed_quoted rfl [c]
  whole := by
    rw [toList_text_char]
    simpa using whole.symm
  read := by
    rw [toList_text_char]
    rfl

/-- A text is told by its quotes, unless it breaks the line. -/
theorem told_string {t : String} (whole : '\n' ∉ t.toList) (name : List Char) :
    Told name (.string t) where
  trimmed := toList_text_string t ▸ Text.trimmed_quoted rfl t.toList
  whole := by
    rw [toList_text_string]
    simpa using whole
  read := by
    rw [toList_text_string, readValue, (Text.trimmed_quoted rfl t.toList).trim_eq, if_neg, if_neg,
      Text.unquote_quoted]
    · dsimp only
      rw [String.ofList_toList]
    · rintro (same | same) <;> cases same
    · rintro (same | same) <;> cases same

namespace Tellable

variable {s : Settings} {e : String × SettingValue}

/-- **Every value is told.** -/
theorem told (h : s.Tellable) (mem : e ∈ s.toList) : Told e.1.toList e.2 := by
  obtain ⟨k, -, inside⟩ := List.mem_flatMap.1 mem
  -- Numbers of all three kinds are printed alike, and told apart by their names and sizes.
  have limit {name : String} (given : IsLimitName name) (n : Int) :
      ofInt name.toList n = .limit n :=
    if_pos (List.isPrefixOf_iff_prefix.2 given)
  have free {name : String} (given : ¬IsLimitName name) (n : Int) : ofInt name.toList n =
      if -2147483648 ≤ n ∧ n ≤ 2147483647 then .int n else .long n :=
    if_neg (mt List.isPrefixOf_iff_prefix.1 given)
  cases k with
  | bool =>
    obtain ⟨f, -, rfl⟩ := List.mem_map.1 inside
    exact told_bool _ f.2
  | int =>
    obtain ⟨f, listed, rfl⟩ := List.mem_map.1 inside
    obtain ⟨other, range⟩ := h.ints f listed
    have told := told_ofInt (n := f.2) (by omega) f.1.toList
    rwa [free other, if_pos range] at told
  | long =>
    obtain ⟨f, listed, rfl⟩ := List.mem_map.1 inside
    obtain ⟨other, large, range⟩ := h.longs f listed
    have told := told_ofInt range f.1.toList
    rwa [free other, if_neg large] at told
  | double =>
    obtain ⟨f, -, rfl⟩ := List.mem_map.1 inside
    exact told_double _ f.2
  | char =>
    obtain ⟨f, listed, rfl⟩ := List.mem_map.1 inside
    exact told_char (h.chars f listed) _
  | string =>
    obtain ⟨f, listed, rfl⟩ := List.mem_map.1 inside
    exact told_string (h.strings f listed).2 _
  | limit =>
    obtain ⟨f, listed, rfl⟩ := List.mem_map.1 inside
    obtain ⟨given, range⟩ := h.limits f listed
    have told := told_ofInt range f.1.toList
    rwa [limit given] at told

/-- **Only one value begins a comment.** -/
theorem uncommented (h : s.Tellable) (mem : e ∈ s.toList) (other : e.2 ≠ .char '#') :
    Text.Uncommented false e.2.text.toList := by
  have numeric {t : List Char} (h : Layout.Numeric t) : Text.Uncommented false t :=
    Text.uncommented_of_not_mem (h.not_mem rfl) false
  have integer (n : Int) : Text.Uncommented false (SettingValue.intText n).toList := by
    rw [SettingValue.intText, String.toList_ofList]
    exact numeric (Layout.numeric_ofInt n)
  obtain ⟨k, -, inside⟩ := List.mem_flatMap.1 mem
  cases k with
  | bool =>
    obtain ⟨⟨name, b⟩, -, rfl⟩ := List.mem_map.1 inside
    have plain : '#' ∉ (SettingValue.bool b).text.toList := by cases b <;> decide
    exact Text.uncommented_of_not_mem plain false
  | int | long | limit =>
    obtain ⟨f, -, rfl⟩ := List.mem_map.1 inside
    exact integer f.2
  | double =>
    obtain ⟨f, -, rfl⟩ := List.mem_map.1 inside
    exact numeric (Layout.numeric_pointed _)
  | char =>
    obtain ⟨⟨name, c⟩, -, rfl⟩ := List.mem_map.1 inside
    have plain : c ≠ '#' := fun same => other (congrArg SettingValue.char same)
    rw [toList_text_char]
    refine Text.uncommented_of_not_mem ?_ false
    simpa using plain.symm
  | string =>
    obtain ⟨f, listed, rfl⟩ := List.mem_map.1 inside
    rw [toList_text_string]
    exact Text.uncommented_quoted (h.strings f listed).1

/-! ### Lines -/

/-- A line is a name, an equals sign between blanks, and a value. -/
theorem toList_line (e : String × SettingValue) :
    (lineOf e).toList = e.1.toList ++ ([' ', '=', ' '] ++ e.2.text.toList) := by
  simp [lineOf]

/-- No line is broken. -/
theorem whole_line (h : s.Tellable) (mem : e ∈ s.toList) : '\n' ∉ (lineOf e).toList := by
  rw [toList_line, List.mem_append, List.mem_append, not_or, not_or]
  refine ⟨fun inside => ?_, by decide, (h.told mem).whole⟩
  exact absurd ((h.names e mem).1.2 _ inside) (by decide)

/-- No line ends with a carriage return. -/
theorem last_line (h : s.Tellable) (mem : e ∈ s.toList) :
    (lineOf e).toList.getLast? ≠ some '\r' := by
  have nonempty := ne_nil_of_readValue (h.told mem).read
  rw [toList_line, List.getLast?_append_of_ne_nil _ (List.append_ne_nil_of_right_ne_nil _ nonempty),
    List.getLast?_append_of_ne_nil _ nonempty]
  exact fun last => absurd ((h.told mem).trimmed.last '\r' last) (by decide)

/-- **A line without comment is read as its setting.** -/
theorem legible (h : s.Tellable) (mem : e ∈ s.toList) (other : e.2 ≠ .char '#') : Legible e where
  reads := by
    obtain ⟨word, unmarked⟩ := h.names e mem
    have read := readLine_append (Text.trimmed_of_not_blank word.2) (h.told mem).trimmed
      (unmarked '=' (by decide))
      (Text.uncommented_of_not_mem (unmarked '#' (by decide)) false)
      ((Text.quotedAfter_of_not_mem (unmarked '"' (by decide)) false).symm ▸
        h.uncommented mem other)
      (h.told mem).read
    rw [toList_line, read, String.ofList_toList]
  whole := h.whole_line mem
  last := h.last_line mem

end Tellable

/-- **The line of the character that begins a comment is refused:** there is only a quote in front
of the comment. -/
theorem readLine_mark {name : String} (h : IsName name) :
    readLine (lineOf (name, .char '#')).toList = .error (.settingValue name) := by
  obtain ⟨word, unmarked⟩ := h
  have line : (lineOf (name, .char '#')).toList =
      (name.toList ++ [' ', '=', ' ', '\'']) ++ '#' :: ['\''] := by
    rw [Tellable.toList_line, toList_text_char, List.append_assoc]
    rfl
  have outside : Text.quotedAfter false name.toList = false :=
    Text.quotedAfter_of_not_mem (unmarked '"' (by decide)) false
  -- The mark takes the closing quote with it, and the opening one alone is no value.
  have kept : Text.stripComment false (lineOf (name, .char '#')).toList =
      name.toList ++ [' ', '=', ' ', '\''] := by
    rw [line]
    refine Text.stripComment_append_mark ?_ ?_ _
    · rw [Text.uncommented_append, outside]
      exact ⟨Text.uncommented_of_not_mem (unmarked '#' (by decide)) false, rfl⟩
    · rw [Text.quotedAfter_append, outside]
      rfl
  have trimmed : Text.trim (name.toList ++ [' ', '=', ' ', '\'']) =
      (name.toList ++ [' ']) ++ '=' :: [' ', '\''] := by
    have first : ∀ c ∈ (name.toList ++ [' ']).head?, Text.isBlank c = false := by
      cases shape : name.toList with
      | nil => exact absurd (String.toList_eq_nil_iff.1 shape) word.1
      | cons d rest =>
        intro c mem
        obtain rfl := Option.some.inj mem
        exact word.2 d (shape ▸ List.mem_cons_self)
    have shape := Text.trim_append_cons (c := '=') rfl (name.toList ++ [' ']) [' ', '\'']
    rw [Text.dropWhile_eq_self first, List.append_assoc] at shape
    exact shape
  have new : '=' ∉ name.toList ++ [' '] := by
    rw [List.mem_append, not_or]
    exact ⟨unmarked '=' (by decide), by decide⟩
  have name' : Text.trim (name.toList ++ [' ']) = name.toList := by
    rw [Text.trim_concat rfl, (Text.trimmed_of_not_blank word.2).trim_eq]
  have none : readValue name.toList [' ', '\''] = none := rfl
  unfold readLine
  dsimp only
  rw [kept, trimmed, if_neg (by simp), Text.splitFirst_append new]
  dsimp only
  rw [name', none]
  dsimp only
  rw [String.ofList_toList]

/-- Lines are read up to the first one that is refused. -/
theorem readLines_refused {path : String} {number : Nat} {es : List (String × SettingValue)}
    {line : List Char} {rest : List (List Char)} {fault : ParseFault} {s : Settings}
    (known : ∀ e ∈ es, Legible e) (refused : readLine line = .error fault) :
    readLines path number ((es.map fun e => (lineOf e).toList) ++ line :: rest) s =
      .error (.parse path (number + es.length) fault) := by
  induction es generalizing number s with
  | nil =>
    rw [List.map_nil, List.nil_append, readLines, refused]
    rfl
  | cons e es ih =>
    obtain ⟨first, others⟩ := List.forall_mem_cons.1 known
    rw [List.map_cons, List.cons_append, readLines, first.reads, List.length_cons]
    dsimp only
    rw [ih others, Nat.add_right_comm, Nat.add_assoc]

/-- Where lines are read, each of them is. -/
theorem exists_of_readLines {path : String} {number : Nat} {lines : List (List Char)}
    {s t : Settings} (read : readLines path number lines s = .ok t) {line : List Char}
    (mem : line ∈ lines) : ∃ e, readLine line = .ok e := by
  induction lines generalizing number s with
  | nil => exact absurd mem List.not_mem_nil
  | cons first lines ih =>
    rw [readLines] at read
    rcases List.mem_cons.1 mem with rfl | later
    · split at read
      · cases read
      · exact ⟨_, ‹_›⟩
      · exact ⟨_, ‹_›⟩
    · split at read
      · cases read
      · exact ih read later
      · exact ih read later

/-! ### Texts -/

/-- A character is listed among the settings. -/
theorem mem_toList_of_mem_chars {s : Settings} {e : String × Char} (mem : e ∈ s.chars) :
    (e.1, .char e.2) ∈ s.toList :=
  List.mem_flatMap.2 ⟨.char, SettingKind.mem_all .char, List.mem_map.2 ⟨e, mem, rfl⟩⟩

/-- A setting with a character for its value is listed among the characters. -/
theorem mem_chars_of_mem_toList {s : Settings} {e : String × SettingValue} {c : Char}
    (mem : e ∈ s.toList) (value : e.2 = .char c) : (e.1, c) ∈ s.chars := by
  obtain ⟨k, -, inside⟩ := List.mem_flatMap.1 mem
  obtain rfl : k = .char := (kind_of_mem_list inside).symm.trans (congrArg SettingValue.kind value)
  obtain ⟨f, listed, rfl⟩ := List.mem_map.1 inside
  obtain rfl := SettingValue.char.inj value
  exact listed

/-- **Settings that were built survive as a text** if none of them is the character that begins a
comment, and only then.  Else the line of the first such character is refused. -/
theorem ofText_toText_eq_ok_iff {s : Settings} (h : s.Tellable) (path : String) :
    (ofText path (toText s) = .ok s ↔ ∀ e ∈ s.chars, e.2 ≠ '#') ∧
    ∀ before name after, s.toList = before ++ (name, .char '#') :: after →
      (∀ e ∈ before, e.2 ≠ .char '#') →
      ofText path (toText s) = .error (.parse path (before.length + 1) (.settingValue name)) := by
  have lines := linesOf_toText (fun e mem => h.whole_line mem) fun e mem => h.last_line mem
  have stops : ∀ before name after, s.toList = before ++ (name, .char '#') :: after →
      (∀ e ∈ before, e.2 ≠ .char '#') →
      ofText path (toText s) = .error (.parse path (before.length + 1) (.settingValue name)) := by
    intro before name after split others
    have known : ∀ e ∈ before, Legible e := fun e mem =>
      h.legible (split ▸ List.mem_append_left _ mem) (others e mem)
    have refused := readLine_mark
      (h.names (name, .char '#') (split ▸ List.mem_append_right _ List.mem_cons_self))
    unfold ofText
    rw [lines, split, List.map_append, List.map_cons, readLines_refused known refused,
      Nat.add_comm]
  refine ⟨⟨fun read e mem same => ?_, fun others => ?_⟩, stops⟩
  · have listed := mem_toList_of_mem_chars mem
    rw [same] at listed
    unfold ofText at read
    rw [lines] at read
    obtain ⟨found, line⟩ := exists_of_readLines read (List.mem_map_of_mem listed)
    rw [readLine_mark (h.names _ listed)] at line
    cases line
  · have known : ∀ e ∈ s.toList, Legible e := fun e mem =>
      h.legible mem fun value => others _ (mem_chars_of_mem_toList mem value) rfl
    unfold ofText
    rw [lines, readLines_lineOf known, foldl_push_toList]

/-- All kinds of settings, at the ends of their ranges and with quotes at unusual places. -/
def builtSettings : Settings where
  bools := [("presolve", false)]
  ints := [("lp/threads", -2147483648)]
  longs := [("seed", 2147483648), ("past", -9223372036854775808)]
  doubles := [("limits/gap", 0.1), ("step", 1e16)]
  chars := [("quote", '\''), ("double", '"'), ("blank", ' '), ("return", '\r')]
  strings := [("title", " # 'TRUE' = \r"), ("nothing", "")]
  limits := [("limits/nodes", -1)]

/-- The example is read back as it was built. -/
theorem ofText_toText_built : builtSettings.Tellable ∧ (∀ e ∈ builtSettings.chars, e.2 ≠ '#') ∧
    ofText "built.set" (toText builtSettings) = .ok builtSettings := by
  have tellable : builtSettings.Tellable := by
    constructor <;> decide +kernel
  have others : ∀ e ∈ builtSettings.chars, e.2 ≠ '#' := by decide
  exact ⟨tellable, others, (ofText_toText_eq_ok_iff tellable "built.set").1.2 others⟩

/-- **A character is lost:** the text of these settings is not read. -/
theorem not_ofText_toText_mark : ¬∀ s : Settings, s.Tellable →
    ofText "built.set" (toText s) = .ok s := by
  intro survives
  have tellable : Tellable { chars := [("mark", '#')] } := by
    constructor <;> decide +kernel
  have refused : ofText "built.set" (toText { chars := [("mark", '#')] }) =
      .error (.parse "built.set" 1 (.settingValue "mark")) := by
    with_unfolding_all rfl
  have read := survives _ tellable
  rw [refused] at read
  cases read

end Settings
end MipShrink
