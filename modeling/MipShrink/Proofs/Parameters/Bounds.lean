/-
# The bounds of parameters

A number is refused when its double is below the lower bound of its parameter or above the upper
one.  Two kinds of values slip through such a test (`Bounds.Slips`): what is no number is neither
below anything nor above it, and an integer of more than 53 digits can have the double of a bound
that it exceeds.  All other values of a parameter lie in the bounds that it was registered with,
whatever calls were made and whether they succeeded or not (`ParameterSet.bounds_of_edits`).

So a tolerance of a run is between zero and one or no number, and a line of a parameter file is
enough for the latter (`ParameterSet.not_contain_of_edits`).  In exact arithmetic it then counts as
zero, which is between them again (`Parameters.magnitude_bounds`).
-/

import MipShrink.Proofs.Decimal.Integers
import MipShrink.Proofs.Parameters.Assignments
import MipShrink.Proofs.Tolerance.Exact

namespace MipShrink

open Grammar (Fits)
open ParamValue (doubleOf doubleOf_mono le_of_doubleOf_le not_doubleOf_lt)

/-! ### Texts of numbers -/

namespace ParamValue

variable {t : List Char} {v : ParamValue}

/-- A parameter with an integer of 32 bits reads such integers. -/
theorem readLike_int_eq_ok_iff {n : Int} : (int n).readLike t = .ok v ↔
    ∃ k, Grammar.word? 32 t = some k ∧ int k = v := by
  rw [readLike]
  dsimp only
  cases Grammar.word? 32 t with
  | none => simp
  | some k => simp

/-- A parameter with an integer of 64 bits reads such integers. -/
theorem readLike_long_eq_ok_iff {n : Int} : (long n).readLike t = .ok v ↔
    ∃ k, Grammar.word? 64 t = some k ∧ long k = v := by
  rw [readLike]
  dsimp only
  cases Grammar.word? 64 t with
  | none => simp
  | some k => simp

/-- A parameter with a double reads the texts of doubles. -/
theorem readLike_double_eq_ok_iff {x : Float} : (double x).readLike t = .ok v ↔
    ∃ b, Grammar.double? t = some b ∧ double b.toFloat = v := by
  rw [readLike]
  dsimp only
  cases Grammar.double? t with
  | none => simp
  | some b => simp

/-- An integer is read from its text. -/
theorem word?_intText {bits : Nat} {k : Int} (fits : Fits bits k) :
    Grammar.word? bits (Text.trim (SettingValue.intText k).toList) = some k := by
  rw [SettingValue.intText, String.toList_ofList, (Layout.numeric_ofInt k).trimmed.trim_eq]
  exact Grammar.word?_eq_some_iff_fits.2 ⟨Grammar.int?_ofInt k, fits⟩

/-- A double is read from its text. -/
theorem double?_doubleText (y : Float) :
    Grammar.double? (Text.trim (doubleText y).toList) = some (Binary64.ofFloat y) := by
  rw [doubleText, (Layout.numeric_plain _).trimmed.trim_eq]
  exact Layout.double?_plain (Binary64.encoded_ofFloat y)

end ParamValue

/-! ### Bounds -/

/-- The bounds that a number is registered with, in its own type. -/
inductive Bounds where
  | int (low high : Int)
  | long (low high : Int)
  | double (low high : Float)

namespace Bounds

/-- **The value lies in the bounds**, compared in its own type. -/
def Contain : Bounds → ParamValue → Prop
  | int low high, .int v => low ≤ v ∧ v ≤ high
  | long low high, .long v => low ≤ v ∧ v ≤ high
  | double low high, .double y => low ≤ y ∧ y ≤ high
  | _, _ => False

/-- **What slips through the bounds.**  What is no number is on neither side of them, and of an
integer only the double is compared: it may be that of a bound of more than 53 digits. -/
inductive Slips : Bounds → ParamValue → Prop where
  | nan (low high : Float) {y : Float} (none : y.isNaN = true) : Slips (double low high) (.double y)
  | below {low v : Int} (high : Int) (fits : Fits 64 v) (out : v < low)
      (rounded : doubleOf low ≤ doubleOf v)
      (large : low ≤ -9007199254740992 ∨ 9007199254740992 < low) :
      Slips (.long low high) (.long v)
  | above (low : Int) {high v : Int} (fits : Fits 64 v) (out : high < v)
      (rounded : doubleOf v ≤ doubleOf high)
      (large : high < -9007199254740992 ∨ 9007199254740992 ≤ high) :
      Slips (.long low high) (.long v)

end Bounds

namespace Parameter

open ParameterSet

/-- **A parameter as it is registered**, with a default value in its bounds. -/
inductive Registered : Parameter → Bounds → Prop where
  | int (description : String) {n low high : Int} (least : Fits 32 low) (greatest : Fits 32 high)
      (lower : low ≤ n) (upper : n ≤ high) :
      Registered (intParam description n low high) (.int low high)
  | long (description : String) {n low high : Int} (least : Fits 64 low)
      (greatest : Fits 64 high) (lower : low ≤ n) (upper : n ≤ high) :
      Registered (longParam description n low high) (.long low high)
  | double (description : String) {x low high : Float} (lower : low ≤ x) (upper : x ≤ high) :
      Registered (doubleParam description x low high) (.double low high)

variable {p : Parameter} {b : Bounds} {v : ParamValue} {text : List Char}

/-- The default value is in the bounds. -/
theorem Registered.contain (registered : p.Registered b) : b.Contain p.value := by
  cases registered with
  | int description least greatest lower upper => exact ⟨lower, upper⟩
  | long description least greatest lower upper => exact ⟨lower, upper⟩
  | double description lower upper => exact ⟨lower, upper⟩

/-- A value is read if the trimmed text has it and the bounds do not reject it. -/
theorem reading_eq_ok_iff : p.reading text = .ok v ↔
    p.value.readLike (Text.trim text) = .ok v ∧ p.rejects v = false := by
  unfold reading
  constructor
  · intro read
    split at read
    · cases read
    · rename_i w like
      split at read
      · cases read
      · rename_i admitted
        cases read
        exact ⟨like, Bool.not_eq_true _ ▸ admitted⟩
  · rintro ⟨like, admitted⟩
    rw [like]
    dsimp only
    rw [admitted]
    rfl

/-- A number is rejected exactly if its double is below the lower bound or above the upper one. -/
theorem rejects_eq_false_iff {x : Float} (number : v.number? = some x) :
    p.rejects v = false ↔ ¬x < p.low ∧ ¬p.high < x := by
  unfold rejects
  rw [number]
  simp

/-- Bounds that are integers are compared as doubles. -/
theorem rejects_eq_false_iff_rounded {low high k : Int} (number : v.number? = some (doubleOf k))
    (lower : p.low = doubleOf low) (upper : p.high = doubleOf high) :
    p.rejects v = false ↔ doubleOf low ≤ doubleOf k ∧ doubleOf k ≤ doubleOf high := by
  rw [rejects_eq_false_iff number, lower, upper, not_doubleOf_lt, not_doubleOf_lt]

/-- **What a text gives a parameter** lies in the bounds, or slips through them. -/
theorem Registered.reading (registered : p.Registered b) (read : p.reading text = .ok v) :
    b.Contain v ∨ b.Slips v := by
  obtain ⟨like, admitted⟩ := reading_eq_ok_iff.1 read
  cases registered with
  | @int description n low high least greatest lower upper =>
    obtain ⟨k, integer, rfl⟩ := ParamValue.readLike_int_eq_ok_iff.1 like
    obtain ⟨above, below⟩ := (rejects_eq_false_iff_rounded rfl rfl rfl).1 admitted
    obtain ⟨-, small, large⟩ := Grammar.word?_eq_some_iff_fits.1 integer
    have pow : Nat.pow 2 (32 - 1) = 2147483648 := rfl
    rw [pow] at small large
    -- All integers of 32 bits are doubles.
    exact .inl ⟨le_of_doubleOf_le above (by omega) (by omega),
      le_of_doubleOf_le below (by omega) (by omega)⟩
  | @long description n low high least greatest lower upper =>
    obtain ⟨k, integer, rfl⟩ := ParamValue.readLike_long_eq_ok_iff.1 like
    obtain ⟨above, below⟩ := (rejects_eq_false_iff_rounded rfl rfl rfl).1 admitted
    obtain ⟨-, fits⟩ := Grammar.word?_eq_some_iff_fits.1 integer
    rcases Int.lt_or_le k low with out | lower
    · refine .inr (.below high fits out above ?_)
      by_contra short
      exact out.not_ge (le_of_doubleOf_le above (by omega) (by omega))
    rcases Int.lt_or_le high k with out | upper
    · refine .inr (.above low fits out below ?_)
      by_contra short
      exact out.not_ge (le_of_doubleOf_le below (by omega) (by omega))
    · exact .inl ⟨lower, upper⟩
  | @double description x low high lower upper =>
    obtain ⟨y, decimal, rfl⟩ := ParamValue.readLike_double_eq_ok_iff.1 like
    obtain ⟨above, below⟩ := (rejects_eq_false_iff rfl).1 admitted
    have bound : ¬low.isNaN = true := Bool.eq_false_iff.1 (Binary64.isNaN_of_le lower).1
    have bound' : ¬high.isNaN = true := Bool.eq_false_iff.1 (Binary64.isNaN_of_le upper).2
    rcases Binary64.not_lt_iff.1 above with none | none | above
    · exact .inr (.nan low high none)
    · exact absurd none bound
    rcases Binary64.not_lt_iff.1 below with none | none | below
    · exact absurd none bound'
    · exact .inr (.nan low high none)
    · exact .inl ⟨above, below⟩

/-- **All these values have texts:** those in which they are shown. -/
theorem Registered.reading_text (registered : p.Registered b) (kept : b.Contain v ∨ b.Slips v) :
    p.reading v.text.toList = .ok v := by
  refine reading_eq_ok_iff.2 ?_
  cases registered with
  | @int description n low high least greatest lower upper =>
    rcases kept with inside | slips
    · cases v with
      | int k =>
        obtain ⟨above, below⟩ := inside
        have fits : Fits 32 k := ⟨least.1.trans above, below.trans_lt greatest.2⟩
        exact ⟨ParamValue.readLike_int_eq_ok_iff.2 ⟨k, ParamValue.word?_intText fits, rfl⟩,
          (rejects_eq_false_iff_rounded rfl rfl rfl).2 ⟨doubleOf_mono above, doubleOf_mono below⟩⟩
      | _ => exact inside.elim
    · cases slips
  | @long description n low high least greatest lower upper =>
    -- In the bounds or not, it is enough that the integer fits and that its double is in them.
    have enough {k : Int} (fits : Fits 64 k) (above : doubleOf low ≤ doubleOf k)
        (below : doubleOf k ≤ doubleOf high) :
        (ParamValue.long n).readLike (Text.trim (ParamValue.long k).text.toList) = .ok (.long k) ∧
          (longParam description n low high).rejects (.long k) = false :=
      ⟨ParamValue.readLike_long_eq_ok_iff.2 ⟨k, ParamValue.word?_intText fits, rfl⟩,
        (rejects_eq_false_iff_rounded rfl rfl rfl).2 ⟨above, below⟩⟩
    rcases kept with inside | slips
    · cases v with
      | long k =>
        obtain ⟨above, below⟩ := inside
        exact enough ⟨least.1.trans above, below.trans_lt greatest.2⟩ (doubleOf_mono above)
          (doubleOf_mono below)
      | _ => exact inside.elim
    · have order := lower.trans upper
      cases slips with
      | below high fits out rounded large =>
        exact enough fits rounded (doubleOf_mono (out.le.trans order))
      | above low fits out rounded large =>
        exact enough fits (doubleOf_mono (order.trans out.le)) rounded
  | @double description x low high lower upper =>
    -- A number in the bounds is not out of them, and what is no number is neither.
    have enough {y : Float} (above : ¬y < low) (below : ¬high < y) :
        (ParamValue.double x).readLike (Text.trim (ParamValue.double y).text.toList) =
            .ok (.double y) ∧
          (doubleParam description x low high).rejects (.double y) = false :=
      ⟨ParamValue.readLike_double_eq_ok_iff.2 ⟨_, ParamValue.double?_doubleText y,
        congrArg _ (Binary64.toFloat_ofFloat y)⟩, (rejects_eq_false_iff rfl).2 ⟨above, below⟩⟩
    rcases kept with inside | slips
    · cases v with
      | double y =>
        obtain ⟨above, below⟩ := inside
        exact enough (Binary64.not_lt_iff.2 (.inr (.inr above)))
          (Binary64.not_lt_iff.2 (.inr (.inr below)))
      | _ => exact inside.elim
    · cases slips with
      | nan low high none =>
        exact enough (Binary64.not_lt_iff.2 (.inl none)) (Binary64.not_lt_iff.2 (.inr (.inl none)))

/-- **What is read as no number is a value of every double parameter**, whatever its bounds. -/
theorem reading_nan {negative : Bool}
    (read : Grammar.double? (Text.trim text) = some (.nan negative)) (description : String)
    (x low high : Float) : ∃ y, y.isNaN = true ∧
      (doubleParam description x low high).reading text = .ok (.double y) := by
  have none : (Binary64.nan negative).toFloat.isNaN = true := by
    cases negative <;> decide
  refine ⟨_, none, reading_eq_ok_iff.2
    ⟨ParamValue.readLike_double_eq_ok_iff.2 ⟨_, read, rfl⟩, (rejects_eq_false_iff rfl).2 ?_⟩⟩
  exact ⟨Binary64.not_lt_iff.2 (.inl none), Binary64.not_lt_iff.2 (.inr (.inl none))⟩

end Parameter

/-! ### Calls -/

namespace ParameterSet

/-- **A call that may change values.** -/
inductive Edit where
  /-- Set a parameter from a text. -/
  | text (name : String) (text : List Char)
  /-- Read a parameter file, which may not be readable. -/
  | file (content : Option String)
  /-- Use arguments up to the first wrong one. -/
  | arguments (args : List String)

/-- The set after a call, whether it succeeds or not. -/
def edit (s : ParameterSet) : Edit → ParameterSet
  | .text name text => s.attempt (name, text)
  | .file none => s
  | .file (some content) => s.useText content
  | .arguments args => (s.useOverrides args).1

/-- A file that is there is read. -/
theorem edit_file (s : ParameterSet) (content : String) :
    s.edit (.file (some content)) = s.useText content := rfl

variable {s s' : ParameterSet} {as : List (String × List Char)}

/-- **A call makes assignments**, and nothing else. -/
theorem Assigned.edit (h : s.Assigned as s') (e : Edit) : ∃ bs, s.Assigned bs (s'.edit e) := by
  cases e with
  | text name text => exact ⟨_, h.attempt (name, text)⟩
  | file content =>
    cases content with
    | none => exact ⟨as, h⟩
    | some content =>
      refine ⟨as ++ lineAssignments content, ?_⟩
      rw [edit_file, useText_eq]
      exact h.foldl _
  | arguments args =>
    refine ⟨as ++ argAssignments (s.usable args), ?_⟩
    show s.Assigned _ (s'.useOverrides args).1
    rw [h.useOverrides_eq]
    exact h.foldl _

/-- **A run of calls makes assignments.** -/
theorem exists_assigned (s : ParameterSet) (edits : List Edit) :
    ∃ as, s.Assigned as (edits.foldl edit s) := by
  have all (as : List (String × List Char)) (s' : ParameterSet) (h : s.Assigned as s') :
      ∃ bs, s.Assigned bs (edits.foldl ParameterSet.edit s') := by
    induction edits generalizing as s' with
    | nil => exact ⟨as, h⟩
    | cons e edits ih =>
      obtain ⟨bs, next⟩ := h.edit e
      exact ih bs _ next
  exact all [] s s.assigned_nil

/-- **A parameter stays within its bounds or slips through them**, whatever is done to the set. -/
theorem get?_edits {key : String} {p : Parameter} {b : Bounds} (found : s.find? key = some p)
    (registered : p.Registered b) (edits : List Edit) :
    ∃ v, (edits.foldl edit s).get? key = some v ∧ (b.Contain v ∨ b.Slips v) := by
  obtain ⟨as, assigned⟩ := s.exists_assigned edits
  refine ⟨(p.lastValue? key as).getD p.value, ?_, ?_⟩
  · unfold get?
    rw [assigned key, found]
    rfl
  · cases last : p.lastValue? key as with
    | none => exact .inl registered.contain
    | some v =>
      obtain ⟨text, read⟩ := Parameter.exists_reading_of_lastValue? last
      exact registered.reading read

/-- A text that reads gives its value to the parameter. -/
theorem get?_attempt {key : String} {p : Parameter} {text : List Char} {v : ParamValue}
    (found : s.find? key = some p) (read : p.reading text = .ok v) :
    (s.attempt (key, text)).get? key = some v := by
  rw [get?, find?_attempt, if_pos rfl, found, Option.map_some, Option.map_some, read]
  rfl

end ParameterSet

/-! ### The tolerances of a run -/

namespace Parameters

open ParameterSet

/-- Behind a step that was successful the rest was. -/
theorem exists_of_bind_eq_ok {β γ : Type} {x : Except Error β} {f : β → Except Error γ} {c : γ}
    (h : (x >>= f) = .ok c) : ∃ a, x = .ok a ∧ f a = .ok c := by
  cases x with
  | error e => cases h
  | ok a => exact ⟨a, rfl, h⟩

/-- The tolerances are those of the set. -/
theorem getDouble_of_ofSet {s : ParameterSet} {p : Parameters} (made : ofSet s = .ok p) :
    s.getDouble "numerics.epsilon" = .ok p.epsilon ∧
      s.getDouble "numerics.feastol" = .ok p.feasibility ∧
      s.getDouble "numerics.zeta" = .ok p.admissibility := by
  unfold ofSet at made
  obtain ⟨mode, -, made⟩ := exists_of_bind_eq_ok made
  obtain ⟨emphasis, -, made⟩ := exists_of_bind_eq_ok made
  obtain ⟨text, -, made⟩ := exists_of_bind_eq_ok made
  obtain ⟨passCodes, -, made⟩ := exists_of_bind_eq_ok made
  obtain ⟨enabled, -, made⟩ := exists_of_bind_eq_ok made
  obtain ⟨timeLimit, -, made⟩ := exists_of_bind_eq_ok made
  obtain ⟨batches, -, made⟩ := exists_of_bind_eq_ok made
  obtain ⟨expenditure, -, made⟩ := exists_of_bind_eq_ok made
  obtain ⟨firstRound, -, made⟩ := exists_of_bind_eq_ok made
  obtain ⟨firstStage, -, made⟩ := exists_of_bind_eq_ok made
  obtain ⟨maxRounds, -, made⟩ := exists_of_bind_eq_ok made
  obtain ⟨maxStages, -, made⟩ := exists_of_bind_eq_ok made
  obtain ⟨debugFile, -, made⟩ := exists_of_bind_eq_ok made
  obtain ⟨checkpoint, -, made⟩ := exists_of_bind_eq_ok made
  obtain ⟨compress, -, made⟩ := exists_of_bind_eq_ok made
  obtain ⟨epsilon, first, made⟩ := exists_of_bind_eq_ok made
  obtain ⟨feasibility, second, made⟩ := exists_of_bind_eq_ok made
  obtain ⟨admissibility, third, made⟩ := exists_of_bind_eq_ok made
  cases made
  exact ⟨first, second, third⟩

/-- A double parameter between zero and one is read as such a number, or as none. -/
theorem getDouble_edits {s : ParameterSet} {name description : String} {x t : Float}
    (found : s.find? name = some (doubleParam description x 0 1)) (lower : 0 ≤ x) (upper : x ≤ 1)
    {edits : List Edit} (read : (edits.foldl edit s).getDouble name = .ok t) :
    t.isNaN = true ∨ 0 ≤ t ∧ t ≤ 1 := by
  obtain ⟨v, value, kept⟩ := get?_edits found (.double description lower upper) edits
  unfold getDouble ParameterSet.get at read
  rw [value] at read
  rcases kept with inside | slips
  · cases v with
    | double y =>
      cases read
      exact .inr inside
    | _ => exact inside.elim
  · cases slips with
    | nan low high none =>
      cases read
      exact .inl none

/-- **The exact tolerance of a double between zero and one** lies there, and so does that of what is
no number, which is zero. -/
theorem magnitude_bounds {t : Float} (kept : t.isNaN = true ∨ 0 ≤ t ∧ t ≤ 1) :
    0 ≤ (Tolerance.ofDoubles.magnitude (Binary64.ofFloat t) : ℚ) ∧
      (Tolerance.ofDoubles.magnitude (Binary64.ofFloat t) : ℚ) ≤ 1 := by
  refine ⟨Tolerance.magnitude_nonneg _, ?_⟩
  show ((Binary64.ofFloat t).magnitude.toRat?).getD 0 ≤ 1
  rcases kept with none | ⟨lower, upper⟩
  · obtain ⟨negative, none⟩ := Binary64.rank?_eq_none_iff.1 (Binary64.isNaN_iff_rank.1 none)
    rw [none]
    exact zero_le_one
  · have zero : (Binary64.ofFloat 0).toRat? = some 0 := by decide +kernel
    have one : (Binary64.ofFloat 1).toRat? = some 1 := by decide +kernel
    obtain ⟨r, value, least, greatest⟩ := Binary64.exists_value lower upper zero one
    cases shape : Binary64.ofFloat t with
    | nan negative => exact zero_le_one
    | infinite negative => exact zero_le_one
    | finite negative m e =>
      rw [shape, Binary64.toRat?_finite, Option.some.injEq] at value
      show ((Binary64.finite false m e).toRat?).getD 0 ≤ 1
      rw [Binary64.toRat?_finite]
      show (m * 2 ^ e : ℚ) ≤ 1
      cases negative with
      | false => exact value.le.trans greatest
      | true =>
        have value : -(m * 2 ^ e : ℚ) = r := value
        linarith

end Parameters

namespace ParameterSet

/-- Calls of each kind, some of which fail. -/
def sampleEdits : List Edit :=
  [.text "bugger.mode" "7".toList, .file (some "numerics.zeta = 0.5\nbugger.nbatches = 9\n"),
    .file none, .arguments ["--bugger.mode=1", "bugger.mode=0"]]

/-- A single call, of a file. -/
theorem foldl_edit_file (s : ParameterSet) (content : String) :
    [Edit.file (some content)].foldl edit s = s.useText content := rfl

/-- A parameter file that makes a tolerance what is no number. -/
def nanLine : String := "numerics.feastol = nan\n"

/-- The line assigns the text `nan` to the feasibility tolerance. -/
theorem lineAssignments_nanLine :
    lineAssignments nanLine = [("numerics.feastol", " nan".toList)] := by
  decide +kernel

/-- After this line the feasibility tolerance is no number. -/
theorem get?_nanLine : ∃ y, y.isNaN = true ∧
    (Parameters.registry.useText nanLine).get? "numerics.feastol" = some (.double y) := by
  have read : Grammar.double? (Text.trim " nan".toList) = some (.nan false) := by decide
  obtain ⟨y, none, given⟩ := Parameter.reading_nan read "feasibility tolerance" 1e-6 0 1
  have default : Parameters.registry.find? "numerics.feastol" = some _ :=
    Parameters.find?_registerIn? Parameters.registerIn?_empty "numerics.feastol"
  rw [useText_eq, lineAssignments_nanLine, List.foldl_cons, List.foldl_nil]
  exact ⟨y, none, get?_attempt default given⟩

/-- The parameters of a run can be made from this file. -/
theorem exists_ofSet_nanLine :
    ∃ p, Parameters.ofSet (Parameters.registry.useText nanLine) = .ok p := by
  have defaults := Parameters.find?_registerIn? Parameters.registerIn?_empty
  have assigned := Parameters.registry.assigned_useText nanLine
  obtain ⟨text, value, answers⟩ := Parameters.ofSet_answers fun name p here =>
    assigned.typeName_get? (by rw [defaults, here]; rfl)
  have codes : (Parameters.registry.useText nanLine).get? "bugger.passcodes" =
      some (.string "") := by
    rw [get?, assigned "bugger.passcodes", lineAssignments_nanLine, defaults]
    rfl
  cases value.symm.trans codes
  exact answers

/-- **The values that parameters can have.**  Whatever calls are made on a set, and whether they
succeed or not, the value of a number that was registered with a default value in its bounds stays
in these bounds or slips through them, and a single call is enough for each such value.  So each
tolerance of a run is between zero and one or is no number, and an exact one always lies there. -/
theorem bounds_of_edits (s : ParameterSet) :
    (∀ key p b, s.find? key = some p → p.Registered b →
      (∀ edits : List Edit, ∃ v, (edits.foldl edit s).get? key = some v ∧
        (b.Contain v ∨ b.Slips v)) ∧
      ∀ v, b.Contain v ∨ b.Slips v →
        (s.edit (.text key v.text.toList)).get? key = some v) ∧
    ∀ base (edits : List Edit) p, Parameters.registerIn? base = some s →
      Parameters.ofSet (edits.foldl edit s) = .ok p →
      (∀ t ∈ [p.epsilon, p.feasibility, p.admissibility], t.isNaN = true ∨ 0 ≤ t ∧ t ≤ 1) ∧
      let exact : Tolerance ℚ := p.tolerance
      ∀ t ∈ [exact.epsilon, exact.feasibility, exact.admissibility], 0 ≤ t ∧ t ≤ 1 := by
  refine ⟨fun key p b found registered => ⟨get?_edits found registered,
    fun v kept => get?_attempt found (registered.reading_text kept)⟩,
    fun base edits p registered made => ?_⟩
  have defaults := Parameters.find?_registerIn? registered
  obtain ⟨first, second, third⟩ := Parameters.getDouble_of_ofSet made
  have first := Parameters.getDouble_edits (defaults "numerics.epsilon") (by decide +kernel)
    (by decide +kernel) first
  have second := Parameters.getDouble_edits (defaults "numerics.feastol") (by decide +kernel)
    (by decide +kernel) second
  have third := Parameters.getDouble_edits (defaults "numerics.zeta") (by decide +kernel)
    (by decide +kernel) third
  constructor
  · simp only [List.forall_mem_cons]
    exact ⟨first, second, third, by simp⟩
  · intro exact
    simp only [List.forall_mem_cons]
    exact ⟨Parameters.magnitude_bounds first, Parameters.magnitude_bounds second,
      Parameters.magnitude_bounds third, by simp⟩

/-- The hypotheses are those of the parameters of a run. -/
theorem bounds_of_edits_sample :
    (∃ v, (sampleEdits.foldl edit Parameters.registry).get? "bugger.mode" = some v ∧
      ((Bounds.int (-1) 1).Contain v ∨ (Bounds.int (-1) 1).Slips v)) ∧
    (Parameters.registry.edit (.text "bugger.nbatches" "7".toList)).get? "bugger.nbatches" =
      some (.long 7) ∧
    (∃ v, (sampleEdits.foldl edit Parameters.registry).get? "numerics.zeta" = some v ∧
      ((Bounds.double 0 1).Contain v ∨ (Bounds.double 0 1).Slips v)) ∧
    ∃ p, Parameters.ofSet (Parameters.registry.useText nanLine) = .ok p ∧
      let exact : Tolerance ℚ := p.tolerance
      ∀ t ∈ [exact.epsilon, exact.feasibility, exact.admissibility], 0 ≤ t ∧ t ≤ 1 := by
  have defaults := Parameters.find?_registerIn? Parameters.registerIn?_empty
  obtain ⟨kept, tolerances⟩ := bounds_of_edits Parameters.registry
  obtain ⟨p, made⟩ := exists_ofSet_nanLine
  have tolerances := tolerances _ [.file (some nanLine)] p Parameters.registerIn?_empty
  rw [foldl_edit_file] at tolerances
  have mode := kept _ _ _ (defaults "bugger.mode")
    (.int _ (by decide) (by decide) (by decide) (by decide))
  have batches := kept _ _ _ (defaults "bugger.nbatches")
    (.long _ (by decide) (by decide) (by decide) (by decide))
  have zeta := kept _ _ _ (defaults "numerics.zeta")
    (.double _ (by decide +kernel) (by decide +kernel))
  have seven := batches.2 (.long 7) (.inl ⟨by decide, by decide⟩)
  have shown : (ParamValue.long 7).text.toList = "7".toList := by decide
  rw [shown] at seven
  exact ⟨mode.1 sampleEdits, seven, zeta.1 sampleEdits, p, made, (tolerances made).2⟩

/-- The first integer of more than 53 digits passes a bound that is one less. -/
example : ((empty.insert "nodes" (longParam "" 0 0 9007199254740992)).edit
    (.text "nodes" "9007199254740993".toList)).get? "nodes" = some (.long 9007199254740993) := by
  rfl

/-- **Numbers do not always stay in their bounds:** a parameter file makes a tolerance what is no
number. -/
theorem not_contain_of_edits :
    (¬∀ (s : ParameterSet) (edits : List Edit) (key : String) (p : Parameter) (b : Bounds),
      s.find? key = some p → p.Registered b →
        ∃ v, (edits.foldl edit s).get? key = some v ∧ b.Contain v) ∧
    ¬∀ (edits : List Edit) (p : Parameters),
      Parameters.ofSet (edits.foldl edit Parameters.registry) = .ok p →
        0 ≤ p.feasibility ∧ p.feasibility ≤ 1 := by
  have default := Parameters.find?_registerIn? Parameters.registerIn?_empty "numerics.feastol"
  obtain ⟨y, none, value⟩ := get?_nanLine
  obtain ⟨p, made⟩ := exists_ofSet_nanLine
  have outside : ¬0 ≤ y := fun lower => by
    rw [(Binary64.isNaN_of_le lower).2] at none
    cases none
  constructor
  · intro stays
    obtain ⟨v, value', inside⟩ := stays Parameters.registry [.file (some nanLine)] _ _ _ default
      (.double _ (by decide +kernel : (0 : Float) ≤ 1e-6) (by decide +kernel : (1e-6 : Float) ≤ 1))
    rw [foldl_edit_file] at value'
    obtain rfl := Option.some.inj (value.symm.trans value')
    exact outside inside.1
  · intro stays
    have read := (Parameters.getDouble_of_ofSet made).2.1
    rw [getDouble, ParameterSet.get, value] at read
    have same : y = p.feasibility := Except.ok.inj read
    rw [← foldl_edit_file] at made
    exact outside (same ▸ (stays _ p made).1)

end ParameterSet
end MipShrink
