/-
# What a run leaves alone

A run touches much less than all of an instance.  The reference, the names, the sense, the number
of rows and columns and the attributes that tell which columns are integral or inactive stay as
they are.  Rows and columns are marked, sides and bounds become finite, and coefficients disappear;
none of this is ever undone.  Settings keep their kinds, names and places, and each has its old
value or the one of the target (`Instance.Framed`).

So positions mean the same throughout a run, on which the reference, the target settings and the
oracle rely (`Run.framed_throughout`).  Between one call and the next only one part of the instance
changes: the settings if the module is `setting`, and else the program.
-/

import MipShrink.Proofs.Reduction.Changes
import MipShrink.Proofs.Settings.Approach
import MipShrink.Proofs.Throughout.Invariance

namespace MipShrink

/-! ### Rows -/

namespace Row

/-- What stays of the row `r` when it becomes `r'`. -/
structure Framed {α : Type} (r r' : Row α) : Prop where
  name : r'.name = r.name
  redundant : r.isRedundant = true → r'.isRedundant = true
  lhsInf : r'.flags.lhsInf = true → r.flags.lhsInf = true
  rhsInf : r'.flags.rhsInf = true → r.flags.rhsInf = true
  /-- Coefficients are stored in columns only in which there has been one. -/
  columns : r'.coeffs.map Prod.fst ⊆ r.coeffs.map Prod.fst

variable {α : Type}

/-- A row stays within its own frame. -/
theorem Framed.refl (r : Row α) : r.Framed r := ⟨rfl, id, id, id, List.Subset.refl _⟩

/-- A frame within a frame is one. -/
theorem Framed.trans {r r' r'' : Row α} (h : r.Framed r') (h' : r'.Framed r'') : r.Framed r'' where
  name := h'.name.trans h.name
  redundant marked := h'.redundant (h.redundant marked)
  lhsInf infinite := h.lhsInf (h'.lhsInf infinite)
  rhsInf infinite := h.rhsInf (h'.rhsInf infinite)
  columns := List.Subset.trans h'.columns h.columns

variable [Scalar α]

/-- Setting the left-hand side stays within the frame. -/
theorem framed_setLhs (x : α) (r : Row α) : r.Framed (r.setLhs x) :=
  { Framed.refl r with lhsInf := fun infinite => absurd infinite Bool.false_ne_true }

/-- Setting the right-hand side stays within the frame. -/
theorem framed_setRhs (x : α) (r : Row α) : r.Framed (r.setRhs x) :=
  { Framed.refl r with rhsInf := fun infinite => absurd infinite Bool.false_ne_true }

/-- Shifting stays within the frame. -/
theorem framed_shift (x : α) (r : Row α) : r.Framed (r.shift x) := by
  unfold shift
  dsimp only
  split <;> split
  · exact Framed.refl r
  · exact framed_setLhs _ r
  · exact framed_setRhs _ r
  · exact (framed_setLhs _ r).trans (framed_setRhs _ _)

/-- Rounding the sides stays within the frame. -/
theorem framed_roundSides (tol : α) (activity : Option α) (r : Row α) :
    r.Framed (Reduction.roundSides tol activity r) := by
  unfold Reduction.roundSides
  dsimp only
  split <;> split
  · exact Framed.refl r
  · exact framed_setRhs _ r
  · exact framed_setLhs _ r
  · exact (framed_setLhs _ r).trans (framed_setRhs _ _)

/-- A coefficient that is stored may be replaced. -/
theorem framed_setCoeff {j : Nat} {a : α} {r : Row α} (entry : r.coeff? j = some a) (x : α) :
    r.Framed (r.setCoeff j x) := by
  refine { Framed.refl r with columns := fun k listed => ?_ }
  obtain ⟨e, mem, rfl⟩ := List.mem_map.1 listed
  unfold setCoeff at mem
  dsimp only at mem
  split at mem
  · exact List.mem_map_of_mem (List.mem_of_mem_filter mem)
  · rcases Keyed.mem_put mem with rfl | kept
    · obtain ⟨before, after, coeffs, -⟩ := List.lookup_eq_some_iff.1 entry
      rw [coeffs]
      simp
    · exact List.mem_map_of_mem kept

/-- Putting a value in stays within the frame. -/
theorem framed_putIn (j : Nat) (x : α) (r : Row α) : r.Framed (r.putIn j x) := by
  unfold putIn
  split
  · rename_i a entry
    have shifted : (r.shift (a * x)).coeff? j = some a := by
      unfold coeff?
      rw [coeffs_shift]
      exact entry
    exact (framed_shift _ r).trans (framed_setCoeff shifted 0)
  · exact Framed.refl r

/-- Rounding the coefficients stays within the frame. -/
theorem framed_roundEntries (r : Row α) : r.Framed r.roundEntries := by
  refine { Framed.refl r with columns := fun k listed => ?_ }
  obtain ⟨e, mem, rfl⟩ := List.mem_map.1 listed
  obtain ⟨e', kept, rfl⟩ := List.mem_map.1 (List.mem_of_mem_filter mem)
  exact List.mem_map.2 ⟨e', kept, rfl⟩

/-- Whatever a module does to a row stays within the frame. -/
theorem Change.framed {r r' : Row α} (change : r.Change r') : r.Framed r' := by
  cases change with
  | same => exact Framed.refl r
  | drop => exact { Framed.refl r with redundant := fun _ => rfl }
  | equate x => exact (framed_setLhs x r).trans (framed_setRhs x _)
  | putIn j x => exact framed_putIn j x r
  | round tol point => exact (framed_roundEntries r).trans (framed_roundSides _ _ _)

end Row

/-! ### Columns -/

namespace Column

/-- What stays of the column `c` when it becomes `c'`. -/
structure Framed {α : Type} (c c' : Column α) : Prop where
  name : c'.name = c.name
  integral : c'.flags.integral = c.flags.integral
  implInt : c'.flags.implInt = c.flags.implInt
  inactive : c'.flags.inactive = c.flags.inactive
  fixed : c.flags.fixed = true → c'.flags.fixed = true
  lbInf : c'.flags.lbInf = true → c.flags.lbInf = true
  ubInf : c'.flags.ubInf = true → c.flags.ubInf = true

variable {α : Type}

/-- A column stays within its own frame. -/
theorem Framed.refl (c : Column α) : c.Framed c := ⟨rfl, rfl, rfl, rfl, id, id, id⟩

/-- A frame within a frame is one. -/
theorem Framed.trans {c c' c'' : Column α} (h : c.Framed c') (h' : c'.Framed c'') :
    c.Framed c'' where
  name := h'.name.trans h.name
  integral := h'.integral.trans h.integral
  implInt := h'.implInt.trans h.implInt
  inactive := h'.inactive.trans h.inactive
  fixed marked := h'.fixed (h.fixed marked)
  lbInf infinite := h.lbInf (h'.lbInf infinite)
  ubInf infinite := h.ubInf (h'.ubInf infinite)

/-- Setting the lower bound stays within the frame. -/
theorem framed_setLower (x : α) (c : Column α) : c.Framed (c.setLower x) :=
  { Framed.refl c with lbInf := fun infinite => absurd infinite Bool.false_ne_true }

/-- Setting the upper bound stays within the frame. -/
theorem framed_setUpper (x : α) (c : Column α) : c.Framed (c.setUpper x) :=
  { Framed.refl c with ubInf := fun infinite => absurd infinite Bool.false_ne_true }

/-- Setting the cost stays within the frame. -/
theorem framed_setCost (x : α) (c : Column α) : c.Framed (c.setCost x) :=
  { Framed.refl c with }

/-- Collapsing stays within the frame. -/
theorem framed_collapse (x : α) (c : Column α) : c.Framed (c.collapse x) :=
  (framed_setLower x c).trans (framed_setUpper x _)

variable [Scalar α]

/-- Fixing stays within the frame. -/
theorem framed_fixColumn (x : α) (c : Column α) : c.Framed (Reduction.fixColumn x c) :=
  { framed_collapse x c with fixed := fun _ => rfl }

/-- Rounding the bounds stays within the frame. -/
theorem framed_roundBounds (tol : α) (c : Column α) : c.Framed (Reduction.roundBounds tol c) := by
  unfold Reduction.roundBounds
  dsimp only
  split <;> split
  · exact Framed.refl c
  · exact framed_setUpper _ c
  · exact framed_setLower _ c
  · exact (framed_setLower _ c).trans (framed_setUpper _ _)

/-- Making a column integral stays within the frame. -/
theorem framed_roundColumn (t : Tolerance α) (c : Column α) :
    c.Framed (Reduction.roundColumn t c) := by
  unfold Reduction.roundColumn
  dsimp only
  split
  · exact framed_setCost _ c
  · exact (framed_setCost _ c).trans (framed_roundBounds _ _)

/-- Whatever a module does to a column stays within the frame. -/
theorem Change.framed {c c' : Column α} (change : c.Change c') : c.Framed c' := by
  cases change with
  | same => exact Framed.refl c
  | collapse x => exact framed_collapse x c
  | dropCost => exact framed_setCost 0 c
  | fix x => exact framed_fixColumn x c
  | round t => exact framed_roundColumn t c

end Column

/-! ### Programs -/

/-- Related lists of which the second is related to a third. -/
theorem forall₂_trans {β : Type} {R : β → β → Prop} (trans : ∀ {a b c}, R a b → R b c → R a c)
    {l l' l'' : List β} (h : List.Forall₂ R l l') (h' : List.Forall₂ R l' l'') :
    List.Forall₂ R l l'' := by
  induction h generalizing l'' with
  | nil => exact h'
  | cons first _ ih =>
    cases h' with
    | cons second rest => exact .cons (trans first second) (ih rest)

namespace Problem

variable {α : Type}

/-- What stays of the program `p` when it becomes `p'`.  Rows and columns are compared place by
place, so there are as many of them. -/
structure Framed (p p' : Problem α) : Prop where
  name : p'.name = p.name
  sense : p'.sense = p.sense
  columns : List.Forall₂ Column.Framed p.columns p'.columns
  rows : List.Forall₂ Row.Framed p.rows p'.rows

/-- A program stays within its own frame. -/
theorem Framed.refl (p : Problem α) : p.Framed p :=
  ⟨rfl, rfl, List.forall₂_same.2 fun c _ => .refl c, List.forall₂_same.2 fun r _ => .refl r⟩

/-- A frame within a frame is one. -/
theorem Framed.trans {p p' p'' : Problem α} (h : p.Framed p') (h' : p'.Framed p'') :
    p.Framed p'' where
  name := h'.name.trans h.name
  sense := h'.sense.trans h.sense
  columns := forall₂_trans (R := Column.Framed) Column.Framed.trans h.columns h'.columns
  rows := forall₂_trans (R := Row.Framed) Row.Framed.trans h.rows h'.rows

/-- Whatever a module does to a program stays within the frame. -/
theorem Change.framed [Scalar α] {p p' : Problem α} (change : p.Change p') : p.Framed p' where
  name := change.name
  sense := change.sense
  columns := change.columns.imp fun _ _ => Column.Change.framed
  rows := change.rows.imp fun _ _ => Row.Change.framed

end Problem

/-! ### Settings -/

namespace Settings

/-- What stays of the settings `s` when they become `s'`: kind by kind the names, and at each place
the value, unless there is the one of the target under the same name. -/
structure Framed (target : Option Settings) (s s' : Settings) : Prop where
  names : ∀ k, (s'.list k).map Prod.fst = (s.list k).map Prod.fst
  values : ∀ k i name v, s'.get? k i = some (name, v) →
    s.get? k i = some (name, v) ∨ ∃ t, target = some t ∧ t.get? k i = some (name, v)

variable {target : Option Settings}

/-- Settings stay within their own frame. -/
theorem Framed.refl (target : Option Settings) (s : Settings) : Framed target s s :=
  ⟨fun _ => rfl, fun _ _ _ _ => .inl⟩

/-- A frame within a frame is one. -/
theorem Framed.trans {s s' s'' : Settings} (h : Framed target s s') (h' : Framed target s' s'') :
    Framed target s s'' where
  names k := (h'.names k).trans (h.names k)
  values k i name v found := by
    rcases h'.values k i name v found with kept | copied
    · exact h.values k i name v kept
    · exact .inr copied

/-- Giving a setting another value keeps the names. -/
theorem names_set (s : Settings) (i : Nat) (v : SettingValue) (k : SettingKind) :
    ((s.set i v).list k).map Prod.fst = (s.list k).map Prod.fst := by
  rw [list_set]
  split
  · refine List.ext_getElem? fun n => ?_
    rw [List.getElem?_map, List.getElem?_map, List.getElem?_modify]
    cases (s.list k)[n]? with
    | none => rfl
    | some e =>
      refine congrArg some ?_
      dsimp only
      split <;> rfl
  · rfl

/-- Copying a setting of the same name from the target. -/
theorem framed_copyFrom {s t : Settings} {e : SettingKind × Nat}
    (differs : Reduction.differsAt s t e = true) :
    Framed (some t) s (Reduction.copyFrom t e s) := by
  obtain ⟨name, v, v', here, there⟩ := exists_of_differsAt differs
  obtain ⟨k, i⟩ := e
  obtain rfl : v'.kind = k := kind_of_get? there
  have copied : Reduction.copyFrom t (v'.kind, i) s = s.set i v' := by
    unfold Reduction.copyFrom
    rw [there]
  rw [copied]
  refine ⟨names_set s i v', fun k' i' name' w found => ?_⟩
  by_cases same : (k', i') = (v'.kind, i)
  · obtain ⟨rfl, rfl⟩ := Prod.mk.inj same
    rw [get?_set_self, here] at found
    have new : (name, v') = (name', w) := Option.some.inj found
    exact .inr ⟨t, rfl, new ▸ there⟩
  · rw [get?_set_of_ne s v' same] at found
    exact .inl found

end Settings

/-! ### Instances -/

variable {α ω : Type}

/-- What stays of the instance `i` when it becomes `x`. -/
structure Instance.Framed (target : Option Settings) (i x : Instance α) : Prop where
  solution : x.solution = i.solution
  problem : i.problem.Framed x.problem
  settings : i.settings.Framed target x.settings

/-- An instance stays within its own frame. -/
theorem Instance.Framed.refl (target : Option Settings) (i : Instance α) : i.Framed target i :=
  ⟨rfl, .refl _, .refl _ _⟩

/-- A frame within a frame is one. -/
theorem Instance.Framed.trans {target : Option Settings} {i x y : Instance α}
    (h : i.Framed target x) (h' : x.Framed target y) : i.Framed target y :=
  ⟨h'.solution.trans h.solution, h.problem.trans h'.problem, h.settings.trans h'.settings⟩

variable [Scalar α] {target : Option Settings}

/-- **What a change of an element leaves alone.** -/
theorem ModuleKind.framed_of_step {k : ModuleKind} {s : Scope α} {start : Problem α}
    {x y : Instance α} (canonical : x.problem.Canonical)
    (step : (k.direct target s).Step start x y) : x.Framed target y := by
  have solution : y.solution = x.solution := by
    obtain ⟨touches, buffers⟩ := k.exists_buffers target s
    obtain ⟨u, -, rfl⟩ := step
    exact (buffers.direct_apply u canonical).2
  refine ⟨solution, (change_of_step step).framed, ?_⟩
  by_cases setting : k = .setting
  · subst setting
    obtain ⟨t, e, rfl, differs, copied⟩ := copied_of_setting step
    rw [copied]
    exact Settings.framed_copyFrom differs
  · rw [settings_of_step setting step]
    exact .refl target _

/-- No change of an element leaves the frame. -/
theorem Scope.keeps_framed (s : Scope α) (target : Option Settings) (i : Instance α) :
    s.Keeps target (i.Framed target) := fun _ _ _ _ canonical framed step =>
  framed.trans (ModuleKind.framed_of_step canonical step)

/-! ### Runs -/

namespace World

/-- The call changes one part of the instance only, the settings if the module is `setting`, and
else the program. -/
def ChangesPart (c : Called (World α ω)) : Prop :=
  ∀ kind, ModuleKind.all[c.module]? = some kind →
    (kind = .setting → c.after.inst.problem = c.before.inst.problem) ∧
      (kind ≠ .setting → c.after.inst.settings = c.before.inst.settings)

/-- Each call begins with the instance that the one before it has left, the first one with `i`, and
the last one leaves `i'`. -/
def Linked (i : Instance α) : List (Called (World α ω)) → Instance α → Prop
  | [], i' => i' = i
  | c :: calls, i' => c.before.inst = i ∧ Linked c.after.inst calls i'

omit [Scalar α] in
/-- A call that begins where the others end is linked to them. -/
theorem Linked.concat {i i' : Instance α} {calls : List (Called (World α ω))}
    {c : Called (World α ω)} (h : Linked i calls i') (before : c.before.inst = i') :
    Linked i (calls ++ [c]) c.after.inst := by
  induction calls generalizing i with
  | nil => exact ⟨before.trans h, rfl⟩
  | cons c' calls ih => exact ⟨h.1, ih h.2⟩

/-- A call keeps the program canonical, and changes one part of the instance only. -/
theorem changesPart_record (o : Oracle α ω) (params : Parameters) (target : Option Settings)
    (k batches began : Nat) {w : World α ω} (canonical : w.inst.problem.Canonical) :
    (w.call o params target k batches).2.inst.problem.Canonical ∧
      ChangesPart ((machine o params target began).record k batches w) := by
  let P : Instance α → Prop := fun x => ∀ kind, ModuleKind.all[k]? = some kind →
    (kind = .setting → x.problem = w.inst.problem) ∧
      (kind ≠ .setting → x.settings = w.inst.settings)
  have begun : P w.inst := fun _ _ => ⟨fun _ => rfl, fun _ => rfl⟩
  refine call_keeps canonical (P := P) begun (fun kind found x y _ parts step => ?_) o batches
  intro kind' found'
  obtain rfl : kind' = kind := Option.some.inj (found'.symm.trans found)
  obtain ⟨problem, settings⟩ := parts kind' found'
  constructor
  · rintro rfl
    exact (ModuleKind.problem_of_setting step).trans (problem rfl)
  · intro other
    exact (ModuleKind.settings_of_step other step).trans (settings other)

/-- **From call to call** one part of the instance changes, and nothing changes in between. -/
theorem linked_called (o : Oracle α ω) (params : Parameters) (target : Option Settings)
    (s : RunState) (i : Instance α) (session : Session α ω) (canonical : i.problem.Canonical) :
    let calls := (machine o params target (o.clock session.state)).called params s
      (start i session)
    Linked i calls (Run.reduce o params target s i session).2.inst ∧
      ∀ c ∈ calls, ChangesPart c := by
  let m := machine o params target (o.clock session.state)
  -- What is carried along: the calls so far lead to the instance where the run stands.
  let P : World α ω × List (Called (World α ω)) → Prop := fun v =>
    v.1.inst.problem.Canonical ∧ Linked i v.2 v.1.inst ∧ ∀ c ∈ v.2, ChangesPart c
  have call : ∀ k b v, P v → P (m.recording.call k b v).2 := by
    rintro k b ⟨w, calls⟩ ⟨before, linked, parts⟩
    obtain ⟨after, part⟩ :=
      changesPart_record o params target k b (o.clock session.state) before
    refine ⟨after, linked.concat (c := m.record k b w) rfl, fun c mem => ?_⟩
    rcases List.mem_append.1 mem with mem | mem
    · exact parts c mem
    · obtain rfl := List.mem_singleton.1 mem
      exact part
  have save : ∀ s v, P v → P (m.recording.save s v) := by
    rintro s ⟨w, calls⟩ h
    change (w.save params s).inst.problem.Canonical ∧ Linked i calls (w.save params s).inst ∧ _
    rw [(w.save_inst params s).1]
    exact h
  have begun : P (m.recording.opening params (start i session, [])).2 := by
    have nothing : ∀ c ∈ ([] : List (Called (World α ω))), ChangesPart c :=
      fun _ mem => absurd mem List.not_mem_nil
    unfold Machine.opening
    split
    · exact ⟨canonical, rfl, nothing⟩
    · exact ⟨canonical, rfl, nothing⟩
  obtain ⟨-, linked, parts⟩ : P (m.recording.run params s (start i session, [])).2 :=
    Machine.run_keeps call save begun
  have recorded : (Run.reduce o params target s i session).2 =
      (m.recording.run params s (start i session, [])).2.1 :=
    congrArg Prod.snd (m.run_recording params s (start i session) [])
  rw [recorded]
  exact ⟨linked, parts⟩

end World

namespace Run

/-- **What a run leaves alone.**  At every probe, after every call and in the end the instance
differs from the first one in what may change only, and every call changes either the program or
the settings of the instance that the call before it has left. -/
theorem framed_throughout (o : Oracle α ω) (params : Parameters) (target : Option Settings)
    (s : RunState) (i : Instance α) (session : Session α ω) (canonical : i.problem.Canonical) :
    let calls := (World.machine o params target (o.clock session.state)).called params s
      (World.start i session)
    Throughout (i.Framed target) o params target s i session ∧
      World.Linked i calls (reduce o params target s i session).2.inst ∧
      ∀ c ∈ calls, World.ChangesPart c := by
  have framed := holds_throughout o s session canonical
    ((Scope.ofRun params i).keeps_framed target i) (.refl target i)
  obtain ⟨linked, parts⟩ := World.linked_called o params target s i session canonical
  exact ⟨framed.imp fun _ upheld => upheld.holds, linked, parts⟩

/-- An oracle that always sees the defect lets everything go: the rows and columns are marked, and
the setting has the value of the target. -/
theorem framed_throughout_blend :
    let i : Instance Rat :=
      { settings := { ints := [("threads", 4)] }, problem := .blend, solution := .unknown }
    let target : Option Settings := some { ints := [("threads", 1)] }
    let o : Oracle Rat Unit := .ofFunction fun _ => ⟨⟨1⟩, .unknown, 1⟩
    let final := (reduce o .standard target (.start .standard) i (.start () .empty)).2.inst
    let calls := (World.machine o .standard target (o.clock ())).called .standard
      (.start .standard) (World.start i (.start () .empty))
    final.problem.rows.map Row.isRedundant = [true, true] ∧
      (final.problem.columns.map fun c => c.flags.fixed) = [true, true] ∧
      final.settings.ints = [("threads", 1)] ∧
      Throughout (i.Framed target) o .standard target (.start .standard) i (.start () .empty) ∧
      World.Linked i calls final ∧ ∀ c ∈ calls, World.ChangesPart c :=
  ⟨by decide +kernel, by decide +kernel, by decide +kernel,
    framed_throughout _ .standard _ _ _ _ Problem.canonical_blend⟩

end Run
end MipShrink
