/-
# The modules as they are called

Each of the nine modules is its reduction, set up with the tolerances, the reference and the
emphasis of the run.  The reductions change elements of different types: `ElementReduction` is a
reduction together with the type of its elements.
-/

import MipShrink.Call
import MipShrink.Reduction.Columns
import MipShrink.Reduction.Entries
import MipShrink.Reduction.Rows

namespace MipShrink

/-- A reduction of elements of some type, which have a text. -/
structure ElementReduction (α : Type) where
  Element : Type
  elementText : Element → String
  reduction : Reduction α Element

variable {α ω : Type} [Scalar α]

namespace Scope

/-- What guides the reductions of a run on an instance. -/
def ofRun (params : Parameters) (i : Instance α) : Scope α :=
  { tolerance := params.tolerance, solution := i.solution, emphasis := params.emphasis }

end Scope

namespace ElementReduction

/-- A reduction of rows or columns, named by their positions. -/
def ofPosition (r : Reduction α Nat) : ElementReduction α :=
  { Element := Nat, elementText := fun k => toString k, reduction := r }

/-- A pair in parentheses. -/
def pairText (a b : String) : String := "(" ++ a ++ ", " ++ b ++ ")"

end ElementReduction

namespace ModuleKind

open ElementReduction

/-- The reduction of a module; `target` holds the settings that the setting module moves
towards. -/
def reduction (k : ModuleKind) (target : Option Settings) (s : Scope α) : ElementReduction α :=
  match k with
  | constraint => ofPosition (Reduction.constraint s)
  | collapse => ofPosition (Reduction.collapse s)
  | objective => ofPosition (Reduction.objective s)
  | side => ofPosition (Reduction.side s)
  | fixing => ofPosition (Reduction.fixing s)
  | coefficient =>
    { Element := Nat × Nat, elementText := fun e => pairText (toString e.1) (toString e.2)
      reduction := Reduction.coefficient s }
  | varround => ofPosition (Reduction.varround s)
  | consround => ofPosition (Reduction.consround s)
  | setting =>
    { Element := SettingKind × Nat, elementText := fun e => pairText e.1.name (toString e.2)
      reduction := Reduction.setting target }

/-- Call a module on an instance. -/
def call (k : ModuleKind) (target : Option Settings) (o : Oracle α ω) (params : Parameters)
    (batches : Nat) (i : Instance α) (memory : ModuleState) (session : Session α ω) :
    CallResult α ω :=
  (k.reduction target (Scope.ofRun params i)).reduction.call k.name o params batches i memory
    session

end ModuleKind
end MipShrink
