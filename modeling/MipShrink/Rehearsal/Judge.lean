/-
# Made-up solvers

A judge stands in for a solver.  Its first probes are answered from a list of codes, and the others
by whether the instance satisfies a condition, so that its defect can be put anywhere in an
instance.  With an empty list of codes the judge is a function of the instance, apart from the
effort (`codeAt_of_script_eq_nil`).
-/

import MipShrink.Oracle.Basic
import MipShrink.Rehearsal.Condition

namespace MipShrink

/-- A made-up solver. -/
structure Judge (α : Type) where
  /-- The codes of the first probes. -/
  script : List Int
  condition : Condition α
  /-- The code when the condition holds. -/
  code : Int
  /-- The code when it does not. -/
  other : Int
  /-- The efforts of the first probes, of which the last one stays. -/
  efforts : List Int
deriving Repr

namespace Judge

variable {α : Type} [Scalar α]

/-- The effort of the probe or call with the given number; the last one of the list stays, and
without any it is not known. -/
def effortAt (efforts : List Int) (k : Nat) : Int :=
  efforts[min k (efforts.length - 1)]?.getD (-1)

/-- The code that the condition leads to. -/
def codeOf (g : Judge α) (i : Instance α) : Int :=
  if g.condition.holds i then g.code else g.other

/-- The code of the probe with the given number. -/
def codeAt (g : Judge α) (k : Nat) (i : Instance α) : Int :=
  g.script[k]?.getD (g.codeOf i)

/-- The judge as an oracle that counts its probes.  One microsecond has passed when it begins, and
each probe takes another one. -/
def oracle (g : Judge α) : Oracle α Nat :=
  { ask := fun i k =>
      ({ retcode := ⟨g.codeAt k i⟩, status := .unknown, effort := effortAt g.efforts k }, k + 1)
    clock := fun k => k + 1 }

/-- Without a script a judge answers by the rules alone. -/
theorem codeAt_of_script_eq_nil {g : Judge α} (h : g.script = []) (k : Nat) (i : Instance α) :
    g.codeAt k i = g.codeOf i := by
  simp [codeAt, h]

end Judge
end MipShrink
