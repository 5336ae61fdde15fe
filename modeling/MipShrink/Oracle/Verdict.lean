/-
# Return codes and verdicts

A probe of the solver ends with a return code.  Zero says that the solver behaved, a positive code
names a wrong answer, a negative one a failure inside the solver.  Codes are integers of 32 bits.
Some codes may be declared harmless: they pass as zero.  The verdict tells whether the defect is
still there, which it is unless the code passes.
-/

import MipShrink.Settings.Basic
import MipShrink.Text.Lines

namespace MipShrink

/-- The result code of a probe. -/
structure Retcode where
  code : Int
deriving DecidableEq, Repr

namespace Retcode

/-- The return code of a solver that behaves well. -/
def okay : Retcode := ⟨0⟩

/-- The largest code. -/
def maxCode : Int := 2147483647

/-- The negative code for a failure inside the solver: one below the negated magnitude of the given
code, within 32 bits. -/
def internal (code : Int) : Retcode :=
  ⟨-(min (min (code.natAbs : Int) maxCode + 1) maxCode)⟩

/-- Does the code tell that the solver behaves well? -/
def isOkay (r : Retcode) : Bool := r == okay

/-- The code, or zero if it is one of the harmless ones. -/
def pass (passCodes : List Int) (r : Retcode) : Retcode :=
  if passCodes.contains r.code then okay else r

/-- The text of a code. -/
def text (r : Retcode) : String :=
  if r.code = 0 then "okay"
  else if r.code = 1 then "dual fail"
  else if r.code = 2 then "primal fail"
  else if r.code = 3 then "objective fail"
  else "code " ++ SettingValue.intText r.code

/-- A failure inside the solver is never mistaken for good behaviour. -/
theorem internal_neg (code : Int) : (internal code).code < 0 := by
  simp only [internal, maxCode]
  omega

/-- Passing a return code twice is passing it once. -/
theorem pass_pass (passCodes : List Int) (r : Retcode) :
    (r.pass passCodes).pass passCodes = r.pass passCodes := by
  unfold pass
  by_cases h : passCodes.contains r.code = true
  · simp only [h, if_true]
    split <;> rfl
  · simp only [h]
    simp at h
    simp [h]

end Retcode

/-- Is the defect still there? -/
inductive Verdict where
  | okay
  | bug
  | error
deriving DecidableEq, Repr

namespace Verdict

/-- The name of a verdict. -/
def name : Verdict → String
  | okay => "Okay"
  | bug => "Bug"
  | error => "Error"

/-- The verdict with a name. -/
def ofName? (s : String) : Option Verdict :=
  [okay, bug, error].find? fun v => v.name == s

/-- The name of a verdict tells the verdict. -/
theorem ofName?_name (v : Verdict) : ofName? v.name = some v := by cases v <;> decide

/-- The verdict on a code that is not harmless. -/
def ofCode (r : Retcode) : Verdict :=
  if r.code = 0 then okay else if 0 < r.code then bug else error

/-- The verdict of a probe. -/
def classify (passCodes : List Int) (r : Retcode) : Verdict :=
  ofCode (r.pass passCodes)

/-- The defect shows unless the code passes as zero. -/
theorem classify_eq_okay_iff (passCodes : List Int) (r : Retcode) :
    classify passCodes r = okay ↔ (r.pass passCodes).code = 0 := by
  unfold classify ofCode
  split
  · simp_all
  · split <;> simp_all

end Verdict

/-- What the solver says about its run; only shown, never judged. -/
inductive SolverStatus where
  | optimal
  | infeasible
  | unbounded
  | infeasibleOrUnbounded
  | nodeLimit
  | timeLimit
  | gapLimit
  | solutionLimit
  | interrupted
  | unknown
  | undefinedError
deriving DecidableEq, Repr

namespace SolverStatus

/-- All statuses. -/
def all : List SolverStatus :=
  [optimal, infeasible, unbounded, infeasibleOrUnbounded, nodeLimit, timeLimit, gapLimit,
    solutionLimit, interrupted, unknown, undefinedError]

/-- The name of a status. -/
def name : SolverStatus → String
  | optimal => "Optimal"
  | infeasible => "Infeasible"
  | unbounded => "Unbounded"
  | infeasibleOrUnbounded => "InfeasibleOrUnbounded"
  | nodeLimit => "NodeLimit"
  | timeLimit => "TimeLimit"
  | gapLimit => "GapLimit"
  | solutionLimit => "SolutionLimit"
  | interrupted => "Interrupted"
  | unknown => "Unknown"
  | undefinedError => "UndefinedError"

/-- The word of a status. -/
def text : SolverStatus → String
  | optimal => "optimal"
  | infeasible => "infeasible"
  | unbounded => "unbounded"
  | infeasibleOrUnbounded => "inforunbd"
  | nodeLimit => "nodelimit"
  | timeLimit => "timelimit"
  | gapLimit => "gaplimit"
  | solutionLimit => "sollimit"
  | interrupted => "interrupted"
  | unknown => "unknown"
  | undefinedError => "undefined"

/-- The status with the given word, in any case of its ASCII letters. -/
def ofWord? (word : String) : Option SolverStatus :=
  all.find? fun s => s.text.toList == Text.lowerAscii word.toList

/-- The word of a status tells the status. -/
theorem ofWord?_text (s : SolverStatus) : ofWord? s.text = some s := by
  cases s <;> decide

end SolverStatus
end MipShrink
