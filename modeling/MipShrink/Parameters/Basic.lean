/-
# The parameters of a run

`Parameters` is the typed form in which a run uses its parameters; `registry` is the set of their
names, types, bounds and default values, and `ofSet` goes from the one to the other.  A set that
comes from `registry` by assignments always has the right names and types, so that only the list
of pass-codes can be wrong in it.
-/

import MipShrink.ModuleKind
import MipShrink.Parameters.Registry
import MipShrink.Tolerance

namespace MipShrink

/-- What a run may give up for a smaller instance. -/
inductive Emphasis where
  /-- Keep the rows that are needed to explain an infeasible reference. -/
  | safe
  | aggressive
deriving DecidableEq, Repr

/-- Which parts of a run are carried out. -/
inductive Mode where
  /-- Only check that the instance shows the defect. -/
  | reproduceOnly
  | reproduceAndReduce
  /-- Reduce without checking the instance first. -/
  | reduceOnly
deriving DecidableEq, Repr

namespace Emphasis

/-- The name of an emphasis. -/
def name : Emphasis → String
  | safe => "Safe"
  | aggressive => "Aggressive"

end Emphasis

namespace Mode

/-- The name of a mode. -/
def name : Mode → String
  | reproduceOnly => "ReproduceOnly"
  | reproduceAndReduce => "ReproduceAndReduce"
  | reduceOnly => "ReduceOnly"

end Mode

/-- The parameters of a run. -/
structure Parameters where
  mode : Mode
  emphasis : Emphasis
  /-- The time limit in seconds. -/
  timeLimit : Float
  /-- Batches per module call; zero stands for a single batch. -/
  batches : Nat
  /-- Solving effort per module call from which the number of batches is found; zero for none. -/
  expenditure : Int
  firstRound : Nat
  firstStage : Nat
  maxRounds : Nat
  maxStages : Nat
  /-- Return codes that count as no defect. -/
  passCodes : List Int
  /-- The stem of the files that are written for every probe. -/
  debugFile : Option String
  /-- The file that is written after every round. -/
  checkpoint : Option String
  /-- Take the marked rows and columns out of the result. -/
  compress : Bool
  epsilon : Float
  feasibility : Float
  admissibility : Float
  /-- The modules that are switched on or off, in the order of their names. -/
  enabled : List (String × Bool)
deriving Repr

namespace Parameters

open ParameterSet

/-- The largest integer of 32 bits. -/
def maxInt : Int := 2147483647

/-- The largest integer of 64 bits. -/
def maxLong : Int := 9223372036854775807

/-- The switch of a module. -/
def switchName (module : String) : String := module ++ ".enabled"

/-- The parameters of a run with their default values, apart from the switches of the modules. -/
def general : List (String × Parameter) :=
  [("bugger.mode",
      intParam "-1: reproduce only, 0: reproduce and reduce, 1: reduce only" 0 (-1) 1),
    ("bugger.emphasis", intParam "0: safe, 1: aggressive" 0 0 1),
    ("bugger.tlim", doubleParam "wall-clock limit in seconds" infinity 0 infinity),
    ("bugger.nbatches",
      longParam "batches per module call, 0 for a single batch" 2 0 maxLong),
    ("bugger.expenditure",
      longParam "solving effort per module call used to size batches, 0 to disable" 0 0 maxLong),
    ("bugger.initround", intParam "first round" 0 0 maxInt),
    ("bugger.initstage", intParam "first stage" 0 0 maxInt),
    ("bugger.maxrounds", intParam "maximum number of rounds" maxInt 0 maxInt),
    ("bugger.maxstages",
      intParam "maximum number of stages" ModuleKind.all.length 0 maxInt),
    ("bugger.passcodes", stringParam "comma separated return codes meaning no bug" ""),
    ("bugger.debugfile", stringParam "stem of files written for every probe" ""),
    ("bugger.checkpoint", stringParam "snapshot written after every round" ""),
    ("bugger.compress",
      boolParam "remove redundant rows and fixed columns from the result" false),
    ("numerics.epsilon", doubleParam "equality tolerance" 1e-9 0 1),
    ("numerics.feastol", doubleParam "feasibility tolerance" 1e-6 0 1),
    ("numerics.zeta", doubleParam "admissibility tolerance" 1e-4 0 1)]

/-- The switches of the modules, all on. -/
def switches : List (String × Parameter) :=
  ModuleKind.all.map fun k =>
    (switchName k.name, boolParam ("run the " ++ k.name ++ " module") true)

/-- Add the parameters of a run to a set; none of them may be there already. -/
def registerIn? (s : ParameterSet) : Option ParameterSet :=
  (general ++ switches).foldlM (fun s e => s.register? e.1 e.2) s

/-- The parameters of a run with their default values. -/
def registry : ParameterSet :=
  (registerIn? ParameterSet.empty).getD ParameterSet.empty

/-- A code of the list of pass-codes. -/
def readCode (t : List Char) : Except Error Int :=
  match Grammar.word? 32 t with
  | some n => .ok n
  | none => .error (.parameter "bugger.passcodes" (.badCode (String.ofList t)))

/-- The codes of a list with commas; empty items are passed over. -/
def readCodes (text : String) : Except Error (List Int) :=
  (((Text.pieces (· == ',') text.toList).map Text.trim).filter fun t => !t.isEmpty).mapM readCode

/-- The switches of the modules in a set, in the order of the modules. -/
def readSwitches (s : ParameterSet) : Except Error (List (String × Bool)) :=
  ModuleKind.all.mapM fun k => do
    let b ← s.getBool (switchName k.name)
    return (k.name, b)

/-- A signed integer as a count of 64 bits; negative ones wrap. -/
def toCount (n : Int) : Nat := (n % 18446744073709551616).toNat

/-- A text, unless it is empty. -/
def nonEmpty (s : String) : Option String :=
  if s.isEmpty then none else some s

/-- The mode with a number. -/
def modeOf (n : Int) : Mode :=
  if n = -1 then .reproduceOnly else if n = 0 then .reproduceAndReduce else .reduceOnly

/-- The emphasis with a number. -/
def emphasisOf (n : Int) : Emphasis :=
  if n = 0 then .safe else .aggressive

/-- The parameters of a run from a set. -/
def ofSet (s : ParameterSet) : Except Error Parameters := do
  let mode ← s.getInt "bugger.mode"
  let emphasis ← s.getInt "bugger.emphasis"
  let passCodes ← readCodes (← s.getString "bugger.passcodes")
  let enabled ← readSwitches s
  let timeLimit ← s.getDouble "bugger.tlim"
  let batches ← s.getLong "bugger.nbatches"
  let expenditure ← s.getLong "bugger.expenditure"
  let firstRound ← s.getInt "bugger.initround"
  let firstStage ← s.getInt "bugger.initstage"
  let maxRounds ← s.getInt "bugger.maxrounds"
  let maxStages ← s.getInt "bugger.maxstages"
  let debugFile ← s.getString "bugger.debugfile"
  let checkpoint ← s.getString "bugger.checkpoint"
  let compress ← s.getBool "bugger.compress"
  let epsilon ← s.getDouble "numerics.epsilon"
  let feasibility ← s.getDouble "numerics.feastol"
  let admissibility ← s.getDouble "numerics.zeta"
  return {
    mode := modeOf mode
    emphasis := emphasisOf emphasis
    timeLimit := timeLimit
    batches := toCount batches
    expenditure := expenditure
    firstRound := toCount firstRound
    firstStage := toCount firstStage
    maxRounds := toCount maxRounds
    maxStages := toCount maxStages
    passCodes := passCodes
    debugFile := nonEmpty debugFile
    checkpoint := nonEmpty checkpoint
    compress := compress
    epsilon := epsilon
    feasibility := feasibility
    admissibility := admissibility
    enabled := Keyed.ofList Keyed.nameBefore enabled }

/-- The default parameters. -/
def standard : Parameters :=
  { mode := .reproduceAndReduce, emphasis := .safe, timeLimit := infinity, batches := 2
    expenditure := 0, firstRound := 0, firstStage := 0, maxRounds := toCount maxInt
    maxStages := ModuleKind.all.length, passCodes := [], debugFile := none, checkpoint := none
    compress := false, epsilon := 1e-9, feasibility := 1e-6, admissibility := 1e-4
    enabled := Keyed.ofList Keyed.nameBefore (ModuleKind.all.map fun k => (k.name, true)) }

/-- The parameters of a run from arguments `--key=value`. -/
def ofOverrides (args : List String) : Except Error Parameters :=
  match registry.useOverrides args with
  | (_, some e) => .error e
  | (s, none) => ofSet s

/-- Is the module switched on?  A module without switch is. -/
def isEnabled (p : Parameters) (module : String) : Bool :=
  (p.enabled.lookup module).getD true

/-- Switch a module on or off. -/
def setEnabled (module : String) (b : Bool) (p : Parameters) : Parameters :=
  { p with enabled := Keyed.put Keyed.nameBefore module b p.enabled }

/-- The tolerances of a run. -/
def tolerance {α : Type} [Scalar α] (p : Parameters) : Tolerance α :=
  Tolerance.ofDoubles (Binary64.ofFloat p.epsilon) (Binary64.ofFloat p.feasibility)
    (Binary64.ofFloat p.admissibility)

end Parameters
end MipShrink
