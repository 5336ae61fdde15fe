/-
# The report of a run as a text

A table of the modules, a line for each round, the sizes before and after, and the number of probes
with the time they took.  Seconds are shown with three decimals in the table and with two in the
last line; the last line has no line feed.
-/

import MipShrink.Run.Loop

namespace MipShrink
namespace Report

/-- Microseconds as seconds with so many decimals. -/
def seconds (places micros : Nat) : String :=
  Layout.places places (Binary64.ofFloat (Limits.seconds micros))

/-- A line of the table of modules: the name on the left, the other cells on the right of their
fields. -/
def tableLine (name : String) (cells : List String) : String :=
  String.intercalate " "
    (Text.padRight 12 name :: ([6, 9, 8, 8, 8, 9].zip cells).map fun e => Text.padLeft e.1 e.2)

/-- The cells of a module. -/
def cells (s : Stats) : List String :=
  [toString s.calls, toString s.successes, toString s.probes, toString s.accepted,
    toString s.changes, seconds 3 s.time]

/-- The titles of the cells. -/
def titles : List String :=
  ["calls", "successes", "probes", "batches", "changes", "time (s)"]

/-- The letters of the statuses of a round. -/
def letters (r : RoundRecord) : String :=
  String.join (r.statuses.map CallStatus.letter)

/-- The line of a round. -/
def roundLine (r : RoundRecord) : String :=
  "round " ++ Text.padLeft 3 (toString r.round) ++ " stage " ++
    Text.padLeft 2 (toString r.stage) ++ " [" ++ letters r ++ "] " ++ r.size.text

/-- The last line. -/
def lastLine (s : Summary) : String :=
  toString s.probes ++ " probes in " ++ seconds 2 s.elapsed ++ "s"

/-- The lines before the last one. -/
def upperLines (s : Summary) : List String :=
  (s.initial.toList.map fun v => "Original instance: " ++ v.name) ++
    [tableLine "module" titles] ++
    (s.modules.map fun m => tableLine m.1 (cells m.2)) ++
    s.rounds.map roundLine ++
    ["before: " ++ s.before.text, "after:  " ++ s.after.text]

/-- The report as a text. -/
def text (s : Summary) : String :=
  Text.unlines (upperLines s) ++ lastLine s

end Report
end MipShrink
