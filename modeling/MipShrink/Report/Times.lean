/-
# Reports without their times

A run takes another time whenever it is repeated, and the rest of its report stays.  For comparing
two reports the times in them are hidden: a `T` stands for each one.

| place | time | hidden |
| --- | --- | --- |
| end of a line of the table | `     0.250` | ` T` |
| last cell of a row of the page | `<td>0.250</td></tr>` | `<td>T</td></tr>` |
| last line | `7 probes in 1.50s` | `7 probes in T s` |
-/

import MipShrink.Text.Lines

namespace MipShrink
namespace Report

/-- A number with so many decimals. -/
def isTime (places : Nat) (cs : List Char) : Bool :=
  (Text.splitFirst '.' cs).any fun (a, b) =>
    !a.isEmpty && a.all Char.isDigit && b.all Char.isDigit && b.length == places

/-- A line cut behind the last one of a mark. -/
def cutLast (mark : Char) (line : List Char) : List Char × List Char :=
  ((line.reverse.dropWhile (· != mark)).reverse, (line.reverse.takeWhile (· != mark)).reverse)

/-- Hide a time behind the last blank of a line, and the blanks before it but one. -/
def hideLast (line : List Char) : List Char :=
  let (rest, last) := cutLast ' ' line
  if rest.isEmpty || !isTime 3 last then line
  else (rest.reverse.dropWhile (· = ' ')).reverse ++ [' ', 'T']

/-- Hide the time in the last cell of a row. -/
def hideCell (line : List Char) : List Char :=
  let close := "</td></tr>".toList
  let (rest, last) := cutLast '>' (line.take (line.length - close.length))
  if close.isSuffixOf line && "<td>".toList.isSuffixOf rest && isTime 3 last then
    rest ++ ['T'] ++ close
  else line

/-- Hide the time that a number of probes took. -/
def hideProbes : List Char → List Char
  | [] => []
  | c :: rest =>
    let mark := " probes in ".toList
    let after := (c :: rest).drop mark.length
    let time := after.takeWhile (· != 's')
    if mark.isPrefixOf (c :: rest) && isTime 2 time then
      mark ++ "T s".toList ++ after.drop (time.length + 1)
    else c :: hideProbes rest

/-- Change every line of a text. -/
def mapLines (f : List Char → List Char) (t : String) : String :=
  String.ofList (List.intercalate ['\n'] ((Text.pieces (· == '\n') t.toList).map f))

/-- A report as a text with its times hidden. -/
def withoutTimes (t : String) : String :=
  mapLines (fun l => hideProbes (hideLast l)) t

/-- A report as a page with its times hidden. -/
def pageWithoutTimes (t : String) : String :=
  mapLines (fun l => hideProbes (hideCell l)) t

/-- The two parts of a line make it up. -/
theorem cutLast_append (mark : Char) (line : List Char) :
    (cutLast mark line).1 ++ (cutLast mark line).2 = line := by
  simp only [cutLast, ← List.reverse_append, List.takeWhile_append_dropWhile,
    List.reverse_reverse]

end Report
end MipShrink
