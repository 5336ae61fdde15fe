/-
# The report of a run as a page

Three tables, for the sizes, the modules and the rounds, and a closing line.  `document` puts them
into a page of their own, which is written to a file with the extension `html`.  Names are put into
the page as they are.
-/

import MipShrink.Files.Store
import MipShrink.Report.Text

namespace MipShrink
namespace Report

/-- A text between an opening and a closing tag. -/
def tagged (tag body : String) : String :=
  "<" ++ tag ++ ">" ++ body ++ "</" ++ tag ++ ">"

/-- A row of cells. -/
def row (cells : List String) : String :=
  tagged "tr" (String.join (cells.map (tagged "td")))

/-- A row of titles. -/
def headRow (cells : List String) : String :=
  tagged "tr" (String.join (cells.map (tagged "th")))

/-- A table with its heading. -/
def table (heading : String) (head : List String) (rows : List (List String)) : List String :=
  [tagged "h2" heading ++ "<table>", headRow head] ++ rows.map row ++ ["</table>"]

/-- The row of a size. -/
def sizeRow (label : String) (s : ProblemSize) : List String :=
  [label, toString s.rows, toString s.cols, toString s.nnz, toString s.nonintegral]

/-- A status as a letter with a class of its own. -/
def statusSpan (s : CallStatus) : String :=
  "<span class=\"" ++ s.letter ++ "\">" ++ s.letter ++ "</span>"

/-- The row of a round. -/
def roundRow (r : RoundRecord) : List String :=
  [toString r.round, toString r.stage, toString r.batches,
    String.join (r.statuses.map statusSpan), toString r.size.rows, toString r.size.cols]

/-- The lines of the tables. -/
def pageLines (s : Summary) : List String :=
  table "Size" ["", "rows", "columns", "nonzeros", "non-integral"]
      [sizeRow "before" s.before, sizeRow "after" s.after] ++
    table "Modules" ("module" :: titles) (s.modules.map fun m => m.1 :: cells m.2) ++
    table "Rounds" ["round", "stage", "batches", "statuses", "rows", "columns"]
      (s.rounds.map roundRow) ++
    [tagged "p" (lastLine s ++ ".")]

/-- The tables as a text. -/
def page (s : Summary) : String :=
  Text.unlines (pageLines s)

/-- A rule of a style sheet. -/
def styleRule (selector : String) (entries : List String) : List String :=
  [selector ++ " \x7b"] ++ entries.map (fun e => "    " ++ e ++ ";") ++ ["\x7d"]

/-- The style sheet of a page. -/
def styleLines : List String :=
  styleRule ":root"
      ["--color1: #a3bbdc", "--color2: #dae4f1", "--color3: #edf2f8", "--darkcolor4: #ff971d"] ++
    styleRule "h2" ["color: var(--darkcolor4)"] ++
    styleRule "table" ["border-collapse: collapse", "background-color: var(--color3)"] ++
    styleRule "th" ["background-color: var(--color1)"] ++
    styleRule "td, th" ["padding: 2px 10px", "text-align: right"] ++
    styleRule "tr:nth-child(even)" ["background-color: var(--color2)"] ++
    styleRule ".S" ["color: green"]

/-- A page of its own with the given title. -/
def document (title : String) (s : Summary) : String :=
  Text.unlines
    (["<!DOCTYPE html><html><head>", "<meta charset=\"UTF-8\">", tagged "title" title, "<style>",
      ""] ++ styleLines ++ ["", "</style></head><body>"] ++ pageLines s ++ ["</body></html>"])

/-- The last step of a path and what stands before it. -/
def splitLast (path : List Char) : List Char × List Char :=
  let last := (path.reverse.takeWhile (· != '/')).reverse
  (path.take (path.length - last.length), last)

/-- A step of a path without its extension; a dot at the start begins no extension. -/
def stemOf (step : List Char) : List Char :=
  let after := step.reverse.takeWhile (· != '.')
  if after.length + 1 < step.length then step.take (step.length - after.length - 1) else step

/-- A path without what follows its last step. -/
def dropEnds : Nat → List Char → List Char
  | 0, path => path
  | fuel + 1, path =>
    match path.reverse with
    | '/' :: rest => if rest.isEmpty then path else dropEnds fuel rest.reverse
    | '.' :: '/' :: rest => if rest.isEmpty then path else dropEnds fuel rest.reverse
    | _ => path

/-- The file of a page: the name with its extension replaced by `html`.  A path that ends in no
name stays as it is. -/
def pagePath (name : String) : String :=
  let path := dropEnds name.length name.toList
  let parts := splitLast path
  if parts.2 = [] ∨ parts.2 = ['.'] ∨ parts.2 = ['.', '.'] then name
  else String.ofList (parts.1 ++ stemOf parts.2) ++ ".html"

/-- Write the page of a run. -/
def writePage {α : Type} (name : String) (s : Summary) (files : FileStore α) :
    Except AccessFault (FileStore α) :=
  files.write (pagePath name) (.text (document name s))

end Report
end MipShrink
