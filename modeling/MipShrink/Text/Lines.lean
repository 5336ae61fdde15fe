/-
# Lines, words and pieces of a text

A text is a list of characters here.  A *line* ends at a line feed, which it loses together with
one carriage return before it; what follows the last line feed is a line when it is not empty.  A
*word* is a longest run of characters that are not blank.

Cutting loses nothing: the pieces of a text, joined by the characters that were cut at, are the
text again (`pieces_ne_nil` is the part of it that the definitions below use).
-/

import MipShrink.Text.Blank

namespace MipShrink
namespace Text

/-- The parts of a text between the characters that satisfy `cut`; there is always a first part. -/
def pieces (cut : Char → Bool) : List Char → List (List Char)
  | [] => [[]]
  | c :: rest =>
    if cut c then [] :: pieces cut rest
    else
      match pieces cut rest with
      | [] => [[c]]
      | part :: parts => (c :: part) :: parts

/-- A text has one piece at least, if only an empty one. -/
theorem pieces_ne_nil (cut : Char → Bool) (t : List Char) : pieces cut t ≠ [] := by
  cases t with
  | nil => simp [pieces]
  | cons c rest =>
    simp only [pieces]
    split
    · simp
    · split <;> simp

/-- A line without the carriage return that its line feed followed. -/
def dropReturn (line : List Char) : List Char :=
  if line.getLast? = some '\r' then line.dropLast else line

/-- The lines of a text. -/
def lines (t : List Char) : List (List Char) :=
  let parts := pieces (· == '\n') t
  parts.dropLast.map dropReturn ++ (parts.getLast?.toList.filter fun part => !part.isEmpty)

/-- The words of a text. -/
def words (t : List Char) : List (List Char) :=
  (pieces isBlank t).filter fun part => !part.isEmpty

/-- A text without the characters satisfying `p` at its two ends. -/
def trimWhile (p : Char → Bool) (t : List Char) : List Char :=
  ((t.dropWhile p).reverse.dropWhile p).reverse

/-- A text without the blanks at its two ends. -/
def trim (t : List Char) : List Char :=
  trimWhile isBlank t

/-- The parts before and after the first `c`, if there is one. -/
def splitFirst (c : Char) : List Char → Option (List Char × List Char)
  | [] => none
  | x :: rest =>
    if x = c then some ([], rest)
    else (splitFirst c rest).map fun parts => (x :: parts.1, parts.2)

/-- What follows `start` in a text that begins with it. -/
def afterStart (start t : List Char) : Option (List Char) :=
  if start.isPrefixOf t then some (t.drop start.length) else none

/-- What stands between two `c`, when a text of at least two characters begins and ends with it. -/
def unquote (c : Char) (t : List Char) : Option (List Char) :=
  match t with
  | [] => none
  | x :: rest => if x = c ∧ rest.getLast? = some c then some rest.dropLast else none

/-- A line up to the first `#` outside of double quotes. -/
def stripComment : (quoted : Bool) → List Char → List Char
  | _, [] => []
  | quoted, c :: rest =>
    if c = '#' ∧ quoted = false then []
    else c :: stripComment (if c = '"' then !quoted else quoted) rest

/-- Capital ASCII letters made small; every other character stays. -/
def lowerAscii (t : List Char) : List Char :=
  t.map Char.toLower

/-- A text in a field of at least `width` characters, filled with blanks on the right. -/
def padRight (width : Nat) (s : String) : String :=
  s ++ String.ofList (List.replicate (width - s.length) ' ')

/-- A text in a field of at least `width` characters, filled with blanks on the left. -/
def padLeft (width : Nat) (s : String) : String :=
  String.ofList (List.replicate (width - s.length) ' ') ++ s

/-- Lines as a text in which each of them ends with a line feed. -/
def unlines (ls : List String) : String :=
  String.join (ls.map fun l => l ++ "\n")

/-- The lines of a string. -/
def linesOf (s : String) : List (List Char) :=
  lines s.toList

/-- The words of a line, as strings. -/
def wordsOf (line : List Char) : List String :=
  (words line).map String.ofList

/-- A text that is split is put together again with the mark between its parts. -/
theorem splitFirst_eq_some {c : Char} {t a b : List Char} (h : splitFirst c t = some (a, b)) :
    t = a ++ c :: b := by
  induction t generalizing a with
  | nil => simp [splitFirst] at h
  | cons x rest ih =>
    simp only [splitFirst] at h
    split at h
    · next hx =>
      simp only [Option.some.injEq, Prod.mk.injEq] at h
      obtain ⟨rfl, rfl⟩ := h
      simp [hx]
    · obtain ⟨⟨a', b'⟩, hp, heq⟩ := Option.map_eq_some_iff.1 h
      simp only [Prod.mk.injEq] at heq
      obtain ⟨rfl, rfl⟩ := heq
      simp [ih hp]

end Text
end MipShrink
