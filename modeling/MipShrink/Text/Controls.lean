/-
# Control sequences

A text that is meant for a terminal may hold characters that steer it.  They are left out where the
text is logged, and with each of them the sequence that it begins:

| beginning | the sequence goes on up to |
| --- | --- |
| `ESC [` | a character from `@` to `~` |
| `ESC ]` | a bell |
| `ESC P` | a character from `@` to `~`, and then as a text for the terminal |
| `ESC X`, `ESC ^`, `ESC _` | a text for the terminal, which any `ESC` ends |
| `ESC` and blanks or marks | a character from `0` to `~` |

Cancelling (`0x18`, `0x1a`) ends every sequence, and an `ESC` begins the next one.  Line breaks and
tabs inside of a sequence are shown, and what follows them up to the next control character, too;
then the sequence goes on.
-/

namespace MipShrink
namespace Text

/-- The place in a control sequence. -/
inductive Steering where
  /-- Outside of all sequences. -/
  | ground
  /-- After `ESC`. -/
  | escape
  /-- After `ESC` and a blank or mark. -/
  | escapeMarks
  /-- After `ESC [`. -/
  | command
  /-- After `ESC ]`. -/
  | title
  /-- After `ESC P`. -/
  | device
  /-- In a text for the terminal. -/
  | body
deriving DecidableEq, Repr

namespace Steering

/-- Is the character above ASCII? -/
def isWide (c : Char) : Bool := decide (0x80 ≤ c.toNat)

/-- Line breaks and tabs. -/
def isLayout (c : Char) : Bool := c = '\t' ∨ c = '\n' ∨ c = '\x0c' ∨ c = '\r'

/-- Characters that stand for themselves. -/
def isShown (c : Char) : Bool := (' ' ≤ c ∧ c ≤ '~') || isLayout c || isWide c

/-- The place after the character behind `ESC`. -/
def afterEscape (c : Char) : Steering :=
  if ' ' ≤ c ∧ c ≤ '/' then escapeMarks
  else if c = '[' then command
  else if c = ']' then title
  else if c = 'P' then device
  else if c = 'X' ∨ c = '^' ∨ c = '_' then body
  else if '0' ≤ c ∧ c ≤ '~' then ground
  else escape

/-- Does the code of the character hold the mark that ends a text for the terminal? -/
def endsBody (c : Char) : Bool :=
  isWide c && (c.toString.toUTF8.toList.contains 0x9c)

/-- The place after a character that is not shown. -/
def next (c : Char) (s : Steering) : Steering :=
  if c = '\x1b' then escape
  else if c = '\x18' ∨ c = '\x1a' then ground
  else
    match s with
    | ground => ground
    | escape => afterEscape c
    | escapeMarks => if '0' ≤ c ∧ c ≤ '~' then ground else escapeMarks
    | command => if '@' ≤ c ∧ c ≤ '~' then ground else command
    | title => if c = '\x07' then ground else title
    | device => if '@' ≤ c ∧ c ≤ '~' then body else device
    | body => if endsBody c then ground else body

/-- Is the character shown at this place? -/
def shows (c : Char) : Steering → Bool
  | ground => isShown c
  | escape => isLayout c
  | escapeMarks => isLayout c
  | command => isLayout c
  | _ => false

end Steering

open Steering

/-- The characters that are shown from a place on; `showing` tells that the last one was. -/
def shownFrom (showing : Bool) (s : Steering) : List Char → List Char
  | [] => []
  | c :: cs =>
    if showing ∧ isShown c then c :: shownFrom true (if isWide c then ground else s) cs
    else if s.shows c then c :: shownFrom true s cs
    else shownFrom false (s.next c) cs

/-- A text without control characters and the sequences that they begin. -/
def withoutControls (t : List Char) : List Char :=
  shownFrom false ground t

end Text
end MipShrink
