/-
# Bytes as characters

Bytes that should be a text in UTF-8 fall into pieces.  A piece is a character, or else as many
bytes as begin some character without going on as one.

| first byte | further bytes |
| --- | --- |
| `00` to `7f` | none |
| `c2` to `df` | one |
| `e0` to `ef` | two |
| `f0` to `f4` | three |

A further byte is one from `80` to `bf`.  The second byte is bounded more closely after `e0` and
`f0`, where smaller ones would spell a character in more bytes than it needs, and after `ed` and
`f4`, where larger ones would spell no character.
-/

namespace MipShrink
namespace Text
namespace Utf8

/-- A part of a sequence of bytes. -/
inductive Piece where
  | char (c : Char)
  /-- Bytes that begin a character which the byte after them does not go on with. -/
  | bad (bytes : Nat)
  /-- Bytes that begin a character when there are no more bytes. -/
  | cut (bytes : Nat)
deriving DecidableEq, Repr

/-- A character whose first bytes have been read. -/
structure Pending where
  /-- The number of bytes. -/
  bytes : Nat
  /-- The code of the character as far as it is known. -/
  code : Nat
  /-- Where the next byte lies. -/
  range : Nat × Nat
  /-- How many bytes follow after the next one. -/
  more : Nat
deriving DecidableEq, Repr

/-- The bytes that may follow. -/
def usual : Nat × Nat := (0x80, 0xbf)

/-- The character that a byte begins, if it begins one that has further bytes. -/
def begin? (b : Nat) : Option Pending :=
  if b < 0xc2 then none
  else if b < 0xe0 then some ⟨1, b % 32, usual, 0⟩
  else if b < 0xf0 then
    some ⟨1, b % 16, if b = 0xe0 then (0xa0, 0xbf) else if b = 0xed then (0x80, 0x9f) else usual, 1⟩
  else if b < 0xf5 then
    some ⟨1, b % 8, if b = 0xf0 then (0x90, 0xbf) else if b = 0xf4 then (0x80, 0x8f) else usual, 2⟩
  else none

/-- The pieces that are complete with a byte after which no character is pending, and the character
that is. -/
def first (b : Nat) : List Piece × Option Pending :=
  if b < 0x80 then ([.char (Char.ofNat b)], none)
  else
    match begin? b with
    | some p => ([], some p)
    | none => ([.bad 1], none)

/-- The pieces that are complete with a byte, and the character that is pending after it. -/
def step (b : Nat) : Option Pending → List Piece × Option Pending
  | none => first b
  | some p =>
    if p.range.1 ≤ b ∧ b ≤ p.range.2 then
      let code := 64 * p.code + b % 64
      if p.more = 0 then ([.char (Char.ofNat code)], none)
      else ([], some ⟨p.bytes + 1, code, usual, p.more - 1⟩)
    else
      let (pieces, p') := first b
      (.bad p.bytes :: pieces, p')

/-- The pieces of bytes after a pending character. -/
def piecesAfter (p : Option Pending) : List UInt8 → List Piece
  | [] => (p.map fun p => Piece.cut p.bytes).toList
  | b :: rest =>
    let r := step b.toNat p
    r.1 ++ piecesAfter r.2 rest

/-- The pieces of bytes. -/
def pieces (bytes : List UInt8) : List Piece := piecesAfter none bytes

/-- The character that stands for bytes which are none. -/
def replacement : Char := '\uFFFD'

/-- Bytes as characters, with a replacement for each piece that is none. -/
def decode (bytes : List UInt8) : List Char :=
  (pieces bytes).map fun
    | .char c => c
    | _ => replacement

/-- Where the first piece that is no character begins, after so many bytes, and how many bytes it
has unless it is cut off. -/
def faultFrom (index : Nat) : List Piece → Option (Nat × Option Nat)
  | [] => none
  | .char c :: rest => faultFrom (index + c.utf8Size) rest
  | .bad n :: _ => some (index, some n)
  | .cut _ :: _ => some (index, none)

/-- ASCII characters are read byte by byte. -/
theorem decode_cons_ascii (b : UInt8) (rest : List UInt8) (h : b.toNat < 0x80) :
    decode (b :: rest) = Char.ofNat b.toNat :: decode rest := by
  simp [decode, pieces, piecesAfter, step, first, h]

end Utf8
end Text
end MipShrink
