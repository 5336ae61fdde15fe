/-
# Bits and prefix codes

A packed sequence of bytes is a sequence of bits, each byte being taken from its lowest bit on.
Symbols are written in a code in which no word begins another one, which makes a tree: a bit tells
which way to go, and a symbol stands where a word ends.  A code is told by the lengths of its words
alone.  Shorter words stand further left, and words of one length in the order of their symbols.
-/

import MipShrink.Error

namespace MipShrink
namespace Gzip

/-- Bits that wait to be read. -/
abbrev Bits := List Bool

/-- The bits of bytes. -/
def bitsOf (b : ByteArray) : Bits :=
  b.toList.flatMap fun x => (List.range 8).map fun k => x.toNat.testBit k

/-- The bits from the next byte boundary on. -/
def align (bits : Bits) : Bits :=
  bits.drop (bits.length % 8)

/-- A number of so many bits, the lowest one first, and the bits after it, if there are enough. -/
def takeNumber : Nat → Bits → Option (Nat × Bits)
  | 0, bits => some (0, bits)
  | _ + 1, [] => none
  | n + 1, b :: bits => (takeNumber n bits).map fun r => (b.toNat + 2 * r.1, r.2)

/-- A code in which no word begins another one. -/
inductive PrefixCode where
  /-- No word goes this way. -/
  | free
  | word (symbol : Nat)
  | fork (zero one : PrefixCode)
deriving DecidableEq, Repr, Inhabited

namespace PrefixCode

/-- The code without words. -/
def start : PrefixCode := fork free free

/-- The code in which a symbol has the leftmost word of the given length that is still free. -/
def assign (symbol : Nat) : Nat → PrefixCode → Option PrefixCode
  | 0, free => some (word symbol)
  | n + 1, free => (assign symbol n free).map fun c => fork c free
  | n + 1, fork a b =>
    match assign symbol n a with
    | some a => some (fork a b)
    | none => (assign symbol n b).map (fork a)
  | _, _ => none

/-- The symbols `0, 1, …` that have words when these have the given lengths, a length of zero
standing for no word; the shortest word comes first. -/
def used (lengths : List Nat) : List (Nat × Nat) :=
  (List.range 15).flatMap fun n => lengths.zipIdx.filter fun e => e.1 == n + 1

/-- The code of the given lengths, unless there are too many words. -/
def ofLengths (lengths : List Nat) : Option PrefixCode :=
  (used lengths).foldlM (fun c e => c.assign e.2 e.1) start

/-- Does every way end in a word? -/
def isFull : PrefixCode → Bool
  | free => false
  | word _ => true
  | fork a b => a.isFull && b.isFull

/-- The code of the given lengths if every way ends in a word. -/
def full? (lengths : List Nat) : Option PrefixCode :=
  (ofLengths lengths).filter isFull

/-- The code of the given lengths if every way ends in a word or no word has more than one bit, so
that there is at most one. -/
def usable? (lengths : List Nat) : Option PrefixCode :=
  (ofLengths lengths).filter fun c => c.isFull || lengths.all (· ≤ 1)

/-- A symbol, and the bits after its word. -/
def take : PrefixCode → Bits → Except GzipFault (Nat × Bits)
  | free, _ => .error .corrupt
  | word s, bits => .ok (s, bits)
  | fork _ _, [] => .error .incomplete
  | fork a b, bit :: bits => if bit then b.take bits else a.take bits

end PrefixCode

end Gzip
end MipShrink
