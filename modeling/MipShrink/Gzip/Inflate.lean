/-
# Unpacking blocks

Packed bytes come in blocks, and a block holds its bytes in one of three ways:

| kind | contents |
| ---: | --- |
| 0 | the bytes as they are, from a byte boundary on |
| 1 | literals and copies in fixed codes |
| 2 | literals and copies in codes that the block describes first |

A copy repeats bytes that were unpacked before; before the first of them there are zeros.  When
something is wrong with the bits, the bytes unpacked so far are kept.
-/

import MipShrink.Gzip.Code

namespace MipShrink
namespace Gzip

/-- Unpacked bytes, and the bits after them. -/
abbrev Unpacked := ByteArray × Except GzipFault Bits

/-- A number that must be there. -/
def needNumber (n : Nat) (bits : Bits) : Except GzipFault (Nat × Bits) :=
  match takeNumber n bits with
  | some r => .ok r
  | none => .error .incomplete

/-- Ranges of numbers that follow one another, each told by its first number and by how many bits
a place in it takes. -/
def ranges (start : Nat) : List Nat → List (Nat × Nat)
  | [] => []
  | n :: rest => (start, n) :: ranges (start + Nat.pow 2 n) rest

/-- The lengths of copies, by symbol. -/
def copyLengths : List (Nat × Nat) :=
  ranges 3 (List.replicate 8 0 ++ [1, 2, 3, 4, 5].flatMap (List.replicate 4)) ++ [(258, 0)]

/-- The distances of copies, by symbol. -/
def copyDistances : List (Nat × Nat) :=
  ranges 1 (List.replicate 4 0 ++ (List.range' 1 13).flatMap (List.replicate 2))

/-- A number in the range of a symbol. -/
def takeInRange (table : List (Nat × Nat)) (symbol : Nat) (bits : Bits) :
    Except GzipFault (Nat × Bits) := do
  let some (first, n) := table[symbol]? | throw .corrupt
  let (x, bits) ← needNumber n bits
  return (first + x, bits)

/-- The byte that stands so many places before the next one. -/
def lookBack (distance : Nat) (out : ByteArray) : UInt8 :=
  if distance ≤ out.size then (out[out.size - distance]?).getD 0 else 0

/-- Append so many bytes, each of them the one that stands `distance` places before it. -/
def copyBack (distance : Nat) : Nat → ByteArray → ByteArray
  | 0, out => out
  | n + 1, out => copyBack distance n (out.push (lookBack distance out))

/-- Append so many bytes that stand in the bits as they are. -/
def copyBytes : Nat → Bits → ByteArray → Unpacked
  | 0, bits, out => (out, .ok bits)
  | n + 1, bits, out =>
    match needNumber 8 bits with
    | .error e => (out, .error e)
    | .ok (x, bits) => copyBytes n bits (out.push x.toUInt8)

/-- A length and a distance, for a symbol that begins a copy. -/
def takeCopy (distances : PrefixCode) (symbol : Nat) (bits : Bits) :
    Except GzipFault (Nat × Nat × Bits) := do
  let (length, bits) ← takeInRange copyLengths (symbol - 257) bits
  let (s, bits) ← distances.take bits
  let (distance, bits) ← takeInRange copyDistances s bits
  return (length, distance, bits)

/-- Literals and copies up to the end of the block.  Every step reads a bit. -/
def unpackCoded (literals distances : PrefixCode) : Nat → Bits → ByteArray → Unpacked
  | 0, _, out => (out, .error .incomplete)
  | fuel + 1, bits, out =>
    match literals.take bits with
    | .error e => (out, .error e)
    | .ok (s, bits) =>
      if s < 256 then unpackCoded literals distances fuel bits (out.push s.toUInt8)
      else if s = 256 then (out, .ok bits)
      else
        match takeCopy distances s bits with
        | .error e => (out, .error e)
        | .ok (length, distance, bits) =>
          unpackCoded literals distances fuel bits (copyBack distance length out)

/-- A code that a block may use. -/
def needCode (code : Option PrefixCode) : Except GzipFault PrefixCode :=
  match code with
  | some c => .ok c
  | none => .error .corrupt

/-- The lengths of the words of the fixed codes. -/
def fixedLengths : List Nat × List Nat :=
  (List.replicate 144 8 ++ List.replicate 112 9 ++ List.replicate 24 7 ++ List.replicate 8 8,
    List.replicate 32 5)

/-- The lengths of code words up to so many of them, the latest first.  They are themselves in a
code, in which 16 repeats the last length, and 17 and 18 stand for runs of zeros. -/
def takeLengths (code : PrefixCode) (wanted : Nat) :
    Nat → List Nat → Bits → Except GzipFault (List Nat × Bits)
  | 0, _, _ => .error .corrupt
  | fuel + 1, lengths, bits => do
    if lengths.length = wanted then return (lengths, bits)
    else if wanted < lengths.length then throw .corrupt
    else
      let (s, bits) ← code.take bits
      if s < 16 then takeLengths code wanted fuel (s :: lengths) bits
      else
        let some last := if s = 16 then lengths.head? else some 0 | throw .corrupt
        let (least, n) := if s = 16 then (3, 2) else if s = 17 then (3, 3) else (11, 7)
        let (more, bits) ← needNumber n bits
        takeLengths code wanted fuel (List.replicate (least + more) last ++ lengths) bits

/-- The symbols of the code of lengths, in the order in which the lengths of their words stand. -/
def lengthOrder : List Nat :=
  [16, 17, 18, 0, 8, 7, 9, 6, 10, 5, 11, 4, 12, 3, 13, 2, 14, 1, 15]

/-- Numbers of three bits each. -/
def takeTriples : Nat → Bits → Except GzipFault (List Nat × Bits)
  | 0, bits => .ok ([], bits)
  | n + 1, bits => do
    let (x, bits) ← needNumber 3 bits
    let (rest, bits) ← takeTriples n bits
    return (x :: rest, bits)

/-- The numbers of words that the two codes of a block may have. -/
def maxWords : Nat × Nat := (286, 30)

/-- The codes that a block describes. -/
def takeCodes (bits : Bits) : Except GzipFault ((PrefixCode × PrefixCode) × Bits) := do
  let (a, bits) ← needNumber 5 bits
  let (b, bits) ← needNumber 5 bits
  let (c, bits) ← needNumber 4 bits
  let first := a + 257
  let second := b + 1
  if maxWords.1 < first ∨ maxWords.2 < second then throw .corrupt
  let (triples, bits) ← takeTriples (c + 4) bits
  let known := lengthOrder.zip triples
  let code ← needCode (PrefixCode.full? ((List.range 19).map fun s => (known.lookup s).getD 0))
  let (lengths, bits) ← takeLengths code (first + second) (first + second + 1) [] bits
  let literals ← needCode (PrefixCode.usable? (lengths.reverse.take first))
  let distances ← needCode (PrefixCode.usable? (lengths.reverse.drop first))
  return ((literals, distances), bits)

/-- The codes of a block of the given kind. -/
def codesOf (kind : Nat) (bits : Bits) : Except GzipFault ((PrefixCode × PrefixCode) × Bits) := do
  match kind with
  | 1 =>
    let literals ← needCode (PrefixCode.full? fixedLengths.1)
    let distances ← needCode (PrefixCode.full? fixedLengths.2)
    return ((literals, distances), bits)
  | 2 => takeCodes bits
  | _ => throw .corrupt

/-- A block whose bytes stand as they are, with their number before them, twice: the second time
with every bit turned. -/
def unpackPlain (bits : Bits) (out : ByteArray) : Unpacked :=
  let start := do
    let (n, bits) ← needNumber 16 (align bits)
    let (turned, bits) ← needNumber 16 bits
    if n + turned = 65535 then return (n, bits) else throw GzipFault.corrupt
  match start with
  | .error e => (out, .error e)
  | .ok (n, bits) => copyBytes n bits out

/-- A block of the given kind. -/
def unpackBlock (kind : Nat) (bits : Bits) (out : ByteArray) : Unpacked :=
  if kind = 0 then unpackPlain bits out
  else
    match codesOf kind bits with
    | .error e => (out, .error e)
    | .ok (codes, bits) => unpackCoded codes.1 codes.2 bits.length bits out

/-- Blocks up to the last one, appended to what was unpacked before.  Every block reads a bit. -/
def unpackBlocks : Nat → Bits → ByteArray → Unpacked
  | 0, _, out => (out, .error .incomplete)
  | fuel + 1, bits, out =>
    match needNumber 3 bits with
    | .error e => (out, .error e)
    | .ok (head, bits) =>
      match unpackBlock (head / 2) bits out with
      | (out, .error e) => (out, .error e)
      | (out, .ok bits) =>
        if head % 2 = 1 then (out, .ok bits) else unpackBlocks fuel bits out

/-- Unpack bytes from the start of the bits. -/
def unpack (bits : Bits) : Unpacked :=
  unpackBlocks bits.length bits ByteArray.empty

end Gzip
end MipShrink
