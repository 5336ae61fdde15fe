/-
# Packed files

A packed file is a sequence of *members*.  Each one has a header, the packed bytes, and their check
sum and number; the file stands for what all members hold, one after the other.

| part of the header | bytes |
| --- | --- |
| mark | `1f 8b 08` |
| marks of the parts that follow | 1, less than 32 |
| time and origin | 6 |
| further data, with its length before it | if marked 4 |
| name, ended by a zero | if marked 8 |
| comment, ended by a zero | if marked 16 |
| check sum of the header | 2, if marked 2 |
-/

import MipShrink.Gzip.Inflate

namespace MipShrink
namespace Gzip

/-- The check sum after another byte. -/
def sumByte (sum : UInt32) (b : UInt8) : UInt32 :=
  (List.range 8).foldl
    (fun c _ => if c &&& 1 == 1 then (c >>> 1) ^^^ 0xedb88320 else c >>> 1) (sum ^^^ b.toUInt32)

/-- The check sum of bytes. -/
def checkSum (bytes : List UInt8) : UInt32 :=
  (bytes.foldl sumByte 0xffffffff) ^^^ 0xffffffff

/-- Bytes that must be there. -/
def takeBytes : Nat → Bits → Except GzipFault (List UInt8 × Bits)
  | 0, bits => .ok ([], bits)
  | n + 1, bits =>
    match takeNumber 8 bits with
    | none => .error .truncated
    | some (b, bits) => do
      let (rest, bits) ← takeBytes n bits
      return (b.toUInt8 :: rest, bits)

/-- Bytes up to a zero, before which at most so many others may stand. -/
def takeText : Nat → Bits → Except GzipFault (List UInt8 × Bits)
  | limit, bits => do
    let (b, bits) ← takeBytes 1 bits
    if b = [0] then return (b, bits)
    else
      match limit with
      | 0 => throw .longText
      | limit + 1 =>
        let (rest, bits) ← takeText limit bits
        return (b ++ rest, bits)

/-- The number that bytes stand for, the lowest one first. -/
def numberOf (bytes : List UInt8) : Nat :=
  bytes.foldr (fun b n => b.toNat + 256 * n) 0

/-- So many bytes may a name or a comment have. -/
def maxText : Nat := 65535

/-- A part of a header, if it is marked. -/
def takePart (marked : Bool) (part : Bits → Except GzipFault (List UInt8 × Bits)) (bits : Bits) :
    Except GzipFault (List UInt8 × Bits) :=
  if marked then part bits else .ok ([], bits)

/-- Further data, with their length before them. -/
def takeFurther (bits : Bits) : Except GzipFault (List UInt8 × Bits) := do
  let (size, bits) ← takeBytes 2 bits
  let (held, bits) ← takeBytes (numberOf size) bits
  return (size ++ held, bits)

/-- The bits after the header of a member. -/
def skipHeader (bits : Bits) : Except GzipFault Bits := do
  let (fixed, bits) ← takeBytes 10 bits
  let marks := numberOf ((fixed.drop 3).take 1)
  if fixed.take 3 ≠ [0x1f, 0x8b, 8] ∨ 32 ≤ marks then throw .badHeader
  let (further, bits) ← takePart (marks.testBit 2) takeFurther bits
  let (name, bits) ← takePart (marks.testBit 3) (takeText maxText) bits
  let (comment, bits) ← takePart (marks.testBit 4) (takeText maxText) bits
  let (sum, bits) ← takePart (marks.testBit 1) (takeBytes 2) bits
  let whole := checkSum (fixed ++ further ++ name ++ comment)
  if sum = [] ∨ numberOf sum = whole.toNat % Nat.pow 2 16 then return bits else throw .checkSum

/-- The bits after the end of a member that holds the given bytes. -/
def skipTrailer (held : ByteArray) (bits : Bits) : Except GzipFault Bits := do
  let (sum, bits) ← takeBytes 4 (align bits)
  let (size, bits) ← takeBytes 4 bits
  if numberOf sum = (checkSum held.toList).toNat ∧ numberOf size = held.size % Nat.pow 2 32 then
    return bits
  else throw .checkSum

/-- Files are read, and unpacked bytes handed on, in pieces of so many bytes. -/
def pieceSize : Nat := 32768

/-- Do packed bits show that they are corrupt? -/
def isCorrupt (u : Unpacked) : Bool :=
  match u.2 with
  | .error .corrupt => true
  | _ => false

/-- What is handed on of corrupt bits, before which so many bytes stand in the file: what was
unpacked before the piece of the file that shows it, and at least the whole pieces after which there
was another byte to unpack. -/
def handedOn (before : Nat) (bits : Bits) (out : ByteArray) : ByteArray :=
  let pieces := (List.range ((before + bits.length / 8) / pieceSize + 1)).map fun k =>
    unpack (bits.take (8 * (k * pieceSize - before)))
  let intact := (pieces.filter fun u => !isCorrupt u).getLast?.map fun u => u.1.size
  out.extract 0 (max (intact.getD 0) ((out.size - 1) / pieceSize * pieceSize))

/-- What the member at the start of the bits holds, and the bits after it; the file ends with
these bits and has so many bytes. -/
def unpackMember (size : Nat) (bits : Bits) : Unpacked :=
  match skipHeader bits with
  | .error e => (ByteArray.empty, .error e)
  | .ok bits =>
    let held := unpack bits
    if isCorrupt held then (handedOn (size - bits.length / 8) bits held.1, held.2)
    else (held.1, held.2.bind (skipTrailer held.1))

/-- What the members hold, appended to the bytes before them, and what is wrong with the file.
Every member takes some bytes. -/
def unpackMembers (size : Nat) : Nat → Bits → ByteArray → ByteArray × Option GzipFault
  | 0, _, out => (out, some .truncated)
  | fuel + 1, bits, out =>
    match unpackMember size bits with
    | (held, .error e) => (out ++ held, some e)
    | (held, .ok bits) =>
      if bits.isEmpty then (out ++ held, none) else unpackMembers size fuel bits (out ++ held)

/-- The bytes that a packed file stands for, as far as they are handed on, and what is wrong with
the file. -/
def unpackFile (b : ByteArray) : ByteArray × Option GzipFault :=
  unpackMembers b.size (b.size + 1) (bitsOf b) ByteArray.empty

/-- The bytes of the first member of a file, and what is wrong with it. -/
def unpackFirst (b : ByteArray) : ByteArray × Option GzipFault :=
  match unpackMember b.size (bitsOf b) with
  | (held, .error e) => (held, some e)
  | (held, .ok _) => (held, none)

end Gzip
end MipShrink
