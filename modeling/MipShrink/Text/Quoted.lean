/-
# Quoted texts

A quotation stands between double quotes.  In it a quote and a backslash follow a backslash, tab,
line feed, carriage return and the null character have names of one letter, and the characters of
`Text.isSpelled` are spelled by their code point, as in `\u{301}`.
-/

import MipShrink.Text.Spelled

namespace MipShrink
namespace Text

/-- The characters that stand for `c` in a quotation. -/
def quoteChar (c : Char) : List Char :=
  if c = '"' then ['\\', '"']
  else if c = '\\' then ['\\', '\\']
  else if c = '\t' then ['\\', 't']
  else if c = '\n' then ['\\', 'n']
  else if c = '\r' then ['\\', 'r']
  else if c = Char.ofNat 0 then ['\\', '0']
  else if isSpelled c then '\\' :: 'u' :: '\x7b' :: (Nat.toDigits 16 c.toNat ++ ['\x7d'])
  else [c]

/-- A text as a quotation. -/
def quote (t : List Char) : String :=
  String.ofList ('"' :: (t.flatMap quoteChar ++ ['"']))

end Text
end MipShrink
