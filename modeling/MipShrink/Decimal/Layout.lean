/-
# Laying out decimal digits

Three layouts of a double are in use:

| layout | `1.5e20` | `1e-7` | `2` | where |
| --- | --- | --- | --- | --- |
| `plain` | `150000000000000000000` | `0.0000001` | `2` | problems, solutions, parameters |
| `pointed` | `1.5e20` | `1e-7` | `2.0` | settings |
| `places k` | | | `2.00` | times of a report |

The first two show the shortest digits that read back; `places` rounds the exact value to `k`
decimals, a tie going to the even one.
-/

import MipShrink.Decimal.Shortest

namespace MipShrink
namespace Layout

/-- The decimal digits of a natural number. -/
def digitsOf (n : Nat) : List Char :=
  Nat.toDigits 10 n

/-- So many zeros. -/
def zeros (k : Nat) : List Char :=
  List.replicate k '0'

/-- `c · 10^p` without exponent. -/
def positional (c : Nat) (p : Int) : List Char :=
  let ds := digitsOf c
  let after := (-p).toNat
  if 0 ≤ p then ds ++ zeros p.toNat
  else if after < ds.length then
    ds.take (ds.length - after) ++ '.' :: ds.drop (ds.length - after)
  else '0' :: '.' :: (zeros (after - ds.length) ++ ds)

/-- An integer in decimal. -/
def ofInt (k : Int) : List Char :=
  if k < 0 then '-' :: digitsOf k.natAbs else digitsOf k.natAbs

/-- `c · 10^p` with one digit before the point and an exponent. -/
def scientific (c : Nat) (p : Int) : List Char :=
  let ds := digitsOf c
  let mantissa :=
    match ds with
    | [] => []
    | [d] => [d]
    | d :: rest => d :: '.' :: rest
  mantissa ++ 'e' :: ofInt (p + (ds.length - 1 : Nat))

/-- A sign in front of a text. -/
def signed (negative : Bool) (t : List Char) : List Char :=
  if negative then '-' :: t else t

/-- The shortest digits, always written out. -/
def plain : Binary64 → String
  | .nan _ => "NaN"
  | .infinite negative => String.ofList (signed negative "inf".toList)
  | .finite negative m e =>
    if m = 0 then String.ofList (signed negative ['0'])
    else
      let d := Shortest.digits m e
      String.ofList (signed negative (positional d.1 d.2))

/-- Positional digits that always show a point. -/
def withPoint (c : Nat) (p : Int) : List Char :=
  if 0 ≤ p then positional c p ++ ['.', '0'] else positional c p

/-- The shortest digits: from `10^16` on and below `10^-4` with an exponent, else with a point. -/
def pointed : Binary64 → String
  | .nan _ => "NaN"
  | .infinite negative => String.ofList (signed negative "inf".toList)
  | .finite negative m e =>
    if m = 0 then String.ofList (signed negative "0.0".toList)
    else
      let d := Shortest.digits m e
      let top := d.2 + ((digitsOf d.1).length : Int)
      let body := if top < -3 ∨ 16 < top then scientific d.1 d.2 else withPoint d.1 d.2
      String.ofList (signed negative body)

/-- The exact value rounded to `k` decimals, a tie going to the even one. -/
def places (k : Nat) : Binary64 → String
  | .nan _ => "NaN"
  | .infinite negative => String.ofList (signed negative "inf".toList)
  | .finite negative m e =>
    let n := Binary64.roundDiv (Binary64.scaleUp (m * Nat.pow 10 k) e) (Binary64.scaleUp 1 (-e))
    let ds := digitsOf n
    let ds := zeros (k + 1 - ds.length) ++ ds
    let body := if k = 0 then ds else ds.take (ds.length - k) ++ '.' :: ds.drop (ds.length - k)
    String.ofList (signed negative body)

end Layout
end MipShrink
