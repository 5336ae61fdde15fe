/-
# Association lists in the order of their keys

A list of key-value pairs with strictly increasing keys, no key twice.  `put` and `drop` keep the
order; `List.lookup` reads an entry.  The order of the keys is given by a test `before`.
-/

namespace MipShrink
namespace Keyed

variable {κ β : Type}

/-- Give the key `k` the value `v`, in its place. -/
def put (before : κ → κ → Bool) (k : κ) (v : β) : List (κ × β) → List (κ × β)
  | [] => [(k, v)]
  | e :: rest =>
    if before k e.1 then (k, v) :: e :: rest
    else if before e.1 k then e :: put before k v rest
    else (k, v) :: rest

/-- The entries with other keys than `k`. -/
def drop [BEq κ] (k : κ) (l : List (κ × β)) : List (κ × β) :=
  l.filter fun e => !(e.1 == k)

/-- The order of natural numbers. -/
def natBefore (a b : Nat) : Bool := decide (a < b)

/-- The order of matrix positions: by row, then by column. -/
def positionBefore (a b : Nat × Nat) : Bool :=
  decide (a.1 < b.1) || (a.1 == b.1 && decide (a.2 < b.2))

/-- The order of names, character by character. -/
def nameBefore (a b : String) : Bool := decide (a < b)

/-- The entries of a list of pairs, put one after the other. -/
def ofList (before : κ → κ → Bool) (l : List (κ × β)) : List (κ × β) :=
  l.foldl (fun m e => put before e.1 e.2 m) []

end Keyed
end MipShrink
