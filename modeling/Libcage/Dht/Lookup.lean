import Mathlib.Data.Finset.Sort
import Libcage.Dht.Query

/-!
# `Libcage.Dht.Lookup`: the contacts closest to an id

`lookup` is `rttable::lookup`. It picks the rows to look at in two loops: `id2i4lookup`
clears the bits of the distance from the highest one down until the own id is left, and
`id2i4lookupR` goes over the other rows from the nearest one up. Both stop when there are
enough contacts.
-/

set_option autoImplicit false

namespace Libcage.Dht

open Libcage.Rdp (Id Table)

namespace Rttable

/-- The loop of `rttable::id2i4lookup`: the number of contacts and the rows. -/
def id2i4lookupLoop (t : Rttable) (max : Int) :
    Nat → Id → Int → Finset Int → Except TableFault (Int × Finset Int)
  | 0, _, _, _ => .error .unfinished
  | rounds + 1, id0, n, is =>
      if n < max then
        if t.id ^^^ id0 = 0 then
          .ok (n + 1, insert (-1) is)
        else
          let i := id2i t.id id0
          match t.table.lookup i with
          | some row =>
              id2i4lookupLoop t max rounds (id0 ^^^ 1#160 <<< i.toNat) (n + row.length)
              (insert i is)
          | none => id2i4lookupLoop t max rounds (id0 ^^^ 1#160 <<< i.toNat) n is
      else
        .ok (n, is)

/-- `rttable::id2i4lookup`. -/
def id2i4lookup (t : Rttable) (rounds : Nat) (id : Id) (max : Int) :
    Except TableFault (Int × Finset Int) :=
  t.id2i4lookupLoop max rounds id 0 ∅

/-- The loop of `rttable::id2i4lookupR` over the rows that are left. -/
def id2i4lookupRLoop (id0 : Id) (max : Int) :
    List (Sigma fun _ : Int => List Cageaddr) → Int → Finset Int → Int × Finset Int
  | [], n, is => (n, is)
  | it :: todo, n, is =>
      if n ≥ max then
        (n, is)
      else if 1#160 <<< it.1.toNat &&& id0 ≠ 0 then
        id2i4lookupRLoop id0 max todo (n + it.2.length) (insert it.1 is)
      else
        id2i4lookupRLoop id0 max todo n is

/-- The rows in the order of a `std::map`. -/
def rowsInOrder (t : Rttable) : List (Sigma fun _ : Int => List Cageaddr) :=
  t.table.entries.mergeSort fun a b => decide (a.1 ≤ b.1)

/-- `rttable::id2i4lookupR`. -/
def id2i4lookupR (t : Rttable) (id : Id) (max : Int) (is : Finset Int) : Int × Finset Int :=
  id2i4lookupRLoop (~~~(t.id ^^^ id)) max t.rowsInOrder 0 is

/-- What `lookup` takes from a row. The own id stands for the row `-1`. -/
def members (t : Rttable) (i : Int) : List Cageaddr :=
  if i = -1 then [⟨t.id, .loopback⟩] else t.row i

/-- `rttable::lookup`, with as many rounds for its first loop as given. -/
def lookup (t : Rttable) (rounds : Nat) (id : Id) (num : Int) (ret : List Cageaddr) :
    Except TableFault (List Cageaddr) := do
  let (n, is) ← t.id2i4lookup rounds id num
  let is := if n < num then (t.id2i4lookupR id (num - n) is).2 else is
  let ret := ret ++ (is.sort (· ≤ ·)).flatMap t.members
  return (sortNodes id ret).take num.toNat

end Rttable

end Libcage.Dht
