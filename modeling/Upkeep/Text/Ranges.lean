/-!
This module contains sets of code points, written as tables of ranges. The ranges of a table are
closed, disjoint and in increasing order.
-/

namespace Upkeep.Text

/--
A set of code points: the first and the last of each of its ranges.
-/
abbrev Ranges := Array (Nat × Nat)

namespace Ranges

/--
Whether `n` lies in one of the ranges at the places `lo` to `hi` of a table.
-/
def containsFrom (table : Ranges) (n lo hi : Nat) : Bool :=
  if lo < hi then
    let mid := (lo + hi) / 2
    match table[mid]? with
    | none => false
    | some (first, last) =>
      if n < first then containsFrom table n lo mid
      else if last < n then containsFrom table n (mid + 1) hi
      else true
  else
    false
termination_by hi - lo

def contains (table : Ranges) (c : Char) : Bool := table.containsFrom c.toNat 0 table.size

end Ranges

end Upkeep.Text
