/-!
# Sets of code points as sorted intervals

A property of characters given by a standard is a table of disjoint closed intervals in ascending
order. Membership is a binary search, which looks at a number of intervals logarithmic in the size
of the table.
-/

namespace Isolate.Text

/-- Disjoint closed intervals of code points in ascending order. -/
abbrev Intervals := Array (Nat × Nat)

namespace Intervals

/-- Search the intervals with indices in `[low, high)`; each step of the fuel halves them. -/
def search (table : Intervals) (code : Nat) : (fuel low high : Nat) → Bool
  | 0, _, _ => false
  | fuel + 1, low, high =>
    if low < high then
      let middle := (low + high) / 2
      match table[middle]? with
      | none => false
      | some (first, last) =>
        if code < first then search table code fuel low middle
        else if last < code then search table code fuel (middle + 1) high
        else true
    else false

def contains (table : Intervals) (c : Char) : Bool :=
  search table c.toNat (table.size + 1) 0 table.size

end Intervals
end Isolate.Text
