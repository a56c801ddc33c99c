/-!
# Character sets

Character classes that a standard lists code point by code point are kept as
inclusive ranges, and membership is a search through the ranges.

## Main definitions

* `PackPlan.CharSet` — a set of characters, as ranges of code points
* `CharSet.contains` — membership
-/

namespace PackPlan

/-- A set of characters, as inclusive ranges of code points in ascending order. -/
structure CharSet where
  /-- First and last code point of each range. -/
  ranges : List (Nat × Nat)

namespace CharSet

/-- A character belongs to the set when its code point lies in one of the ranges. -/
def contains (set : CharSet) (c : Char) : Bool :=
  set.ranges.any fun range => range.1 ≤ c.toNat && c.toNat ≤ range.2

end CharSet

end PackPlan
