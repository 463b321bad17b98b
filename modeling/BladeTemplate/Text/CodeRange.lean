/-!
# Ranges of code points

Character classes beyond ASCII are given as ordered, disjoint ranges of code points with both
ends included. They are those of Unicode 15.0.
-/

namespace BladeTemplate.Text

/-- Ranges of code points, ends included. -/
abbrev CodeRanges := List (Nat × Nat)

/-- Whether the code point of `c` lies in one of the ranges. -/
def CodeRanges.holds (ranges : CodeRanges) (c : Char) : Bool :=
  ranges.any fun (first, last) => first ≤ c.toNat && c.toNat ≤ last

end BladeTemplate.Text
