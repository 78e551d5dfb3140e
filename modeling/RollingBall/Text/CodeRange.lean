/-!
# Code ranges

A character class is a list of ranges of code points, both ends included.
-/

namespace RollingBall.Text

/-- The code point of the character lies in one of the ranges. -/
def inRanges (ranges : List (Nat × Nat)) (c : Char) : Bool :=
  ranges.any fun range => decide (range.1 ≤ c.toNat) && decide (c.toNat ≤ range.2)

end RollingBall.Text
