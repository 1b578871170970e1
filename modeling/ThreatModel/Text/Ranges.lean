/-!
# Ranges of code points

A character class of Unicode is given as the list of its ranges of code points, ends included.
-/

namespace ThreatModel.Text

/-- One of the ranges holds the code point of the character. -/
def inRanges (ranges : List (Nat × Nat)) (c : Char) : Bool :=
  ranges.any fun r => r.1 ≤ c.toNat && c.toNat ≤ r.2

end ThreatModel.Text
