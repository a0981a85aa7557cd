/-!
# Sets of characters given by ranges

A property of characters is stored as an array of closed ranges of code points.
-/

namespace TestConversion.Text

/-- Closed ranges of code points. -/
abbrev CharRanges := Array (Nat × Nat)

def inRanges (ranges : CharRanges) (c : Char) : Bool :=
  ranges.any fun r => r.1 ≤ c.toNat && c.toNat ≤ r.2

end TestConversion.Text
