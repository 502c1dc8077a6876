/-!
# Ranges of characters

A property of characters taken from a standard is a table of closed ranges of code points.
-/

namespace Bundler.Text

/-- Whether the code point of `c` lies in one of the closed `ranges`. -/
def inRanges (ranges : Array (Nat × Nat)) (c : Char) : Bool :=
  ranges.any fun r => r.1 ≤ c.toNat && c.toNat ≤ r.2

end Bundler.Text
