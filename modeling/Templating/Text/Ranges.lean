/-!
# Ranges of code points

A property of characters that a standard lists is a table of closed ranges of
code points, ascending and apart.
-/

namespace Templating.Text

/-- Whether some range holds the code point of `c`. -/
def inRanges (ranges : List (Nat × Nat)) (c : Char) : Bool :=
  ranges.any fun r => decide (r.1 ≤ c.toNat) && decide (c.toNat ≤ r.2)

end Templating.Text
