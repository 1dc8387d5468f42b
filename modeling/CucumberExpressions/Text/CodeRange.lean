/-!
# Ranges of code points

Classes of characters are given by closed ranges of code points.

## Main definitions

* `Text.CodeRange` — the code points from a first to a last one
* `Text.inRanges` — whether a character lies in one of several ranges
-/

namespace CucumberExpressions.Text

/-- The code points from `first` to `last`, both included. -/
structure CodeRange where
  first : Nat
  last : Nat
  deriving DecidableEq, Repr

/-- Whether the code point of `c` lies in one of `ranges`. -/
def inRanges (ranges : List CodeRange) (c : Char) : Bool :=
  ranges.any fun range => range.first ≤ c.toNat && c.toNat ≤ range.last

end CucumberExpressions.Text
