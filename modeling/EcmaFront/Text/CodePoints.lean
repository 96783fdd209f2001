import EcmaFront.Text.Basic

/-!
# Sets of code points

A Unicode property is kept as a list of ranges, each given by its first and its last code point.
-/

namespace EcmaFront.Text

/-- Whether one of the ranges holds the character. -/
def inRanges (ranges : List (Nat × Nat)) (c : Char) : Bool :=
  ranges.any fun (first, last) => decide (first ≤ c.toNat) && decide (c.toNat ≤ last)

end EcmaFront.Text
