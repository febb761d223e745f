/-!
Ranges of code points, the rows of a character property's table.
-/

namespace PatternTree.Text

/-- The first and the last code point of a range. -/
abbrev CodeRange := Nat × Nat

def within (ranges : List CodeRange) (c : Char) : Bool :=
  ranges.any fun r => r.1 ≤ c.toNat && c.toNat ≤ r.2

end PatternTree.Text
