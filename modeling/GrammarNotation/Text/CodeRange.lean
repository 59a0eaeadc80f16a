/-!
# Ranges of code points

A property of characters that a standard fixes is kept as a sorted list of disjoint inclusive
ranges of code points, and a character has the property when one of the ranges holds it.

## Main definitions

- `CodeRange` — an inclusive range of code points
- `CodeRange.has` — membership of a character in a list of ranges
-/

namespace GrammarNotation.Text

/-- An inclusive range of code points: its first and its last member. -/
abbrev CodeRange := Nat × Nat

/-- Tells whether one of the ranges holds the character. -/
def CodeRange.has (ranges : List CodeRange) (c : Char) : Bool :=
  ranges.any fun range => range.1 ≤ c.toNat && c.toNat ≤ range.2

end GrammarNotation.Text
