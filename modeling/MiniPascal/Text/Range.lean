/-!
# Classes of characters given by ranges of code points

A property of a character standard is data: an increasing list of inclusive ranges.
-/

namespace MiniPascal.Text

/-- An inclusive range of code points. -/
structure CodeRange where
  first : Nat
  last : Nat
  deriving DecidableEq, Repr

/-- Whether the code point of `character` lies in the range. -/
def CodeRange.holds (range : CodeRange) (character : Char) : Bool :=
  range.first ≤ character.toNat && character.toNat ≤ range.last

/-- Whether `character` lies in one of `ranges`. -/
def inRanges (ranges : List CodeRange) (character : Char) : Bool :=
  ranges.any (·.holds character)

end MiniPascal.Text
