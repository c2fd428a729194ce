import OpcodeTables.Text.Basic

/-!
Sets of characters, written as intervals of code points.
-/

namespace OpcodeTables.Text

/-- The first and the last code point of an interval. -/
abbrev Span := Nat × Nat

/-- The character lies in one of the intervals. -/
def inSpans (spans : List Span) (c : Char) : Bool :=
  spans.any fun (first, last) => first ≤ c.toNat && c.toNat ≤ last

end OpcodeTables.Text
