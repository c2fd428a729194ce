import OpcodeTables.Text.Span

/-!
Blank characters and the removal of blanks around a text. The blanks are the white space of
Unicode and the four separator controls, U+001C to U+001F. A zero-width space is not blank.
-/

namespace OpcodeTables.Text

/-- The blank characters. -/
def blankSpans : List Span := [
  (0x0009, 0x000D), (0x001C, 0x0020), (0x0085, 0x0085), (0x00A0, 0x00A0), (0x1680, 0x1680),
  (0x2000, 0x200A), (0x2028, 0x2029), (0x202F, 0x202F), (0x205F, 0x205F), (0x3000, 0x3000)
]

/-- A blank character. -/
def isBlank (c : Char) : Bool :=
  inSpans blankSpans c

/-- The text without the blanks at its end. -/
def trimEnd (text : Text) : Text :=
  (text.reverse.dropWhile isBlank).reverse

/-- The text without the blanks at its start and at its end. -/
def trim (text : Text) : Text :=
  trimEnd (text.dropWhile isBlank)

end OpcodeTables.Text
