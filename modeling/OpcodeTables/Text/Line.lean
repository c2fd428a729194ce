import OpcodeTables.Text.Span

/-!
Lines of a text. A line ends at a break or at the end of the text, and a carriage return with a
newline after it is one break. The text has no line after its last break.
-/

namespace OpcodeTables.Text

/-- The characters that break a line. Every one of them is blank. -/
def lineBreakSpans : List Span := [
  (0x000A, 0x000D), (0x001C, 0x001E), (0x0085, 0x0085), (0x2028, 0x2029)
]

/-- A character that breaks a line. -/
def isLineBreak (c : Char) : Bool :=
  inSpans lineBreakSpans c

/-- Puts a character in front of the first line. -/
def extendFirst (c : Char) : List Text → List Text
  | [] => [[c]]
  | line :: lines => (c :: line) :: lines

/-- The lines of a text, without their breaks. -/
def lines : Text → List Text
  | [] => []
  | '\r' :: '\n' :: rest => [] :: lines rest
  | c :: rest => if isLineBreak c then [] :: lines rest else extendFirst c (lines rest)

/-- Writes each carriage return as a newline, together with the newline after it if there is one. -/
def unifyNewlines : Text → Text
  | [] => []
  | '\r' :: '\n' :: rest => '\n' :: unifyNewlines rest
  | c :: rest => (if c = '\r' then '\n' else c) :: unifyNewlines rest

end OpcodeTables.Text
