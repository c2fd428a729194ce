import OpcodeTables.Text.Printable

/-!
Text in quotation marks, as messages show a name that may hold any character. A backslash stands
before a character that could be misread, and code points are written for what cannot be shown.
-/

namespace OpcodeTables.Text

def singleMark : Char := '\x27'

def doubleMark : Char := '\x22'

/-- Double marks surround a text that holds single marks and no double ones. -/
def markFor (text : Text) : Char :=
  if singleMark ∈ text ∧ doubleMark ∉ text then doubleMark else singleMark

/-- The code point of a character after a backslash, in the shortest of three widths. -/
def codePoint (c : Char) : Text :=
  let code := c.toNat
  if code ≤ 0xFF then ['\\', 'x'] ++ hexadecimal 2 code
  else if code ≤ 0xFFFF then ['\\', 'u'] ++ hexadecimal 4 code
  else ['\\', 'U'] ++ hexadecimal 8 code

/-- One character as it is written between two marks. -/
def escape (mark c : Char) : Text :=
  if c = '\\' then ['\\', '\\']
  else if c = mark then ['\\', mark]
  else if c = '\n' then ['\\', 'n']
  else if c = '\r' then ['\\', 'r']
  else if c = '\t' then ['\\', 't']
  else if isPrintable c then [c]
  else codePoint c

/-- The text between quotation marks. -/
def quoted (text : Text) : Text :=
  let mark := markFor text
  mark :: text.flatMap (escape mark) ++ [mark]

end OpcodeTables.Text
