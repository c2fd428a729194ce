import OpcodeTables.Diagnostic
import OpcodeTables.Row
import OpcodeTables.Text.Blank
import OpcodeTables.Text.Quoted

/-!
The written form of a row: eight bits, two digits and the name, with nothing between them. Blanks
around a row are ignored. A row that is refused is refused for the first fault from its start.
-/

namespace OpcodeTables

/-- The ends of the part of the display where a name stands. -/
inductive NameEnd where
  | first
  | last
deriving DecidableEq, Repr

/-- What is wrong with a written row. -/
inductive RowFlaw where
  | tooShort (length : Nat)
  | foreignBits (bits : Text) (foreign : List Char)
  | badIndex (nameEnd : NameEnd) (found : Char)
deriving DecidableEq, Repr

/-- A written row that is refused. -/
structure RowError where
  flaw : RowFlaw
  row : Text
  location : Option Location
deriving DecidableEq, Repr

namespace Row

/-- The written form of a row. -/
def render (row : Row) : Text :=
  row.bits ++ Text.decimal row.nameStart ++ Text.decimal row.nameEnd ++ row.name

/-- A zero, a one or the wildcard. -/
def isBit (c : Char) : Bool :=
  c = '0' || c = '1' || c = wildcard

/-- The characters of an opcode that are not bits, each of them once and in order. -/
def foreignTo (bits : Text) : List Char :=
  Text.distinct (bits.filter fun c => !isBit c)

/-- The value of a plain decimal digit. -/
def index? (c : Char) : Option Int :=
  if c.isDigit then some (c.toNat - '0'.toNat : Nat) else none

/-- Reads the two digits and the name, after the bits. -/
def ofFields (bits : Text) (first last : Char) (name : Text) : Except RowFlaw Row :=
  if bits.all isBit then
    match index? first, index? last with
    | some nameStart, some nameEnd => .ok { bits, nameStart, nameEnd, name }
    | some _, none => .error (.badIndex .last last)
    | none, _ => .error (.badIndex .first first)
  else
    .error (.foreignBits bits (foreignTo bits))

/-- Reads a row that has no blanks around it. -/
def ofText (text : Text) : Except RowFlaw Row :=
  match text.drop bitCount with
  | first :: last :: name => ofFields (text.take bitCount) first last name
  | _ => .error (.tooShort text.length)

/-- Reads a line of a table. -/
def parse (location : Option Location) (line : Text) : Except RowError Row :=
  (ofText (Text.trim line)).mapError fun flaw => { flaw, row := Text.trim line, location }

end Row

/-- How a written row has to look. -/
def rowHint : Text :=
  ("rows are 8 opcode bits (0, 1 or 2), a name start digit, " ++
    "a name end digit, then the mnemonic").toList

def NameEnd.word : NameEnd → String
  | .first => "start"
  | .last => "end"

def RowFlaw.message : RowFlaw → String
  | .tooShort length =>
    s!"row is too short ({length} characters, need at least {Row.bitCount + 2})"
  | .foreignBits bits foreign =>
    let shown := String.intercalate ", " (foreign.map fun c => String.ofList (Text.quoted [c]))
    s!"invalid opcode bits '{String.ofList bits}' (unexpected {shown})"
  | .badIndex nameEnd found =>
    s!"name {nameEnd.word} index must be a digit, got '{found}'"

def RowError.diagnostic (error : RowError) : Diagnostic where
  message := error.flaw.message.toList
  location := error.location
  hint := some rowHint
  row := some error.row

end OpcodeTables
