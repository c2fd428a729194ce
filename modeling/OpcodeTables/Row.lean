import OpcodeTables.Mode

/-!
Rows of an instruction table. A row gives an opcode its name, and with it the part of the display
where the name stands. A row whose bits hold a wildcard describes a field and is not an opcode.
-/

namespace OpcodeTables

/-- A row of an instruction table. -/
structure Row where
  bits : Text
  nameStart : Int
  nameEnd : Int
  name : Text
deriving DecidableEq, Repr

namespace Row

def bitCount : Nat := 8

/-- The bit that stands for either value. -/
def wildcard : Char := '2'

/-- A row that describes a field. -/
def isWildcard (row : Row) : Bool :=
  row.bits.contains wildcard

/-- The bits that tell the immediate mode. -/
def modeBits (row : Row) : Text :=
  row.bits.take 2

/-- The bits that tell the instruction. -/
def baseBits (row : Row) : Text :=
  row.bits.drop 2

/-- The bits of a row without immediate arguments. -/
def plainBits : Text := ['0', '0']

/-- The row for people to read. -/
def label (row : Row) : Text :=
  row.name ++ [' ', '['] ++ row.bits ++ [']']

theorem modeBits_append_baseBits (row : Row) : row.modeBits ++ row.baseBits = row.bits :=
  List.take_append_drop 2 row.bits

/-- An opcode is a row without a wildcard among its bits. -/
theorem isWildcard_eq_false_iff {row : Row} : row.isWildcard = false ↔ wildcard ∉ row.bits := by
  simp [isWildcard]

end Row

end OpcodeTables
