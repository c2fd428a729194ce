import OpcodeTables.Opcode

/-!
Assembly tables give the assembler the value of every name: one line for each opcode, and after
them the registers, the names for input and output, and the target that discards a result.
-/

namespace OpcodeTables.AssemblyTable

/-- The names that every assembly table ends with. -/
def constants : List (Text × Int) := [
  ("R0".toList, 0), ("R1".toList, 1), ("R2".toList, 2), ("R3".toList, 3), ("R4".toList, 4),
  ("R5".toList, 5), ("COUNTER".toList, 6), ("INPUT".toList, 7), ("OUTPUT".toList, 7),
  ("_".toList, 0)
]

/-- A name and the digits of its value. -/
def line (name digits : Text) : Text :=
  name ++ ' ' :: digits

/-- The line of an opcode. -/
def opcodeLine (row : Row) : Except OpcodeError Text :=
  row.writtenOpcode.map (line row.name)

def constantLines : List Text :=
  constants.map fun (name, value) => line name (Text.decimal value)

/-- The table of the opcodes among some rows. Without opcodes, its first line is empty. -/
def render (rows : List Row) : Except OpcodeError Text := do
  let opcodes ← (rows.filter (!·.isWildcard)).mapM opcodeLine
  return Text.joinLines opcodes ++ '\n' :: Text.joinLines constantLines ++ ['\n']

end OpcodeTables.AssemblyTable
