import OpcodeTables.Compilation

/-!
The instruction table of the processor that the tables are made for, as its display shows it. It
is compiled when no other table is given.
-/

namespace OpcodeTables.Builtin

/-- The name of the table in events and messages. -/
def source : Text := "<builtin>".toList

/-- The rows, the highest opcode first. -/
def rows : List String := [
  "2212222222COND",
  "2122222211I_ARG2",
  "2001222233MEM",
  "1222222200I_ARG1",
  "0010010137jgteq",
  "0010010037jgt",
  "0010001137jlteq",
  "0010001037jlt",
  "0010000137jneq",
  "0010000037jeq",
  "0001001147push",
  "0001001047pop",
  "0001000147write",
  "0001000047read",
  "0000011157shl",
  "0000011057shr",
  "0000010157xor",
  "0000010057not",
  "0000001157or",
  "0000001057and",
  "0000000157sub",
  "0000000057add"
]

/-- The table with an empty line before its rows and a newline after each of them. -/
def text : Text :=
  '\n' :: rows.flatMap fun row => row.toList ++ ['\n']

def compile (check : Bool) : Traced CompileError Tables :=
  OpcodeTables.compile check source .displayed text

end OpcodeTables.Builtin
