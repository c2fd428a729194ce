import OpcodeTables.Row
import OpcodeTables.Text.Binary
import OpcodeTables.Text.Quoted

/-!
The value of an opcode is the number that its bits write in binary.
-/

namespace OpcodeTables

/-- Why a row has no opcode value, or none that can be written. -/
inductive OpcodeError where
  | wildcard (name bits : Text)
  | notBinary (bits : Text)
  | tooManyDigits
deriving DecidableEq, Repr

/-- The value of a row's opcode. -/
def Row.opcode (row : Row) : Except OpcodeError Int :=
  if row.isWildcard then
    .error (.wildcard row.name row.bits)
  else
    match Text.binary? row.bits with
    | some value => .ok value
    | none => .error (.notBinary row.bits)

/-- The most digits that a written opcode may have. -/
def maxDigits : Nat := 4300

/-- The decimal digits of an opcode value, unless there are too many. -/
def writeOpcode (value : Int) : Except OpcodeError Text :=
  if maxDigits < (Nat.toDigits 10 value.natAbs).length then
    .error .tooManyDigits
  else
    .ok (Text.decimal value)

/-- The decimal digits of the value of a row's opcode. -/
def Row.writtenOpcode (row : Row) : Except OpcodeError Text := do
  writeOpcode (← row.opcode)

/-- The error in words. Of bits that are not binary, the start is shown. -/
def OpcodeError.message : OpcodeError → String
  | .wildcard name bits =>
    s!"cannot turn opcode with wildcard to asm: {String.ofList bits} ({String.ofList name})"
  | .notBinary bits =>
    s!"invalid literal for int() with base 2: {String.ofList ((Text.quoted bits).take 200)}"
  | .tooManyDigits =>
    s!"Exceeds the limit ({maxDigits} digits) for integer string conversion; " ++
      "use sys.set_int_max_str_digits() to increase the limit"

end OpcodeTables
