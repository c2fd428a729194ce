import OpcodeTables.Diagnostic
import OpcodeTables.Row

/-!
Two opcodes collide if they have the same bits. Fields do not collide, because they are not
opcodes.
-/

namespace OpcodeTables

/-- Two instructions with the same bits, in the order in which a table lists them. -/
structure Collision where
  first : Text
  second : Text
  bits : Text
deriving DecidableEq, Repr

namespace Collision

/-- The first opcode that has the bits of an earlier one, where the earlier ones include some that
have been seen already.
-/
def findFrom (seen : List Row) : List Row → Option Collision
  | [] => none
  | row :: rows =>
    if row.isWildcard then
      findFrom seen rows
    else
      match seen.find? (·.bits == row.bits) with
      | some earlier => some ⟨earlier.name, row.name, row.bits⟩
      | none => findFrom (row :: seen) rows

/-- The first collision in a table. -/
def find? (rows : List Row) : Option Collision :=
  findFrom [] rows

def message (collision : Collision) : String :=
  let first := String.ofList collision.first
  let second := String.ofList collision.second
  s!"opcode collision: '{first}' and '{second}' both encode as {String.ofList collision.bits}"

/-- The collision as the author of the table is told about it. -/
def diagnostic (collision : Collision) : Diagnostic where
  message := collision.message.toList
  location := none
  hint := some "base instructions must differ in bits 2-7".toList
  row := none

end Collision

end OpcodeTables
