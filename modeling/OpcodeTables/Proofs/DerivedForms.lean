import OpcodeTables.Proofs.ExpandedTables
import OpcodeTables.Proofs.OpcodeValues

/-! The form of a row in a mode, whatever the row is: an instruction, a form already or a field. The
mode is told by the end of the name, which expansion relies on to drop the forms that it makes anew,
and by the first two bits. These two bits are all that a form changes of the opcode, also as a
number.
-/

namespace OpcodeTables

--------------------------------------------------------------------------------
-- The mode of a form
--------------------------------------------------------------------------------

/-- A form of a form has the bits of a form of the row. -/
theorem Row.bits_derive_derive (row : Row) (mode other : Mode)
    : ((row.derive mode).derive other).bits = (row.derive other).bits :=
  congrArg (other.bits ++ ·) (row.baseBits_derive mode)

/-- At most one tag ends a name in lowercase letters, so that the mode of the name is found in
whatever order the modes are tried, and it is that of the name in lowercase letters. The mode of a
form is found in its name, although that may end with other tags in front of its own, and in its
first two bits; and it takes the place of the mode that the row had.
-/
theorem derived_mode_told
    : (∀ (name : Text) (mode other : Mode),
        mode.tag <:+ Text.lower name → other.tag <:+ Text.lower name → mode = other)
      ∧ (∀ (name : Text) (order : List Mode),
          (∀ mode, mode ∈ order)
          → order.find? (·.tag.isSuffixOf (Text.lower name)) = Mode.ofName? name)
      ∧ (∀ name, Mode.ofName? (Text.lower name) = Mode.ofName? name)
      ∧ ∀ (row : Row) (mode : Mode),
          Mode.ofName? (row.derive mode).name = some mode
          ∧ Mode.ofBits? (row.derive mode).modeBits = some mode
          ∧ ∀ other, ((row.derive mode).derive other).bits = (row.derive other).bits := by
  refine ⟨?_, ?_, Mode.ofName?_lower, ?_⟩
  · intro name mode other ends otherEnds
    exact Mode.eq_of_tag_suffix ends otherEnds
  · intro name order complete
    exact Mode.find?_tag_eq_ofName? complete name
  · intro row mode
    refine ⟨Mode.ofName?_append_tag row.name mode, ?_, row.bits_derive_derive mode⟩
    rw [Row.modeBits_derive, Mode.ofBits?_bits]

/-- The name ends with three tags, of which the last one counts. -/
theorem derived_mode_told_stacked
    : let row : Row := ⟨"01".toList, 5, 7, "Σi2I12i1".toList⟩
      [Mode.second, .both, .first].find? (·.tag.isSuffixOf (Text.lower row.name))
        = Mode.ofName? row.name
      ∧ Mode.first.tag <:+ Text.lower row.name
      ∧ (∀ mode : Mode, mode.tag <:+ Text.lower row.name → mode = .first)
      ∧ Mode.ofName? (row.derive .both).name = some .both := by
  intro row
  obtain ⟨unique, anyOrder, _, told⟩ := derived_mode_told
  have ends : Mode.first.tag <:+ Text.lower row.name := by decide +kernel
  refine ⟨anyOrder row.name _ ?_, ends, fun mode other => unique row.name mode .first other ends,
    (told row .both).1⟩
  intro mode
  cases mode <;> decide

--------------------------------------------------------------------------------
-- The value of a form
--------------------------------------------------------------------------------

/-- The number that the first two bits of a form write. -/
def Mode.weight : Mode → Nat
  | first => 2
  | second => 1
  | both => 3

namespace Row

/-- The bits of a row write its value in binary, the most significant one first: the bits of the
number are the ones of the row, counted from the last.
-/
structure Denotes (row : Row) (value : Nat) : Prop where
  opcode : row.opcode = .ok value
  bounded : value < 2 ^ row.bits.length
  testBit_iff : ∀ k, value.testBit k ↔ row.bits.reverse[k]? = some '1'

theorem denotes_binaryValue {row : Row} (binary : Text.Binary row.bits) (nonempty : row.bits ≠ [])
    : row.Denotes (Text.binaryValue row.bits) where
  opcode := opcode_of_binary binary nonempty
  bounded := Text.binaryValue_lt binary
  testBit_iff := Text.testBit_binaryValue binary

theorem derive_binary {row : Row} (binary : Text.Binary row.bits) (mode : Mode)
    : Text.Binary (row.derive mode).bits :=
  (bits_binary mode).append (baseBits_binary binary)

/-- A form has the value of the bits that tell the instruction, and above it the weight of its
mode.
-/
theorem binaryValue_derive (row : Row) (mode : Mode)
    : Text.binaryValue (row.derive mode).bits
      = Text.binaryValue row.baseBits + mode.weight * 2 ^ row.baseBits.length := by
  have weight : Text.binaryValue mode.bits = mode.weight := by cases mode <;> rfl
  rw [binaryValue_bits, modeBits_derive, baseBits_derive, weight, Nat.add_comm]

/-- The bits that tell the instruction are the lower ones of the value. -/
theorem binaryValue_mod {row : Row} (binary : Text.Binary row.bits)
    : Text.binaryValue row.bits % 2 ^ row.baseBits.length = Text.binaryValue row.baseBits := by
  rw [binaryValue_bits, Nat.mul_add_mod_self_right]
  exact Nat.mod_eq_of_lt (Text.binaryValue_lt (baseBits_binary binary))

/-- The lower bits of a value are those of the bits that tell the instruction. -/
theorem testBit_binaryValue_bits {row : Row} (binary : Text.Binary row.bits) {k : Nat}
    (low : k < row.baseBits.length)
    : (Text.binaryValue row.bits).testBit k = (Text.binaryValue row.baseBits).testBit k := by
  rw [← binaryValue_mod binary, Nat.testBit_mod_two_pow]
  simp [low]

end Row

/-- A row of zeros and ones, two or more of them, has the value that they write. Rows of the same
width have the same value only if they have the same bits. A form has the same width, and the value
of the row with the weight of the mode in place of the two highest bits; all others stay.
-/
theorem opcode_arithmetic {row : Row} (binary : Text.Binary row.bits) (wide : 2 ≤ row.bits.length)
    : ∃ value,
        row.Denotes value
        ∧ (∀ other : Row,
            Text.Binary other.bits
            → other.bits.length = row.bits.length
            → (other.opcode = row.opcode ↔ other.bits = row.bits))
        ∧ ∀ mode, ∃ form,
            (row.derive mode).Denotes form
            ∧ (row.derive mode).bits.length = row.bits.length
            ∧ form
              = value % 2 ^ (row.bits.length - 2) + mode.weight * 2 ^ (row.bits.length - 2)
            ∧ ∀ k < row.bits.length - 2, form.testBit k = value.testBit k := by
  have nonempty {bits : Text} (width : bits.length = row.bits.length) : bits ≠ [] := by
    rintro rfl
    rw [List.length_nil] at width
    omega
  have denotes := Row.denotes_binaryValue binary (nonempty rfl)
  have lower : row.baseBits.length = row.bits.length - 2 := List.length_drop
  refine ⟨Text.binaryValue row.bits, denotes, ?_, ?_⟩
  · intro other otherBinary width
    rw [Row.opcode_of_binary otherBinary (nonempty width), denotes.opcode, Except.ok.injEq,
      Int.ofNat_inj]
    exact Text.binaryValue_inj otherBinary binary width
  · intro mode
    have formBinary := Row.derive_binary binary mode
    have width := Row.length_derive wide mode
    refine ⟨_, Row.denotes_binaryValue formBinary (nonempty width), width, ?_, ?_⟩
    · rw [Row.binaryValue_derive, ← Row.binaryValue_mod binary, lower]
    · intro k low
      rw [← lower] at low
      -- The form and the row have the same bits below the first two.
      have formLow : k < (row.derive mode).baseBits.length := by rwa [Row.baseBits_derive]
      rw [Row.testBit_binaryValue_bits formBinary formLow, Row.baseBits_derive,
        Row.testBit_binaryValue_bits binary low]

/-- Of three bits a single one stays. -/
theorem opcode_arithmetic_narrow
    : let row : Row := ⟨"011".toList, 5, 7, "a".toList⟩
      Text.Binary row.bits
      ∧ 2 ≤ row.bits.length
      ∧ row.opcode = .ok 3
      ∧ (row.derive .first).Denotes 5 := by
  intro row
  have binary : Text.Binary row.bits := by simp [row, Text.Binary]
  have wide : 2 ≤ row.bits.length := by decide
  obtain ⟨value, denotes, _, forms⟩ := opcode_arithmetic binary wide
  have known : row.opcode = .ok 3 := rfl
  obtain ⟨form, formDenotes, _, sum, _⟩ := forms .first
  obtain rfl : value = 3 := by
    have same := denotes.opcode.symm.trans known
    exact Int.ofNat.inj (Except.ok.inj same)
  have five : form = 5 := sum.trans (by decide)
  exact ⟨binary, wide, known, five ▸ formDenotes⟩

end OpcodeTables
