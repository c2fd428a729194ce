import Mathlib.Algebra.Group.Nat.Defs
import OpcodeTables.AssemblyTable
import OpcodeTables.Proofs.RowFormat

/-! The value of an opcode is the number that its bits write, most significant bit first, and the bits
are the digits of that number. The opcodes of rows that can be written always have a value, so their
assembly table can be made.
-/

namespace OpcodeTables

namespace Text

/-- The text is made of zeros and ones. -/
def Binary (text : Text) : Prop :=
  ∀ c ∈ text, c = '0' ∨ c = '1'

/-- The number that binary digits write. -/
def binaryValue (text : Text) : Nat :=
  Nat.ofDigitChars 2 text 0

/-- Digits after digits of a known value continue its numeral, by induction over them. -/
theorem digitsFrom_eq {text : Text} (binary : Binary text) (value : Nat)
    : digitsFrom value false text = some (Nat.ofDigitChars 2 text value) := by
  induction text generalizing value with
  | nil => simp [digitsFrom]
  | cons c rest ih =>
      have others := ih (fun d member => binary d (by simp [member]))
      rcases binary c (by simp) with rfl | rfl <;>
        simp [digitsFrom, bit?, others, Nat.ofDigitChars_cons]

/-- Before a numeral of binary digits stands no mark, since a mark has a letter in it. -/
theorem magnitude?_eq {text : Text} (binary : Binary text) (nonempty : text ≠ [])
    : magnitude? text = some (binaryValue text) := by
  cases text with
  | nil => exact absurd rfl nonempty
  | cons c rest =>
      have unmarked : magnitude? (c :: rest) = digitsFrom 0 true (c :: rest) := by
        cases rest with
        | nil => rcases binary c (by simp) with rfl | rfl <;> rfl
        | cons d rest =>
            rcases binary c (by simp) with rfl | rfl <;>
              rcases binary d (by simp) with rfl | rfl <;> rfl
      have binaryRest : Binary rest := fun d member => binary d (by simp [member])
      have others := digitsFrom_eq binaryRest
      rw [unmarked, binaryValue]
      rcases binary c (by simp) with rfl | rfl <;>
        simp [digitsFrom, bit?, others, Nat.ofDigitChars_cons]

theorem dropWhile_isPadding_of_binary {text : Text} (binary : Binary text)
    : text.dropWhile isPadding = text := by
  cases text with
  | nil => rfl
  | cons c rest => rcases binary c (by simp) with rfl | rfl <;> rfl

theorem trimPadding_map_plain {text : Text} (binary : Binary text)
    : trimPadding (text.map plain) = text := by
  have same : text.map plain = text := by
    calc text.map plain = text.map id := by
          refine List.map_congr_left ?_
          intro c member
          rcases binary c member with rfl | rfl <;> rfl
      _ = text := List.map_id text
  have reversed : Binary text.reverse := fun c member => binary c (List.mem_reverse.mp member)
  rw [same, trimPadding, dropWhile_isPadding_of_binary binary,
    dropWhile_isPadding_of_binary reversed, List.reverse_reverse]

theorem binary?_eq {text : Text} (binary : Binary text) (nonempty : text ≠ [])
    : binary? text = some (binaryValue text : Int) := by
  have read := magnitude?_eq binary nonempty
  rw [binary?, trimPadding_map_plain binary]
  cases text with
  | nil => exact absurd rfl nonempty
  | cons c rest =>
      rcases binary c (by simp) with rfl | rfl <;> simp [read]

/-- Each further binary digit at most doubles a number and adds one, by induction over the
digits.
-/
theorem ofDigitChars_two_lt {text : Text} (binary : Binary text) (value : Nat)
    : Nat.ofDigitChars 2 text value < (value + 1) * 2 ^ text.length := by
  induction text generalizing value with
  | nil => simp
  | cons c rest ih =>
      have bit : c.toNat - '0'.toNat ≤ 1 := by
        rcases binary c (by simp) with rfl | rfl <;> decide
      rw [Nat.ofDigitChars_cons, List.length_cons]
      calc Nat.ofDigitChars 2 rest (2 * value + (c.toNat - '0'.toNat))
          < (2 * value + (c.toNat - '0'.toNat) + 1) * 2 ^ rest.length :=
            ih (fun d member => binary d (by simp [member])) _
        _ ≤ (2 * (value + 1)) * 2 ^ rest.length := Nat.mul_le_mul_right _ (by omega)
        _ = (value + 1) * 2 ^ (rest.length + 1) := by rw [Nat.pow_succ]; ac_rfl

/-- A number of binary digits is less than the power of two of their count. -/
theorem binaryValue_lt {text : Text} (binary : Binary text)
    : binaryValue text < 2 ^ text.length := by
  simpa [binaryValue] using ofDigitChars_two_lt binary 0

--------------------------------------------------------------------------------
-- Digits of a number
--------------------------------------------------------------------------------

/-- The binary digits of a number, filled with zeros on the left up to a width. -/
def binaryDigits (width n : Nat) : Text :=
  let digits := Nat.toDigits 2 n
  List.replicate (width - digits.length) '0' ++ digits

theorem Binary.append {text other : Text} (binary : Binary text) (otherBinary : Binary other)
    : Binary (text ++ other) :=
  List.forall_mem_append.mpr ⟨binary, otherBinary⟩

/-- As many digits write different numbers if they differ, whatever they continue. By induction over
the digits.
-/
theorem ofDigitChars_two_injective {text other : Text} (binary : Binary text)
    (otherBinary : Binary other) (width : text.length = other.length) {value otherValue : Nat}
    (same : Nat.ofDigitChars 2 text value = Nat.ofDigitChars 2 other otherValue)
    : value = otherValue ∧ text = other := by
  induction text generalizing other value otherValue with
  | nil =>
      obtain rfl := List.eq_nil_of_length_eq_zero width.symm
      exact ⟨same, rfl⟩
  | cons c rest ih =>
      cases other with
      | nil => cases width
      | cons d others =>
          rw [Nat.ofDigitChars_cons, Nat.ofDigitChars_cons] at same
          obtain ⟨front, rfl⟩ := ih (fun e member => binary e (by simp [member]))
            (fun e member => otherBinary e (by simp [member])) (Nat.succ.inj width) same
          rcases binary c (by simp) with rfl | rfl <;>
            rcases otherBinary d (by simp) with rfl | rfl <;>
            simp only [Char.reduceToNat] at front <;>
            simp <;> omega

/-- As many digits write the same number only if they are the same. -/
theorem binaryValue_inj {text other : Text} (binary : Binary text) (otherBinary : Binary other)
    (width : text.length = other.length)
    : binaryValue text = binaryValue other ↔ text = other := by
  constructor
  · intro same
    exact (ofDigitChars_two_injective binary otherBinary width same).2
  · exact congrArg binaryValue

/-- The digits in front count as many times as the digits behind them can tell apart. By induction
over the digits behind.
-/
theorem ofDigitChars_two_eq (text : Text) (value : Nat)
    : Nat.ofDigitChars 2 text value = value * 2 ^ text.length + binaryValue text := by
  induction text generalizing value with
  | nil => simp [binaryValue]
  | cons c rest ih =>
      rw [binaryValue, Nat.ofDigitChars_cons, Nat.ofDigitChars_cons, ih, ih (2 * 0 + _),
        List.length_cons, Nat.pow_succ, Nat.mul_zero, Nat.zero_add, Nat.add_mul, Nat.add_assoc,
        Nat.mul_comm 2 value, Nat.mul_assoc, Nat.mul_comm 2]

theorem binaryValue_append (text other : Text)
    : binaryValue (text ++ other) = binaryValue text * 2 ^ other.length + binaryValue other := by
  rw [binaryValue, Nat.ofDigitChars_append, ofDigitChars_two_eq]
  rfl

/-- One more digit at the end doubles a number and adds the digit. -/
theorem binaryValue_concat (text : Text) (c : Char)
    : binaryValue (text ++ [c]) = 2 * binaryValue text + (c.toNat - '0'.toNat) := by
  rw [binaryValue, Nat.ofDigitChars_append, Nat.ofDigitChars_cons, Nat.ofDigitChars_nil]
  rfl

/-- The bits of a number are its binary digits, counted from the last one. By induction over the
digits, the last one first.
-/
theorem testBit_binaryValue_reverse {digits : Text} (binary : Binary digits) (k : Nat)
    : (binaryValue digits.reverse).testBit k ↔ digits[k]? = some '1' := by
  induction digits generalizing k with
  | nil => simp [binaryValue]
  | cons c rest ih =>
      have others := ih fun d member => binary d (by simp [member])
      rw [List.reverse_cons, binaryValue_concat]
      cases k with
      | zero => rcases binary c (by simp) with rfl | rfl <;> simp [Nat.testBit_zero]
      | succ k =>
          have half : (2 * binaryValue rest.reverse + (c.toNat - '0'.toNat)) / 2
              = binaryValue rest.reverse := by
            rcases binary c (by simp) with rfl | rfl <;> simp only [Char.reduceToNat] <;> omega
          rw [Nat.testBit_succ, half, others, List.getElem?_cons_succ]

/-- The bits of a number are its binary digits, the most significant one first. -/
theorem testBit_binaryValue {text : Text} (binary : Binary text) (k : Nat)
    : (binaryValue text).testBit k ↔ text.reverse[k]? = some '1' := by
  have reversed : Binary text.reverse := fun c member => binary c (List.mem_reverse.mp member)
  rw [← testBit_binaryValue_reverse reversed, List.reverse_reverse]

/-- The binary digits of a number are zeros and ones, by induction on the number. -/
theorem toDigits_two_binary (n : Nat) : Binary (Nat.toDigits 2 n) := by
  induction n using Nat.strongRecOn with
  | ind n ih =>
      have bit (k : Nat) (small : k < 2) : Binary [k.digitChar] := by
        intro c member
        obtain rfl | rfl : k = 0 ∨ k = 1 := by omega
        · exact Or.inl (List.mem_singleton.mp member)
        · exact Or.inr (List.mem_singleton.mp member)
      rw [Nat.toDigits_eq_if (by decide)]
      split
      · next small => exact bit n small
      · next large => exact (ih (n / 2) (by omega)).append (bit (n % 2) (by omega))

theorem replicate_zero_binary (count : Nat) : Binary (List.replicate count '0') :=
  fun _ member => Or.inl (List.eq_of_mem_replicate member)

/-- Digits are the ones that their number has at their width. -/
theorem binaryDigits_binaryValue {text : Text} (binary : Binary text) (nonempty : text ≠ [])
    : binaryDigits text.length (binaryValue text) = text := by
  have room : (Nat.toDigits 2 (binaryValue text)).length ≤ text.length :=
    (Nat.length_toDigits_le_iff (by decide) (List.length_pos_iff.mpr nonempty)).mpr
      (binaryValue_lt binary)
  refine (binaryValue_inj ?_ binary ?_).mp ?_
  · exact (replicate_zero_binary _).append (toDigits_two_binary _)
  · simp only [binaryDigits, List.length_append, List.length_replicate]
    omega
  · rw [binaryDigits, binaryValue, Nat.ofDigitChars_append, Nat.ofDigitChars_replicate_zero,
      Nat.mul_zero]
    exact Nat.ofDigitChars_toDigits (by decide) (by decide)

end Text

namespace Row

theorem bits_binary (mode : Mode) : Text.Binary mode.bits := by
  cases mode <;> simp [Text.Binary, Mode.bits]

theorem plainBits_binary : Text.Binary plainBits := by
  simp [Text.Binary, plainBits]

theorem baseBits_binary {row : Row} (binary : Text.Binary row.bits) : Text.Binary row.baseBits :=
  fun c member => binary c (List.mem_of_mem_drop member)

/-- The first two bits count as many times as the others can tell apart. -/
theorem binaryValue_bits (row : Row)
    : Text.binaryValue row.bits
      = Text.binaryValue row.modeBits * 2 ^ row.baseBits.length + Text.binaryValue row.baseBits := by
  rw [← Text.binaryValue_append, modeBits_append_baseBits]

/-- A row of zeros and ones, however many, has the value of its bits. -/
theorem opcode_of_binary {row : Row} (binary : Text.Binary row.bits) (nonempty : row.bits ≠ [])
    : row.opcode = .ok (Text.binaryValue row.bits) := by
  have concrete : row.isWildcard = false := by
    refine isWildcard_eq_false_iff.mpr ?_
    intro member
    rcases binary _ member with zero | one
    · exact absurd zero (by decide)
    · exact absurd one (by decide)
  simp [opcode, concrete, Text.binary?_eq binary nonempty]

/-- The bits of an opcode that can be written are zeros and ones, as the wildcard is not among
them.
-/
theorem Framed.binary {row : Row} (framed : row.Framed) (concrete : row.isWildcard = false)
    : Text.Binary row.bits := by
  intro c member
  rcases isBit_iff.mp (framed.bits c member) with zero | one | rfl
  · exact Or.inl zero
  · exact Or.inr one
  · exact absurd member (isWildcard_eq_false_iff.mp concrete)

theorem Framed.modeBits_binary {row : Row} (framed : row.Framed)
    (concrete : row.isWildcard = false)
    : Text.Binary row.modeBits :=
  fun c member => framed.binary concrete c (List.mem_of_mem_take member)

theorem Framed.length_modeBits {row : Row} (framed : row.Framed) : row.modeBits.length = 2 := by
  simp [modeBits, framed.width, bitCount]

theorem Framed.length_baseBits {row : Row} (framed : row.Framed) : row.baseBits.length = 6 := by
  simp [baseBits, framed.width, bitCount]

theorem Framed.bits_ne_nil {row : Row} (framed : row.Framed) : row.bits ≠ [] := by
  intro empty
  have width := framed.width
  simp [empty, bitCount] at width

/-- An opcode that can be written has the value of its bits. -/
theorem Framed.opcode_eq {row : Row} (framed : row.Framed) (concrete : row.isWildcard = false)
    : row.opcode = .ok (Text.binaryValue row.bits) :=
  opcode_of_binary (framed.binary concrete) framed.bits_ne_nil

/-- An opcode that can be written has a value in eight bits. -/
theorem Framed.exists_opcode_eq_ok {row : Row} (framed : row.Framed)
    (concrete : row.isWildcard = false)
    : ∃ value, row.opcode = .ok value ∧ 0 ≤ value ∧ value ≤ 255 := by
  have small := Text.binaryValue_lt (framed.binary concrete)
  rw [framed.width] at small
  refine ⟨_, framed.opcode_eq concrete, Int.natCast_nonneg _, ?_⟩
  simp only [bitCount] at small
  omega

/-- Of the rows that can be written only fields have no value, and for that reason. -/
theorem Framed.opcode_eq_error_iff {row : Row} (framed : row.Framed) {error : OpcodeError}
    : row.opcode = .error error ↔ row.isWildcard ∧ error = .wildcard row.name row.bits := by
  cases wild : row.isWildcard with
  | true => simp [opcode, wild, eq_comm]
  | false => simp [framed.opcode_eq wild]

/-- The value of an opcode that can be written has few enough digits. -/
theorem Framed.writtenOpcode_eq {row : Row} (framed : row.Framed)
    (concrete : row.isWildcard = false)
    : row.writtenOpcode = .ok (Nat.toDigits 10 (Text.binaryValue row.bits)) := by
  have small := Text.binaryValue_lt (framed.binary concrete)
  rw [framed.width] at small
  have short : (Nat.toDigits 10 (Text.binaryValue row.bits)).length ≤ 3 :=
    (Nat.length_toDigits_le_iff (by decide) (by decide)).mpr (by simp [bitCount] at small; omega)
  rw [writtenOpcode, framed.opcode_eq concrete]
  simp only [bind, Except.bind, writeOpcode, Int.natAbs_natCast]
  rw [if_neg (by simp only [maxDigits]; omega)]
  rfl

end Row

end OpcodeTables
