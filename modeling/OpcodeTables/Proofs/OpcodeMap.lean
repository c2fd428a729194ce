import OpcodeTables.Proofs.DerivedForms
import OpcodeTables.Proofs.OpcodeNames
import OpcodeTables.Proofs.OpcodeValues
import OpcodeTables.Proofs.Regeneration

/-! The opcodes of a checked table as numbers. No two of them have the same value, and a value tells
everything about the bits of its row: its binary digits are the bits, and its quotient by 64 is the
mode. So there is room for 64 base rows and 256 opcodes, however long the text of the table is.
-/

namespace OpcodeTables

/-- What the value of a form has more than that of its base row. -/
def Mode.offset : Mode → Nat
  | first => 128
  | second => 64
  | both => 192

namespace Row

--------------------------------------------------------------------------------
-- The value of one row
--------------------------------------------------------------------------------

/-- The value of an opcode, which tells its bits and the tag of its name. -/
structure Valued (row : Row) (value : Nat) : Prop where
  opcode : row.opcode = .ok value
  bounded : value ≤ 255
  bits : row.bits = Text.binaryDigits 8 value
  untagged : value / 64 = 0 ↔ ∀ mode : Mode, ¬mode.tag <:+ row.name
  first : value / 64 = 2 ↔ Mode.first.tag <:+ row.name
  second : value / 64 = 1 ↔ Mode.second.tag <:+ row.name
  both : value / 64 = 3 ↔ Mode.both.tag <:+ row.name

/-- The tag of an opcode is that of its first two bits. -/
theorem Yields.tag_suffix_iff {base opcode : Row} (yields : base.Yields opcode) (mode : Mode)
    : mode.tag <:+ opcode.name ↔ opcode.modeBits = mode.bits := by
  cases yields with
  | plain kept =>
      have plain : base.lowered.modeBits = plainBits := kept.plain
      rw [plain]
      exact iff_of_false (kept.untagged mode) (bits_ne_plainBits mode).symm
  | @form kept other _ =>
      have name : (base.lowered.derive other).name = base.lowered.name ++ other.tag := rfl
      rw [name, Mode.tag_suffix_iff, modeBits_derive]
      constructor
      · intro same
        rw [same]
      · exact fun same => (bits_injective same).symm

/-- An opcode has no tag exactly if its first two bits are zeros. -/
theorem Yields.untagged_iff {base opcode : Row} (yields : base.Yields opcode)
    : (∀ mode : Mode, ¬mode.tag <:+ opcode.name) ↔ opcode.modeBits = plainBits := by
  simp only [yields.tag_suffix_iff]
  cases yields with
  | plain kept =>
      have plain : base.lowered.modeBits = plainBits := kept.plain
      simp [plain, (bits_ne_plainBits _).symm]
  | @form kept other _ =>
      rw [modeBits_derive]
      exact iff_of_false (fun clear => clear other rfl) (bits_ne_plainBits other)

/-- The quotient of a value by 64 is the number of the first two bits. -/
theorem Framed.quotient_eq {row : Row} (framed : row.Framed) (concrete : row.isWildcard = false)
    : Text.binaryValue row.bits / 64 = Text.binaryValue row.modeBits := by
  have small := Text.binaryValue_lt (baseBits_binary (framed.binary concrete))
  rw [framed.length_baseBits] at small
  rw [binaryValue_bits, framed.length_baseBits]
  omega

/-- The quotient of a value by 64 tells the first two bits. -/
theorem Framed.quotient_eq_iff {row : Row} (framed : row.Framed) (concrete : row.isWildcard = false)
    {bits : Text} (binary : Text.Binary bits) (width : bits.length = 2)
    : Text.binaryValue row.bits / 64 = Text.binaryValue bits ↔ row.modeBits = bits := by
  rw [framed.quotient_eq concrete]
  exact Text.binaryValue_inj (framed.modeBits_binary concrete) binary
    (framed.length_modeBits.trans width.symm)

/-- The value of an opcode in an expanded table tells its bits and its tag. -/
theorem Yields.valued {base opcode : Row} (yields : base.Yields opcode) (framed : opcode.Framed)
    (concrete : opcode.isWildcard = false)
    : opcode.Valued (Text.binaryValue opcode.bits) := by
  have binary := framed.binary concrete
  have small := Text.binaryValue_lt binary
  have told (mode : Mode)
      : Text.binaryValue opcode.bits / 64 = Text.binaryValue mode.bits
        ↔ mode.tag <:+ opcode.name := by
    rw [framed.quotient_eq_iff concrete (bits_binary mode) (length_bits mode), yields.tag_suffix_iff]
  rw [framed.width] at small
  refine ⟨framed.opcode_eq concrete, ?_, ?_, ?_, told .first, told .second, told .both⟩
  · simp only [bitCount] at small
    omega
  · have digits := Text.binaryDigits_binaryValue binary framed.bits_ne_nil
    rw [framed.width] at digits
    exact digits.symm
  · rw [yields.untagged_iff]
    exact framed.quotient_eq_iff concrete plainBits_binary rfl

/-- A form has the value of its base row and the offset of its mode. -/
theorem Base.binaryValue_derive {row : Row} (base : row.Base) (framed : row.Framed) (mode : Mode)
    : Text.binaryValue (row.derive mode).bits = Text.binaryValue row.bits + mode.offset := by
  have offset : mode.weight * 64 = mode.offset := by cases mode <;> rfl
  have zero : Text.binaryValue plainBits = 0 := rfl
  rw [Row.binaryValue_derive, binaryValue_bits row, base.plain, framed.length_baseBits, zero,
    ← offset]
  omega

end Row

--------------------------------------------------------------------------------
-- The values of a table
--------------------------------------------------------------------------------

/-- Opcodes that do not collide have different values, because eight bits write different numbers if
they differ.
-/
theorem values_nodup {table : List Row} (framed : ∀ row ∈ table, row.Framed)
    (apart : table.Pairwise Row.Apart) {chosen : Row → Bool}
    (opcodes : ∀ row, chosen row → row.isWildcard = false)
    : ((table.filter chosen).map fun row => Text.binaryValue row.bits).Nodup := by
  refine List.pairwise_map.mpr (List.pairwise_filter.mpr (apart.imp_of_mem ?_))
  intro row other member otherMember different isChosen otherChosen same
  have concrete := opcodes row isChosen
  have otherConcrete := opcodes other otherChosen
  have width := (framed row member).width.trans (framed other otherMember).width.symm
  have sameBits := (Text.binaryValue_inj ((framed row member).binary concrete)
    ((framed other otherMember).binary otherConcrete) width).mp same
  exact different concrete otherConcrete sameBits

theorem opcodes_nodup {table : List Row} (framed : ∀ row ∈ table, row.Framed)
    (apart : table.Pairwise Row.Apart)
    : ((table.filter (!·.isWildcard)).map Row.opcode).Nodup := by
  have values : (table.filter (!·.isWildcard)).map Row.opcode
      = ((table.filter (!·.isWildcard)).map fun row => Text.binaryValue row.bits).map
          fun value => .ok (value : Int) := by
    rw [List.map_map]
    refine List.map_congr_left ?_
    intro row member
    obtain ⟨listed, concrete⟩ := List.mem_filter.mp member
    exact (framed row listed).opcode_eq (by simpa using concrete)
  rw [values]
  refine (values_nodup framed apart (by simp)).map ?_
  intro value other same
  exact Int.ofNat.inj (Except.ok.inj same)

/-- There are no more opcodes that do not collide than numbers below a bound of their values. -/
theorem countP_le_of_values_lt {table : List Row} (framed : ∀ row ∈ table, row.Framed)
    (apart : table.Pairwise Row.Apart) {chosen : Row → Bool}
    (opcodes : ∀ row, chosen row → row.isWildcard = false) {bound : Nat}
    (small : ∀ row ∈ table, chosen row → Text.binaryValue row.bits < bound)
    : table.countP chosen ≤ bound := by
  have inside : (table.filter chosen).map (fun row => Text.binaryValue row.bits)
      ⊆ List.range bound := by
    intro value member
    obtain ⟨row, listed, rfl⟩ := List.mem_map.mp member
    obtain ⟨rowMember, isChosen⟩ := List.mem_filter.mp listed
    exact List.mem_range.mpr (small row rowMember isChosen)
  have counted := (values_nodup framed apart opcodes).length_le_of_subset inside
  rwa [List.length_map, List.length_range, ← List.countP_eq_length_filter] at counted

/-- What makes the opcodes of a table a map from numbers to rows that can be read both ways. -/
structure FaithfulOpcodes (table : List Row) : Prop where
  /-- Each opcode has a value that tells its bits and its tag. -/
  valued : ∀ row ∈ table, row.isWildcard = false → ∃ value, row.Valued value
  /-- No two opcodes have the same value. -/
  distinct : ((table.filter (!·.isWildcard)).map Row.opcode).Nodup
  /-- The value of a form is that of the base row before it and the offset of its mode. -/
  forms
    : ∀ before form after,
        table = before ++ form :: after
        → form.isForm
        → ∃ base between mode value,
            base :: between <:+ before
            ∧ base.isPlain
            ∧ (∀ row ∈ between, row.isForm)
            ∧ form = base.derive mode
            ∧ base.opcode = .ok (value : Nat)
            ∧ form.opcode = .ok (value + mode.offset : Nat)
  bases : table.countP Row.isPlain ≤ 64
  opcodes : table.countP (!·.isWildcard) ≤ 256

/-- The opcodes of lasting rows that pass the check are a faithful map after expansion. -/
theorem expandTable_faithful {rows : List Row} (lasting : ∀ row ∈ rows, row.Lasting)
    (apart : (expandTable rows).Pairwise Row.Apart)
    : FaithfulOpcodes (expandTable rows) := by
  have framed : ∀ row ∈ expandTable rows, row.Framed := fun row member =>
    (expandTable_lasting lasting row member).toFramed
  have grouped := expandTable_grouped rows
  have small : ∀ row ∈ expandTable rows,
      row.isWildcard = false → Text.binaryValue row.bits < 256 := by
    intro row member concrete
    have bound := Text.binaryValue_lt ((framed row member).binary concrete)
    rwa [(framed row member).width] at bound
  refine {
    valued := ?_
    distinct := opcodes_nodup framed apart
    forms := ?_
    bases := ?_
    opcodes := ?_
  }
  · intro row member concrete
    obtain ⟨base, _, yields⟩ := opcode_listed_iff.mp ⟨member, concrete⟩
    exact ⟨_, yields.valued (framed row member) concrete⟩
  · intro before form after whole isForm
    obtain ⟨base, between, mode, kept, ends, forms, _, rfl⟩ :=
      (whole ▸ grouped).exists_base isForm
    have listed : base ∈ expandTable rows := by
      have member := ends.subset List.mem_cons_self
      simp [whole, member]
    have formListed : base.derive mode ∈ expandTable rows := by simp [whole]
    refine ⟨base, between, mode, _, ends, kept.isPlain, forms, rfl,
      (framed base listed).opcode_eq kept.concrete, ?_⟩
    rw [(framed _ formListed).opcode_eq (kept.derive_concrete mode),
      kept.binaryValue_derive (framed base listed)]
  · refine countP_le_of_values_lt framed apart (fun row plain => (Row.isPlain_iff.mp plain).1) ?_
    intro row member isPlain
    obtain ⟨concrete, plain⟩ := Row.isPlain_iff.mp isPlain
    have quotient := (framed row member).quotient_eq concrete
    have zero : Text.binaryValue Row.plainBits = 0 := rfl
    rw [plain, zero] at quotient
    omega
  · refine countP_le_of_values_lt framed apart (by simp) ?_
    intro row member concrete
    exact small row member (by simpa using concrete)

/-- The opcodes of compiled tables are a faithful map if the table has been checked. Witness: the
check has found no collision, so no two opcodes have the same bits.
-/
theorem checked_faithful {source text : Text} {order : RowOrder} {tables : Tables}
    (compiled : (compile true source order text).outcome = .ok tables)
    : FaithfulOpcodes tables.rows ∧ tables.opcodeCount ≤ 256 := by
  obtain ⟨rows, _, lasting, made⟩ := compile_eq_ok compiled
  have apart := Collision.find?_eq_none_iff.mp ((checkedTables_eq_ok_iff.mp made).1 rfl)
  have faithful := expandTable_faithful lasting apart
  rw [Tables.opcodeCount, (checkedTables_eq_ok made).1]
  exact ⟨faithful, faithful.opcodes⟩

theorem checked_faithful_mixed
    : ∃ tables,
        (compile true [] .displayed mixedTable).outcome = .ok tables
        ∧ tables.rules
          = ("0000000019a b\n1000000019a bi1\n0100000019a bi2\n1100000019a bi12\n"
              ++ "2222222201Σ").toList
        ∧ FaithfulOpcodes tables.rows := by
  obtain ⟨tables, compiled, rules⟩ := compile_mixedTable
  exact ⟨tables, compiled, rules, (checked_faithful compiled).1⟩

end OpcodeTables
