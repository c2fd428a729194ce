import OpcodeTables.Expansion
import OpcodeTables.Proofs.ModeTags
import OpcodeTables.Proofs.RowFormat
import OpcodeTables.Proofs.Text.Lowercase

/-! An expanded table holds three kinds of rows: fields as they were, base rows in lowercase
letters, and the forms of the base row before them. Expanding it again keeps the first two and
makes the forms anew, so nothing changes.
-/

namespace OpcodeTables

namespace Row

/-- A row that the immediate forms of an instruction are derived from. -/
structure Base (row : Row) : Prop where
  concrete : row.isWildcard = false
  plain : row.modeBits = plainBits
  untagged : Mode.ofName? row.name = none

/-- A row is a field, a base row or an immediate form. -/
theorem kind_cases (row : Row) : row.isWildcard ∨ row.Base ∨ row.isVariant := by
  cases wild : row.isWildcard with
  | true => exact Or.inl rfl
  | false =>
      by_cases plain : row.modeBits = plainBits
      · cases tagged : Mode.ofName? row.name with
        | none => exact Or.inr (Or.inl ⟨wild, plain, tagged⟩)
        | some mode => exact Or.inr (Or.inr (by simp [isVariant, wild, tagged]))
      · exact Or.inr (Or.inr (by simp [isVariant, wild, plain]))

theorem isVariant_of_isWildcard {row : Row} (wild : row.isWildcard) : row.isVariant = false := by
  simp [isVariant, wild]

theorem Base.isVariant_eq {row : Row} (base : row.Base) : row.isVariant = false := by
  simp [isVariant, base.plain, base.untagged]

theorem contribution_of_isWildcard {row : Row} (wild : row.isWildcard)
    : row.contribution = [row] := by
  simp [contribution, isVariant_of_isWildcard wild, expand, wild]

/-- A base row turns into itself in lowercase letters and its forms. -/
theorem Base.expand_eq {row : Row} (base : row.Base)
    : row.expand = row.lowered :: row.lowered.variants := by
  simp [expand, base.concrete]

/-- A base row is not dropped. -/
theorem Base.contribution_eq_expand {row : Row} (base : row.Base)
    : row.contribution = row.expand := by
  simp [contribution, base.isVariant_eq]

theorem Base.contribution_eq {row : Row} (base : row.Base)
    : row.contribution = row.lowered :: row.lowered.variants :=
  base.contribution_eq_expand.trans base.expand_eq

/-- An immediate form is dropped. -/
theorem contribution_of_isVariant {row : Row} (variant : row.isVariant)
    : row.contribution = [] := by
  simp [contribution, variant]

@[simp] theorem length_bits (mode : Mode) : mode.bits.length = 2 := by
  cases mode <;> rfl

/-- No mode has the bits of a row without immediate arguments. -/
theorem bits_ne_plainBits (mode : Mode) : mode.bits ≠ plainBits := by
  cases mode <;> decide

/-- The first two bits of a form are those of its mode. -/
@[simp] theorem modeBits_derive (row : Row) (mode : Mode)
    : (row.derive mode).modeBits = mode.bits := by
  simp [modeBits, derive]

/-- A form keeps the bits that tell the instruction. -/
@[simp] theorem baseBits_derive (row : Row) (mode : Mode)
    : (row.derive mode).baseBits = row.baseBits := by
  simp [baseBits, derive]

/-- A form has as many bits as the row, if the row has any that its mode takes the place of. -/
theorem length_derive {row : Row} (wide : 2 ≤ row.bits.length) (mode : Mode)
    : (row.derive mode).bits.length = row.bits.length := by
  simp only [derive, baseBits, List.length_append, length_bits, List.length_drop]
  omega

/-- The bits of a base row are two zeros and the bits that tell the instruction. -/
theorem Base.bits_eq {row : Row} (base : row.Base) : row.bits = plainBits ++ row.baseBits := by
  rw [← base.plain, modeBits_append_baseBits]

theorem wildcard_not_mem_bits (mode : Mode) : wildcard ∉ mode.bits := by
  cases mode <;> decide

theorem Base.derive_concrete {row : Row} (base : row.Base) (mode : Mode)
    : (row.derive mode).isWildcard = false := by
  have concrete := isWildcard_eq_false_iff.mp base.concrete
  rw [base.bits_eq, List.mem_append, not_or] at concrete
  simp only [isWildcard_eq_false_iff, derive, List.mem_append, not_or]
  exact ⟨wildcard_not_mem_bits mode, concrete.2⟩

/-- A form of a base row is an immediate form, by its first two bits. -/
theorem Base.derive_isVariant {row : Row} (base : row.Base) (mode : Mode)
    : (row.derive mode).isVariant := by
  simp [isVariant, base.derive_concrete mode, bits_ne_plainBits mode]

/-- A base row in lowercase letters is a base row, because tags are looked for in lowercase. -/
theorem Base.lowered {row : Row} (base : row.Base) : row.lowered.Base where
  concrete := base.concrete
  plain := base.plain
  untagged := (Mode.ofName?_lower row.name).trans base.untagged

@[simp] theorem lowered_lowered (row : Row) : row.lowered.lowered = row.lowered := by
  simp [lowered, Text.lower_lower]

/-- The forms of a base row are dropped when they are expanded themselves. -/
theorem Base.flatMap_variants {row : Row} (base : row.Base)
    : row.variants.flatMap contribution = [] := by
  refine List.flatMap_eq_nil_iff.mpr ?_
  intro form member
  obtain ⟨mode, _, rfl⟩ := List.mem_map.mp member
  exact contribution_of_isVariant (base.derive_isVariant mode)

/-- What a row turns into turns into itself. -/
theorem flatMap_contribution (row : Row)
    : row.contribution.flatMap contribution = row.contribution := by
  rcases row.kind_cases with wild | base | variant
  · simp [contribution_of_isWildcard wild]
  · rw [base.contribution_eq, List.flatMap_cons, base.lowered.contribution_eq,
      base.lowered.flatMap_variants, lowered_lowered, List.append_nil]
  · simp [contribution_of_isVariant variant]

end Row

/-- Expanding an expanded table changes nothing, row by row. -/
theorem expandTable_expandTable (rows : List Row)
    : expandTable (expandTable rows) = expandTable rows := by
  simp only [expandTable, List.flatMap_assoc, Row.flatMap_contribution]

namespace Row

/-- A row with a lowercase name is legible if the row is, since the last character of a name does not
turn into a blank.
-/
theorem Legible.lowered {row : Row} (legible : row.Legible) : row.lowered.Legible where
  width := legible.width
  bits := legible.bits
  start := legible.start
  finish := legible.finish
  last := Text.getLast?_lower_not_blank legible.last

/-- A row with a lowercase name can be written if the row can. The blanks in the name are the
ones that were there.
-/
theorem Lasting.lowered {row : Row} (lasting : row.Lasting) : row.lowered.Lasting where
  toFramed := lasting.legible.lowered.toFramed
  last := lasting.legible.lowered.last
  unbroken := by
    intro c member
    cases broken : Text.isLineBreak c with
    | false => rfl
    | true =>
        have old := Text.mem_of_mem_lower_of_isBlank member (Text.isBlank_of_isLineBreak broken)
        exact broken ▸ lasting.unbroken c old

theorem isBit_of_mem_bits {mode : Mode} {c : Char} (member : c ∈ mode.bits) : isBit c := by
  cases mode <;>
    · simp only [Mode.bits, List.mem_cons, List.not_mem_nil, or_false] at member
      rcases member with rfl | rfl <;> rfl

theorem tag_unbroken (mode : Mode) : Text.Unbroken mode.tag := by
  cases mode <;> decide

/-- Every mode has a tag, which does not end with a blank. -/
theorem exists_getLast?_tag (mode : Mode)
    : ∃ c, mode.tag.getLast? = some c ∧ Text.isBlank c = false := by
  cases mode
  · exact ⟨'1', rfl, by decide⟩
  · exact ⟨'2', rfl, by decide⟩
  · exact ⟨'2', rfl, by decide⟩

/-- A form of a row is legible if the row is. -/
theorem Legible.derive {row : Row} (legible : row.Legible) (mode : Mode)
    : (row.derive mode).Legible where
  width := by
    have wide : 2 ≤ row.bits.length := by
      rw [legible.width]
      decide
    rw [length_derive wide, legible.width]
  bits := by
    intro c member
    rcases List.mem_append.mp member with new | old
    · exact isBit_of_mem_bits new
    · exact legible.bits c (List.mem_of_mem_drop old)
  start := legible.start
  finish := legible.finish
  last := by
    intro c member
    obtain ⟨final, ends, solid⟩ := exists_getLast?_tag mode
    simp only [Row.derive, List.getLast?_append, ends, Option.some_or, Option.mem_def,
      Option.some.injEq] at member
    exact member ▸ solid

/-- A form of a row can be written if the row can. -/
theorem Lasting.derive {row : Row} (lasting : row.Lasting) (mode : Mode)
    : (row.derive mode).Lasting where
  toFramed := (lasting.legible.derive mode).toFramed
  last := (lasting.legible.derive mode).last
  unbroken := by
    intro c member
    rcases List.mem_append.mp member with name | tag
    · exact lasting.unbroken c name
    · exact tag_unbroken mode c tag

/-- A row that is expanded stays as it is, or it turns into lowercase letters and forms of that. -/
theorem mem_expand_cases {row next : Row} (member : next ∈ row.expand)
    : next = row ∨ next = row.lowered ∨ ∃ mode, next = row.lowered.derive mode := by
  unfold expand at member
  split at member
  · exact Or.inl (List.mem_singleton.mp member)
  · rcases List.mem_cons.mp member with same | form
    · exact Or.inr (Or.inl same)
    · obtain ⟨mode, _, same⟩ := List.mem_map.mp form
      exact Or.inr (Or.inr ⟨mode, same.symm⟩)

theorem mem_expand_of_mem_contribution {row next : Row} (member : next ∈ row.contribution)
    : next ∈ row.expand := by
  unfold contribution at member
  split at member
  · cases member
  · exact member

theorem Legible.expand {row : Row} (legible : row.Legible) : ∀ next ∈ row.expand, next.Legible := by
  intro next member
  rcases mem_expand_cases member with rfl | rfl | ⟨mode, rfl⟩
  · exact legible
  · exact legible.lowered
  · exact legible.lowered.derive mode

theorem Lasting.contribution {row : Row} (lasting : row.Lasting)
    : ∀ next ∈ row.contribution, next.Lasting := by
  intro next member
  rcases mem_expand_cases (mem_expand_of_mem_contribution member) with rfl | rfl | ⟨mode, rfl⟩
  · exact lasting
  · exact lasting.lowered
  · exact lasting.lowered.derive mode

end Row

theorem expandTable_legible {rows : List Row} (legible : ∀ row ∈ rows, row.Legible)
    : ∀ row ∈ expandTable rows, row.Legible := by
  intro row member
  obtain ⟨source, inside, found⟩ := List.mem_flatMap.mp member
  exact (legible source inside).expand row (Row.mem_expand_of_mem_contribution found)

/-- An expanded table can be written if the table can. -/
theorem expandTable_lasting {rows : List Row} (lasting : ∀ row ∈ rows, row.Lasting)
    : ∀ row ∈ expandTable rows, row.Lasting := by
  intro row member
  obtain ⟨source, inside, found⟩ := List.mem_flatMap.mp member
  exact (lasting source inside).contribution row found

end OpcodeTables
