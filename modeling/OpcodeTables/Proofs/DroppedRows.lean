import Mathlib.Algebra.GroupWithZero.Nat
import Mathlib.Data.List.Basic
import OpcodeTables.Proofs.ExpansionEvents
import OpcodeTables.Proofs.OpcodeValues
import OpcodeTables.Proofs.RuleTableReading

/-! No row of a table is dropped without a word. Each dropped row has an event that says why it is not
needed or what is wrong with it, and the closing event counts them. A row that is read has two zeros
or the bits of a mode in front, so there is a tag to ask for or there is none.
-/

namespace OpcodeTables

/-- The event is about a row that has been left out. -/
def Event.tellsOfDrop : Event → Bool
  | mismatched _ | regenerated _ => true
  | _ => false

namespace Row

--------------------------------------------------------------------------------
-- Kinds of rows
--------------------------------------------------------------------------------

/-- Nothing of the row is left in an expanded table. -/
def Dropped (row : Row) : Prop :=
  row.contribution = []

instance (row : Row) : Decidable row.Dropped :=
  inferInstanceAs (Decidable (row.contribution = []))

/-- The dropped rows are the forms that a table lists itself. -/
theorem dropped_iff {row : Row} : row.Dropped ↔ row.isVariant := by
  constructor
  · intro dropped
    rcases row.kind_cases with wild | base | variant
    · rw [Dropped, contribution_of_isWildcard wild] at dropped
      cases dropped
    · rw [Dropped, base.contribution_eq] at dropped
      cases dropped
    · exact variant
  · exact contribution_of_isVariant

/-- A row is dropped, a field or kept, and only one of these. -/
theorem kinds_exclusive (row : Row)
    : (if row.Dropped then 1 else 0) + (if row.isWildcard then 1 else 0)
        + (if row.Kept then 1 else 0) = 1 := by
  simp only [dropped_iff]
  rcases row.kind_cases with wild | base | variant
  · simp [wild, isVariant_of_isWildcard wild, not_kept_of_isWildcard wild]
  · simp [base.isVariant_eq, base.concrete, kept_iff_base.mpr base]
  · obtain ⟨concrete, unkept⟩ := not_kept_of_isVariant variant
    simp [variant, concrete, unkept]

--------------------------------------------------------------------------------
-- The event of a dropped row
--------------------------------------------------------------------------------

/-- What a warning says about the tag that the bits of a row call for. -/
inductive CallsFor (row : Row) : String → Prop
  | none (plain : row.modeBits = plainBits) : row.CallsFor "none"
  | tag {mode : Mode} (bits : row.modeBits = mode.bits)
    : row.CallsFor s!"'{String.ofList mode.tag}'"

/-- The event of a dropped row. It is a warning if the bits and the name tell different modes, and it
says which tag the bits call for. Otherwise the row is a form that has the tag of its bits.
-/
structure DropReport (row : Row) (event : Event) : Prop where
  warning_iff : event.severity = .warning ↔ Mode.ofBits? row.modeBits ≠ Mode.ofName? row.name
  warning
    : event.severity = .warning
      → ∃ expected,
          row.CallsFor expected
          ∧ event.message
            = s!"Dropping '{String.ofList row.name}' ({String.ofList row.bits}): "
              ++ s!"mode bits {String.ofList row.modeBits} expect suffix {expected}"
  detail
    : event.severity ≠ .warning
      → event.severity = .debug
        ∧ event.message = s!"Skipping pre-expanded row '{String.ofList row.name}'"
        ∧ row.modeBits ≠ plainBits
        ∧ ∃ mode : Mode,
            row.modeBits = mode.bits
            ∧ ∀ other : Mode, other.tag <:+ Text.lower row.name ↔ other = mode

/-- Two binary digits are two zeros or the bits of a mode. -/
theorem Framed.modeBits_cases {row : Row} (framed : row.Framed) (concrete : row.isWildcard = false)
    : row.modeBits = plainBits ∨ ∃ mode : Mode, row.modeBits = mode.bits := by
  have binary := framed.modeBits_binary concrete
  obtain ⟨first, second, bits⟩ := List.length_eq_two.mp framed.length_modeBits
  rw [bits] at binary ⊢
  rcases binary first (by simp) with rfl | rfl <;> rcases binary second (by simp) with rfl | rfl
  · exact Or.inl rfl
  · exact Or.inr ⟨.second, rfl⟩
  · exact Or.inr ⟨.first, rfl⟩
  · exact Or.inr ⟨.both, rfl⟩

theorem Framed.callsFor {row : Row} (framed : row.Framed) (concrete : row.isWildcard = false)
    : row.CallsFor (Event.expectedTag row) := by
  rcases framed.modeBits_cases concrete with plain | ⟨mode, bits⟩
  · have expected : Event.expectedTag row = "none" := by
      rw [Event.expectedTag, plain]
      rfl
    rw [expected]
    exact .none plain
  · have expected : Event.expectedTag row = s!"'{String.ofList mode.tag}'" := by
      rw [Event.expectedTag, bits, Mode.ofBits?_bits]
    rw [expected]
    exact .tag bits

/-- A form whose bits and name agree has a mode: two zeros and no tag would make it a base row. -/
theorem Framed.exists_mode_of_agree {row : Row} (framed : row.Framed) (variant : row.isVariant)
    (agree : Mode.ofBits? row.modeBits = Mode.ofName? row.name)
    : ∃ mode : Mode, row.modeBits = mode.bits ∧ Mode.ofName? row.name = some mode := by
  obtain ⟨concrete, unkept⟩ := not_kept_of_isVariant variant
  rcases framed.modeBits_cases concrete with plain | ⟨mode, bits⟩
  · rw [plain] at agree
    exact absurd (kept_iff_base.mpr ⟨concrete, plain, agree.symm⟩) unkept
  · rw [bits, Mode.ofBits?_bits] at agree
    exact ⟨mode, bits, agree.symm⟩

/-- There is one event for a dropped row, and it reports the drop. -/
theorem Framed.exists_report {row : Row} (framed : row.Framed) (variant : row.isVariant)
    : ∃ event, row.expansionEvent? = some event ∧ event.tellsOfDrop ∧ row.DropReport event := by
  have concrete := (not_kept_of_isVariant variant).1
  by_cases agree : Mode.ofBits? row.modeBits = Mode.ofName? row.name
  · obtain ⟨mode, bits, tagged⟩ := framed.exists_mode_of_agree variant agree
    refine ⟨.regenerated row, by simp [expansionEvent?, variant, agree], rfl, ?_⟩
    refine ⟨by simp [Event.severity, agree], by simp [Event.severity], ?_⟩
    intro _
    refine ⟨rfl, rfl, bits ▸ bits_ne_plainBits mode, mode, bits, ?_⟩
    intro other
    rw [← Mode.ofName?_eq_some_iff, tagged, Option.some.injEq]
    exact eq_comm
  · refine ⟨.mismatched row, by simp [expansionEvent?, variant, agree], rfl, ?_⟩
    refine ⟨by simp [Event.severity, agree], ?_, fun detail => absurd rfl detail⟩
    intro _
    exact ⟨_, framed.callsFor concrete, rfl⟩

/-- Nothing is told about the drop of a row that is not dropped. -/
theorem tellsOfDrop_of_listed {row : Row} {event : Event} (listed : row.isVariant = false)
    (told : row.expansionEvent? = some event)
    : event.tellsOfDrop = false := by
  obtain ⟨name, forms, rfl⟩ := exists_expanded_of_listed listed told
  rfl

end Row

--------------------------------------------------------------------------------
-- The events of a table
--------------------------------------------------------------------------------

/-- The events of an expansion account for every row of the table. -/
structure ExpansionAccount (rows : List Row) : Prop where
  /-- Each dropped row has one event, in the order of the rows. -/
  drops
    : List.Forall₂ Row.DropReport (rows.filter fun row => row.Dropped)
        ((expansionEvents rows).filter Event.tellsOfDrop)
  /-- The closing event counts the rows of the expanded table and those that have been dropped. -/
  closing
    : (expansionEvents rows).getLast?
      = some (.expansion (expandTable rows).length (rows.countP fun row => row.Dropped))
  /-- Each row is dropped, a field or kept. -/
  kinds
    : rows.length
      = (rows.countP fun row => row.Dropped) + rows.countP Row.isWildcard
        + rows.countP fun row => row.Kept
  /-- A kept row is listed with its forms, and a field is listed alone. -/
  listed
    : (expandTable rows).length
      = rows.countP Row.isWildcard
        + ((rows.filter fun row => row.Kept).map fun row =>
            1 + (Policy.ofName (Text.lower row.name)).modes.length).sum

/-- The events about drops report the dropped rows, by induction over the rows. -/
theorem filterMap_reports {rows : List Row} (framed : ∀ row ∈ rows, row.Framed)
    : List.Forall₂ Row.DropReport (rows.filter fun row => row.Dropped)
        ((rows.filterMap Row.expansionEvent?).filter Event.tellsOfDrop) := by
  induction rows with
  | nil => exact .nil
  | cons row rows ih =>
      have others := ih fun other member => framed other (by simp [member])
      cases variant : row.isVariant with
      | true =>
          obtain ⟨event, told, drop, report⟩ := (framed row (by simp)).exists_report variant
          have dropped := Row.dropped_iff.mpr variant
          simpa [dropped, told, drop] using List.Forall₂.cons report others
      | false =>
          have listed : ¬row.Dropped := by simp [Row.dropped_iff, variant]
          cases told : row.expansionEvent? with
          | none => simpa [listed, told] using others
          | some event =>
              have silent := Row.tellsOfDrop_of_listed variant told
              simpa [listed, told, silent] using others

theorem countP_kinds (rows : List Row)
    : rows.length
      = (rows.countP fun row => row.Dropped) + rows.countP Row.isWildcard
        + rows.countP fun row => row.Kept := by
  induction rows with
  | nil => rfl
  | cons row rows ih =>
      have kinds := row.kinds_exclusive
      simp only [List.length_cons, List.countP_cons, decide_eq_true_eq]
      omega

theorem length_expandTable (rows : List Row)
    : (expandTable rows).length
      = rows.countP Row.isWildcard
        + ((rows.filter fun row => row.Kept).map fun row =>
            1 + (Policy.ofName (Text.lower row.name)).modes.length).sum := by
  have opcodes : ((rows.filter fun row => row.Kept).map fun row => row.expand.length)
      = (rows.filter fun row => row.Kept).map fun row =>
          1 + (Policy.ofName (Text.lower row.name)).modes.length := by
    apply List.map_congr_left
    intro row member
    have base := Row.base_of_mem_filter member
    simp [base.expand_eq, Row.variants, Row.lowered, Nat.add_comm]
  rw [List.length_eq_length_filter_add Row.isWildcard, filter_isWildcard, filter_not_isWildcard,
    List.length_flatMap, opcodes, List.countP_eq_length_filter]

/-- The events of an expansion account for every row of a table that has been read. Witness: the
first two bits of an opcode that is read are two zeros or those of a mode, so a dropped row either
has the tag of its bits or is worth a warning.
-/
theorem expansion_accounted {source text : Text} {order : RowOrder} {rows : List Row}
    (read : RuleTable.parse source order text = .ok rows)
    : ExpansionAccount rows where
  drops := by
    have framed : ∀ row ∈ rows, row.Framed := fun row member =>
      (RuleTable.parse_lasting read row member).toFramed
    simpa [expansionEvents, Event.tellsOfDrop] using filterMap_reports framed
  closing := by
    have counted : rows.countP Row.isVariant = rows.countP fun row => row.Dropped := by
      refine List.countP_congr ?_
      simp [Row.dropped_iff]
    rw [expansionEvents, List.getLast?_concat, counted]
  kinds := countP_kinds rows
  listed := length_expandTable rows

/-- A form is dropped without a warning, also if its tag is in uppercase letters. A tag behind two
zeros and bits without their tag are worth one.
-/
theorem expansion_accounted_mixed
    : let rows : List Row := [
        ⟨"00000001".toList, 5, 7, "subi1".toList⟩,
        ⟨"00000010".toList, 0, 7, "NOT".toList⟩,
        ⟨"10000010".toList, 0, 7, "NOTI1".toList⟩,
        ⟨"01000000".toList, 0, 7, "add".toList⟩,
        ⟨"22222222".toList, 0, 1, "I".toList⟩
      ]
      RuleTable.parse [] .ascending (RuleTable.render rows) = .ok rows
      ∧ ((expansionEvents rows).filter Event.tellsOfDrop).map Event.message
        = [
          "Dropping 'subi1' (00000001): mode bits 00 expect suffix none",
          "Skipping pre-expanded row 'NOTI1'",
          "Dropping 'add' (01000000): mode bits 01 expect suffix 'i2'"
        ]
      ∧ ExpansionAccount rows := by
  intro rows
  have read : RuleTable.parse [] .ascending (RuleTable.render rows) = .ok rows := rfl
  have told : ((expansionEvents rows).filter Event.tellsOfDrop).map Event.message
      = [
        "Dropping 'subi1' (00000001): mode bits 00 expect suffix none",
        "Skipping pre-expanded row 'NOTI1'",
        "Dropping 'add' (01000000): mode bits 01 expect suffix 'i2'"
      ] := by
    decide +kernel
  exact ⟨read, told, expansion_accounted read⟩

end OpcodeTables
