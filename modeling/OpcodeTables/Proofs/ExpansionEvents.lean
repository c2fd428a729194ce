import OpcodeTables.Proofs.TableShape

/-! What is told about the expansion of a table. Only a form whose name and bits disagree is worth a
warning, and an expanded table has no such form.
-/

namespace OpcodeTables

/-- A form whose first bits tell another mode than the tag of its name, or which has only one of the
two.
-/
def Row.Mismatched (row : Row) : Prop :=
  row.isVariant ∧ Mode.ofBits? row.modeBits ≠ Mode.ofName? row.name

namespace Row

/-- Of a row that is kept, at most its forms are told. -/
theorem exists_expanded_of_listed {row : Row} {event : Event} (listed : row.isVariant = false)
    (told : row.expansionEvent? = some event)
    : ∃ name forms, event = .expanded name forms := by
  rw [expansionEvent?, listed, if_neg Bool.false_ne_true] at told
  split at told
  · exact ⟨_, _, (Option.some.inj told).symm⟩
  · cases told

theorem severity_of_listed {row : Row} {event : Event} (listed : row.isVariant = false)
    (told : row.expansionEvent? = some event)
    : event.severity = .debug := by
  obtain ⟨name, forms, rfl⟩ := exists_expanded_of_listed listed told
  rfl

/-- A warning is given for a row exactly if it is mismatched. -/
theorem warning_iff {row : Row}
    : (∃ event, row.expansionEvent? = some event ∧ event.severity = .warning) ↔ row.Mismatched := by
  cases variant : row.isVariant with
  | false =>
      constructor
      · rintro ⟨event, told, warning⟩
        rw [severity_of_listed variant told] at warning
        cases warning
      · intro mismatched
        simp [Mismatched, variant] at mismatched
  | true =>
      by_cases agree : Mode.ofBits? row.modeBits = Mode.ofName? row.name <;>
        simp [Mismatched, expansionEvent?, variant, agree, Event.severity]

end Row

/-- Warnings are given for the mismatched rows of a table, and for nothing else. -/
theorem exists_warning_iff {rows : List Row}
    : (∃ event ∈ expansionEvents rows, event.severity = .warning)
      ↔ ∃ row ∈ rows, row.Mismatched := by
  simp only [← Row.warning_iff]
  constructor
  · rintro ⟨event, member, warning⟩
    rcases List.mem_append.mp member with told | closing
    · obtain ⟨row, inside, told⟩ := List.mem_filterMap.mp told
      exact ⟨row, inside, event, told, warning⟩
    · rw [List.mem_singleton.mp closing] at warning
      cases warning
  · rintro ⟨row, inside, event, told, warning⟩
    exact ⟨event, List.mem_append_left _ (List.mem_filterMap.mpr ⟨row, inside, told⟩), warning⟩

/-- No row of an expanded table is mismatched, because its forms are opcodes, and for every opcode
that it lists the bits and the name tell the same mode.
-/
theorem not_mismatched_of_mem_expandTable {rows : List Row} {row : Row}
    (member : row ∈ expandTable rows)
    : ¬row.Mismatched := by
  intro ⟨variant, disagree⟩
  have concrete := (Row.not_kept_of_isVariant variant).1
  exact disagree (ofName?_eq_ofBits? (expandTable_grouped rows) member concrete).symm

/-- Expanding an expanded table changes nothing and gives no warning, whatever the rows are that it
comes of: their bits may be too few or no bits at all.
-/
theorem expandTable_settled (rows : List Row)
    : expandTable (expandTable rows) = expandTable rows
      ∧ ∀ event ∈ expansionEvents (expandTable rows), event.severity ≠ .warning := by
  refine ⟨expandTable_expandTable rows, ?_⟩
  intro event member warning
  obtain ⟨row, listed, mismatched⟩ := exists_warning_iff.mp ⟨event, member, warning⟩
  exact not_mismatched_of_mem_expandTable listed mismatched

/-- One bit is too few for an instruction, and two bits are enough for one with a form. -/
example
    : expandTable [⟨['0'], 0, 0, "add".toList⟩, ⟨['0', '0'], -1, 12, "NOT".toList⟩]
      = [⟨['0', '0'], -1, 12, "not".toList⟩, ⟨['1', '0'], -1, 12, "noti1".toList⟩] := by
  decide +kernel

end OpcodeTables
