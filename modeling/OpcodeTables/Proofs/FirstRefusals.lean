import OpcodeTables.Proofs.RuleTableReading

/-! A table is refused for the first of its lines that is neither blank nor a row. The error names
the line by its number among all lines of the text, in whatever order the rows are asked for.
-/

namespace OpcodeTables.RuleTable

/-- The line should be a row, because it is not blank, but it is refused. -/
def Faulty (line : Text) : Prop :=
  Text.trim line ≠ [] ∧ ∃ error, Row.parse none line = .error error

--------------------------------------------------------------------------------
-- Lines
--------------------------------------------------------------------------------

theorem faulty_iff {line : Text}
    : Faulty line ↔ Text.trim line ≠ [] ∧ ¬Row.Shaped (Text.trim line) := by
  rw [Faulty, Row.exists_parse_eq_error_iff]

/-- Lines are refused for the first of them if it is faulty, and else for one of those behind it. -/
theorem rowsFrom_cons_eq_error_iff {source : Text} {number : Nat} {line : Text} {lines : List Text}
    {error : RowError}
    : rowsFrom source number (line :: lines) = .error error
      ↔ (Faulty line ∧ Row.parse (some ⟨source, number⟩) line = .error error)
        ∨ (¬Faulty line ∧ rowsFrom source (number + 1) lines = .error error) := by
  have refused := Row.exists_parse_eq_error_iff (some ⟨source, number⟩) line
  rw [faulty_iff, ← refused, rowsFrom]
  by_cases blank : Text.trim line = []
  · simp [blank]
  · cases Row.parse (some ⟨source, number⟩) line with
    | error found => simp [blank]
    | ok row => cases rowsFrom source (number + 1) lines <;> simp [blank, Except.map]

/-- Lines are refused for the first faulty one, by induction over the lines. -/
theorem rowsFrom_eq_error_iff {source : Text} {number : Nat} {lines : List Text} {error : RowError}
    : rowsFrom source number lines = .error error
      ↔ ∃ before line after,
          lines = before ++ line :: after
          ∧ (∀ other ∈ before, ¬Faulty other)
          ∧ Faulty line
          ∧ Row.parse (some ⟨source, (number + before.length : Nat)⟩) line = .error error := by
  induction lines generalizing number with
  | nil => simp [rowsFrom]
  | cons first lines ih =>
      rw [rowsFrom_cons_eq_error_iff, ih]
      constructor
      · rintro (⟨faulty, refused⟩ | ⟨sound, before, line, after, rfl, clear, faulty, refused⟩)
        · exact ⟨[], first, lines, rfl, List.forall_mem_nil _, faulty, refused⟩
        · refine ⟨first :: before, line, after, rfl, ?_, faulty, ?_⟩
          · exact List.forall_mem_cons.mpr ⟨sound, clear⟩
          · rwa [List.length_cons, Nat.add_comm before.length, ← Nat.add_assoc]
      · rintro ⟨before, line, after, whole, clear, faulty, refused⟩
        -- The refused line is the first one, or the first one is passed over.
        cases before with
        | nil =>
            obtain ⟨rfl, rfl⟩ := List.cons.inj whole
            exact Or.inl ⟨faulty, refused⟩
        | cons head before =>
            obtain ⟨rfl, rfl⟩ := List.cons.inj whole
            obtain ⟨sound, clear⟩ := List.forall_mem_cons.mp clear
            refine Or.inr ⟨sound, before, line, after, rfl, clear, faulty, ?_⟩
            rwa [Nat.add_assoc, Nat.add_comm 1]

--------------------------------------------------------------------------------
-- Tables
--------------------------------------------------------------------------------

/-- The order that is asked for is made of the rows as they are listed. -/
theorem parse_displayed (source text : Text)
    : parse source .displayed text = (parse source .ascending text).map List.reverse := by
  unfold parse
  cases rowsFrom source 1 (Text.lines text) <;> rfl

/-- A text is cut into lines at its breaks, and it is refused exactly if one of the lines is faulty.
The error is that of the first faulty line with its number among all lines, the first of which is
number one. The order that is asked for makes no difference to the error, and rows in the displayed
order are the reverse of those in the ascending order.
-/
theorem parse_reports_first (source text : Text)
    : let lines := Text.lines text
      Text.CutInto text lines
      ∧ (∀ order,
          (∃ error, parse source order text = .error error) ↔ ∃ line ∈ lines, Faulty line)
      ∧ (∀ order error,
          parse source order text = .error error
          ↔ ∃ before line after,
              lines = before ++ line :: after
              ∧ (∀ other ∈ before, ¬Faulty other)
              ∧ Faulty line
              ∧ Row.parse (some ⟨source, (before.length + 1 : Nat)⟩) line = .error error)
      ∧ parse source .displayed text = (parse source .ascending text).map List.reverse := by
  intro lines
  refine ⟨Text.cutInto_lines text, ?_, ?_, parse_displayed source text⟩
  · intro order
    simp only [faulty_iff]
    exact exists_error_iff_not_shaped source order text
  · intro order error
    simp only [parse, map_eq_error_iff, rowsFrom_eq_error_iff, Nat.add_comm 1, lines]

/-- Four breaks of different forms stand before the refused line. The second line is blank, although
it holds a separator, which breaks no line.
-/
example (order : RowOrder)
    : parse [] order "0000000057add\r\n\x1F\x0B\u2028\r12\n0x".toList
      = .error ⟨.tooShort 2, "12".toList, some ⟨[], 5⟩⟩ := by
  cases order <;> rfl

end OpcodeTables.RuleTable
