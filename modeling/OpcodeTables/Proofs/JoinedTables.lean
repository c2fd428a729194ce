import OpcodeTables.Proofs.RuleTableReading

/-! A table whose text is put together from two texts lists the rows of both. Its errors are those
of the two texts, and only the line of an error in the second text is counted on from the first.
-/

namespace OpcodeTables

/-- The error of the same row with more lines before it. -/
def RowError.movedDown (error : RowError) (count : Nat) : RowError :=
  { error with
    location := error.location.map fun place => { place with line := place.line + count } }

/-- The location of a line shows in its error only. -/
theorem Row.parse_movedDown (source : Text) (number count : Nat) (line : Text)
    : Row.parse (some ⟨source, (number + count : Nat)⟩) line
      = (Row.parse (some ⟨source, number⟩) line).mapError (·.movedDown count) := by
  unfold Row.parse
  cases Row.ofText (Text.trim line) <;> simp [RowError.movedDown]

namespace RuleTable

/-- Lines with more lines before them are read as the same rows, and their errors are moved down. By
induction over the lines.
-/
theorem rowsFrom_movedDown (source : Text) (number count : Nat) (lines : List Text)
    : rowsFrom source (number + count) lines
      = (rowsFrom source number lines).mapError (·.movedDown count) := by
  induction lines generalizing number with
  | nil => rfl
  | cons line lines ih =>
      rw [rowsFrom, rowsFrom, Nat.add_right_comm, ih, Row.parse_movedDown]
      by_cases blank : Text.trim line = []
      · simp [blank]
      · cases Row.parse (some ⟨source, number⟩) line with
        | error error => simp [blank]
        | ok row =>
            cases rowsFrom source (number + 1) lines <;> simp [blank, Except.map]

/-- The lines behind some lines are read if those are, and their numbers are counted on. By
induction over the lines before.
-/
theorem rowsFrom_append (source : Text) (number : Nat) (lines others : List Text)
    : rowsFrom source number (lines ++ others)
      = (rowsFrom source number lines).bind fun rows =>
          (rowsFrom source (number + lines.length) others).map (rows ++ ·) := by
  induction lines generalizing number with
  | nil =>
      rw [List.nil_append, List.length_nil, Nat.add_zero]
      cases rowsFrom source number others <;> rfl
  | cons line lines ih =>
      rw [List.cons_append, rowsFrom, rowsFrom, ih, List.length_cons, Nat.add_comm lines.length,
        ← Nat.add_assoc]
      by_cases blank : Text.trim line = []
      · simp [blank]
      · cases Row.parse (some ⟨source, number⟩) line with
        | error error => simp [blank, Except.bind]
        | ok row =>
            cases rowsFrom source (number + 1) lines <;>
              cases rowsFrom source (number + 1 + lines.length) others <;>
              simp [blank, Except.bind, Except.map]

/-- A newline behind a text changes nothing about what is read from it, since the line that it may
add is blank.
-/
theorem rowsFrom_lines_concat_newline (source : Text) (number : Nat) (text : Text)
    : rowsFrom source number (Text.lines (text ++ ['\n']))
      = rowsFrom source number (Text.lines text) := by
  rcases Text.lines_concat_newline text with same | longer
  · rw [same]
  · have blank (count : Nat) : rowsFrom source count [[]] = .ok [] := rfl
    rw [longer, rowsFrom_append, blank]
    cases rowsFrom source number (Text.lines text) <;> simp [Except.bind, Except.map]

/-- Two texts with a newline between them are read as the rows of both; in the displayed order,
those of the second text come first. An error in the first text is the error of the whole, and so is
an error in the second text if there is none in the first, with its line moved down by the lines of
the first text and the newline. It makes no difference whether the texts meet at further breaks.
-/
theorem parse_append_newline (source : Text) (order : RowOrder) (first second : Text)
    : parse source order (first ++ '\n' :: second)
      = match parse source order first, parse source order second with
        | .error error, _ => .error error
        | .ok _, .error error => .error (error.movedDown (Text.lines (first ++ ['\n'])).length)
        | .ok rows, .ok others =>
          .ok (match order with
            | .displayed => others ++ rows
            | .ascending => rows ++ others) := by
  simp only [parse]
  -- The numbers of the second text's lines are counted on from the first text with the newline, even
  -- though the newline is then left out of the first text.
  rw [Text.lines_append_newline_append, rowsFrom_append, rowsFrom_lines_concat_newline,
    rowsFrom_movedDown]
  cases rowsFrom source 1 (Text.lines first) with
  | error error => rfl
  | ok rows =>
      cases rowsFrom source 1 (Text.lines second) with
      | error error => rfl
      | ok others =>
          cases order <;> simp [Except.bind, Except.map, RowOrder.ascend]

/-- The newline completes the break at the end of the first text, so the refused line is the third
one of the whole.
-/
example
    : parse [] .ascending ("0000000057add\r".toList ++ '\n' :: "\n12".toList)
      = .error ⟨.tooShort 2, "12".toList, some ⟨[], 3⟩⟩ := by
  rfl

end RuleTable

end OpcodeTables
