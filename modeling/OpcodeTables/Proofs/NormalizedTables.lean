import OpcodeTables.Proofs.RuleTableReading

/-! Writing a table that has been read brings its text into a normal form: the lines that are not
blank, without the blanks around them and with a newline between any two. The normal form is read as
the same rows, so it stays what it is however often it is read and written again.
-/

namespace OpcodeTables

/-- The lines of a text that are not blank, without the blanks around them. -/
def Text.solidLines (text : Text) : List Text :=
  ((Text.lines text).map Text.trim).filter (· ≠ [])

namespace RuleTable

/-- The table of a text, which is read in ascending order and written again. Errors call the text by
its name.
-/
def rewrite (text name : Text) : Except RowError Text :=
  (parse name .ascending text).map render

/-- Rows that are read are written as the solid lines of their text, which are reversed with them in
the displayed order.
-/
theorem map_render_eq {source text : Text} {order : RowOrder} {rows : List Row}
    (read : parse source order text = .ok rows)
    : rows.map Row.render =
      match order with
      | .displayed => (Text.solidLines text).reverse
      | .ascending => Text.solidLines text := by
  obtain ⟨listed, found, rfl⟩ := map_eq_ok_iff.mp read
  have written := (rowsFrom_eq_ok found).2
  cases order with
  | displayed => exact List.map_reverse.trans (congrArg List.reverse written)
  | ascending => exact written

/-- The written form of lasting rows is not changed by reading and writing it. -/
theorem rewrite_render {rows : List Row} (lasting : ∀ row ∈ rows, row.Lasting) (name : Text)
    : rewrite (render rows) name = .ok (render rows) := by
  rw [rewrite, parse_render lasting]
  rfl

/-- The written form of lasting rows is not changed by any number of readings, by induction over the
names that the text goes by.
-/
theorem foldlM_rewrite_render {rows : List Row} (lasting : ∀ row ∈ rows, row.Lasting)
    (names : List Text)
    : names.foldlM rewrite (render rows) = .ok (render rows) := by
  induction names with
  | nil => rfl
  | cons name names ih =>
      rw [List.foldlM_cons, rewrite_render lasting]
      exact ih

/-- A table that has been read is written as the solid lines of its text, in the displayed order as
their reverse, with a newline between any two. What is written is read as the same rows, and it
comes out the same however often it is read in ascending order and written again.
-/
theorem render_parsed {source text : Text} {order : RowOrder} {rows : List Row}
    (read : parse source order text = .ok rows)
    : render rows
        = Text.joinLines (match order with
            | .displayed => (Text.solidLines text).reverse
            | .ascending => Text.solidLines text)
      ∧ (∀ name, parse name .ascending (render rows) = .ok rows)
      ∧ ∀ names : List Text, names.foldlM rewrite (render rows) = .ok (render rows) := by
  have lasting := parse_lasting read
  refine ⟨?_, ?_, foldlM_rewrite_render lasting⟩
  · rw [render, map_render_eq read]
  · exact fun name => parse_render lasting name .ascending

/-- Rows with blanks around them and breaks of three forms, a blank line, and rows with a space in
the name and without a name.
-/
def raggedTable : Text :=
  " 2222222201Σ\r\n\x1F\n0000000157Sub x \x0B\u20030000000057\t".toList

theorem render_parsed_ragged
    : ∃ rows,
        parse [] .displayed raggedTable = .ok rows
        ∧ render rows = "0000000057\n0000000157Sub x\n2222222201Σ".toList
        ∧ ∀ names : List Text, names.foldlM rewrite (render rows) = .ok (render rows) := by
  obtain ⟨rows, read⟩ : ∃ rows, parse [] .displayed raggedTable = .ok rows := ⟨_, rfl⟩
  obtain ⟨written, _, again⟩ := render_parsed read
  have solid : Text.solidLines raggedTable
      = ["2222222201Σ", "0000000157Sub x", "0000000057"].map String.toList := by
    decide +kernel
  rw [solid] at written
  exact ⟨rows, read, written, again⟩

end RuleTable

end OpcodeTables
