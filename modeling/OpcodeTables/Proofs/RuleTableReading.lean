import OpcodeTables.Proofs.RowFormat
import OpcodeTables.Proofs.Text.LineBreaks
import OpcodeTables.RuleTable
import OpcodeTables.Traced

/-! Every row that is read from a table can be written on a line of its own, and a table of
such rows is read as those rows.
-/

namespace OpcodeTables

theorem RowOrder.mem_ascend {order : RowOrder} {rows : List Row} {row : Row}
    : row ∈ order.ascend rows ↔ row ∈ rows := by
  cases order <;> simp [RowOrder.ascend]

namespace RuleTable

/-- The first line is blank, or it is read as the first row. Where the line stands matters only if it
is refused.
-/
theorem rowsFrom_cons_eq_ok_iff {source : Text} {number : Nat} {line : Text} {lines : List Text}
    {rows : List Row}
    : rowsFrom source number (line :: lines) = .ok rows
      ↔ (Text.trim line = [] ∧ rowsFrom source (number + 1) lines = .ok rows)
        ∨ ∃ row rest,
            Row.parse none line = .ok row
            ∧ rowsFrom source (number + 1) lines = .ok rest
            ∧ row :: rest = rows := by
  rw [rowsFrom]
  by_cases blank : Text.trim line = []
  · rw [if_pos blank]
    constructor
    · exact fun read => Or.inl ⟨blank, read⟩
    · rintro (⟨_, read⟩ | ⟨row, rest, found, _⟩)
      · exact read
      · exact absurd blank (Row.trim_ne_nil_of_parse found)
  · have anywhere (row : Row)
        : Row.parse none line = .ok row ↔ Row.parse (some ⟨source, number⟩) line = .ok row :=
      Row.parse_eq_ok_iff.trans Row.parse_eq_ok_iff.symm
    simp only [blank, if_false, false_and, false_or, anywhere]
    cases Row.parse (some ⟨source, number⟩) line with
    | error error => simp
    | ok row => simp [map_eq_ok_iff]

/-- The rows that are read are framed, and they are written as the lines that are not blank, by
induction over the lines.
-/
theorem rowsFrom_eq_ok {source : Text} {number : Nat} {lines : List Text} {rows : List Row}
    (read : rowsFrom source number lines = .ok rows)
    : (∀ row ∈ rows, row.Framed)
      ∧ rows.map Row.render = (lines.map Text.trim).filter (· ≠ []) := by
  induction lines generalizing number rows with
  | nil =>
      obtain rfl := Except.ok.inj read
      simp
  | cons line lines ih =>
      rcases rowsFrom_cons_eq_ok_iff.mp read with ⟨blank, rest⟩ | ⟨row, others, found, rest, rfl⟩
      · simpa [blank] using ih rest
      · obtain ⟨framed, written⟩ := Row.parse_eq_ok_iff.mp found
        obtain ⟨othersFramed, othersWritten⟩ := ih rest
        refine ⟨by simpa using ⟨framed, othersFramed⟩, ?_⟩
        simp [written, Row.trim_ne_nil_of_parse found, othersWritten]

/-- Lines can be read exactly if each of them that is not blank has the form of a row, by induction
over the lines.
-/
theorem exists_rowsFrom_eq_ok_iff (source : Text) (number : Nat) (lines : List Text)
    : (∃ rows, rowsFrom source number lines = .ok rows)
      ↔ ∀ line ∈ lines, Text.trim line ≠ [] → Row.Shaped (Text.trim line) := by
  induction lines generalizing number with
  | nil => simp [rowsFrom]
  | cons line lines ih =>
      rw [List.forall_mem_cons, ← ih (number + 1), rowsFrom]
      by_cases blank : Text.trim line = []
      · simp [blank]
      · simp only [blank, if_false, ne_eq, not_false_eq_true, true_implies]
        rw [← Row.exists_parse_eq_ok_iff (some ⟨source, number⟩) line]
        cases found : Row.parse (some ⟨source, number⟩) line with
        | error error => simp
        | ok row => cases rest : rowsFrom source (number + 1) lines <;> simp [Except.map]

/-- Lasting rows are read from their own lines, by induction over the rows. -/
theorem rowsFrom_render {source : Text} {rows : List Row} (lasting : ∀ row ∈ rows, row.Lasting)
    (number : Nat)
    : rowsFrom source number (rows.map Row.render) = .ok rows := by
  induction rows generalizing number with
  | nil => rfl
  | cons row rows ih =>
      have here := lasting row (by simp)
      have solid : Text.trim row.render ≠ [] := by
        rw [here.legible.render_trimmed.trim_eq]
        exact here.render_ne_nil
      rw [List.map_cons, rowsFrom, if_neg solid, here.legible.parse_render,
        ih (fun other member => lasting other (by simp [member]))]
      rfl

/-- The rows of a table are lasting: the line of a row has no break in it, and it is trimmed
before the row is read.
-/
theorem parse_lasting {source text : Text} {order : RowOrder} {rows : List Row}
    (read : parse source order text = .ok rows)
    : ∀ row ∈ rows, row.Lasting := by
  obtain ⟨listed, found, rfl⟩ := map_eq_ok_iff.mp read
  obtain ⟨framed, written⟩ := rowsFrom_eq_ok found
  intro row member
  have inListed : row ∈ listed := RowOrder.mem_ascend.mp member
  have inLines : row.render ∈ (Text.lines text).map Text.trim := by
    have shown := List.mem_map_of_mem (f := Row.render) inListed
    rw [written] at shown
    exact (List.mem_filter.mp shown).1
  obtain ⟨line, lineMember, trimmed⟩ := List.mem_map.mp inLines
  refine (framed row inListed).lasting ?_ (trimmed ▸ Text.trim_trimmed line)
  intro c inside
  exact Text.mem_lines_unbroken lineMember c
    ((Text.trim_infix line).subset (trimmed ▸ inside))

/-- A text can be read exactly if each of its lines that is not blank has the form of a row. -/
theorem exists_parse_eq_ok_iff (source : Text) (order : RowOrder) (text : Text)
    : (∃ rows, parse source order text = .ok rows)
      ↔ ∀ line ∈ Text.lines text, Text.trim line ≠ [] → Row.Shaped (Text.trim line) := by
  rw [← exists_rowsFrom_eq_ok_iff source 1, parse]
  cases rowsFrom source 1 (Text.lines text) <;> simp [Except.map]

/-- A text is refused exactly if one of its lines is neither blank nor in the form of a row. -/
theorem exists_error_iff_not_shaped (source : Text) (order : RowOrder) (text : Text)
    : (∃ error, parse source order text = .error error)
      ↔ ∃ line ∈ Text.lines text, Text.trim line ≠ [] ∧ ¬Row.Shaped (Text.trim line) := by
  have readable := exists_parse_eq_ok_iff source order text
  cases read : parse source order text with
  | error error => simpa [read] using readable
  | ok rows => simpa [read] using readable

/-- A table of lasting rows is read as its rows, in the order asked for. -/
theorem parse_render {rows : List Row} (lasting : ∀ row ∈ rows, row.Lasting) (source : Text)
    (order : RowOrder)
    : parse source order (render rows) = .ok (order.ascend rows) := by
  have unbroken : ∀ line ∈ rows.map Row.render, Text.Unbroken line := by
    intro line member
    obtain ⟨row, inside, rfl⟩ := List.mem_map.mp member
    exact (lasting row inside).render_unbroken
  have nonempty : ∀ line ∈ rows.map Row.render, line ≠ [] := by
    intro line member
    obtain ⟨row, inside, rfl⟩ := List.mem_map.mp member
    exact (lasting row inside).render_ne_nil
  rw [parse, render, Text.lines_joinLines unbroken nonempty, rowsFrom_render lasting]
  rfl

/-- Reading undoes writing exactly on tables of lasting rows: each row has eight bits, two indices
from zero to nine, and a name without a break in it and without a blank at its end. In the displayed
order the rows come back reversed. No other table comes back by accident, because whatever rows are
read, they are lasting.
-/
theorem parse_render_iff (source : Text) (rows : List Row)
    : (parse source .ascending (render rows) = .ok rows ↔ ∀ row ∈ rows, row.Lasting)
      ∧ (parse source .displayed (render rows) = .ok rows.reverse
          ↔ ∀ row ∈ rows, row.Lasting) := by
  have either (order : RowOrder)
      : parse source order (render rows) = .ok (order.ascend rows)
        ↔ ∀ row ∈ rows, row.Lasting := by
    constructor
    · intro read row member
      exact parse_lasting read row (RowOrder.mem_ascend.mpr member)
    · intro lasting
      exact parse_render lasting source order
  exact ⟨either .ascending, either .displayed⟩

end RuleTable

end OpcodeTables
