import OpcodeTables.Proofs.AssemblyAgreement
import OpcodeTables.Proofs.InstructionCollisions

/-! How a compilation ends. A text with a line that is no row is refused, a table in which two
instructions clash is refused if it is checked, and every other table is compiled. No opcode is
without a value, because the rows that are read have bits only and their forms as well.
-/

namespace OpcodeTables

namespace RuleTable

/-- Some line of the text is neither blank nor in the form of a row. -/
def Malformed (text : Text) : Prop :=
  ∃ line ∈ Text.lines text, Text.trim line ≠ [] ∧ ¬Row.Shaped (Text.trim line)

/-- Two of the rows that are read from the text are kept and have the same bits from the third on. -/
def Clashing (source : Text) (order : RowOrder) (text : Text) : Prop :=
  ∃ rows,
    parse source order text = .ok rows
    ∧ ∃ i j earlier later, ClashAt rows i j earlier later

theorem exists_parse_eq_error_iff (source : Text) (order : RowOrder) (text : Text)
    : (∃ error, parse source order text = .error error) ↔ Malformed text :=
  exists_error_iff_not_shaped source order text

end RuleTable

/-- The tables of rows that are expanded from lasting ones can be made. -/
theorem exists_ofRows_expandTable {rows : List Row} (lasting : ∀ row ∈ rows, row.Lasting)
    : ∃ tables, Tables.ofRows (expandTable rows) = .ok tables := by
  have framed : ∀ row ∈ expandTable rows, row.Framed := fun row member =>
    (expandTable_lasting lasting row member).toFramed
  rw [Tables.ofRows, AssemblyTable.render_eq_ok framed]
  exact ⟨_, rfl⟩

/-- Once a text is read, its tables are fixed, and only a collision can keep them back. -/
theorem compile_outcome_of_parse {source text : Text} {order : RowOrder} {rows : List Row}
    (read : RuleTable.parse source order text = .ok rows)
    : ∃ tables, ∀ check,
        (compile check source order text).outcome =
          match check, Collision.find? (expandTable rows) with
          | true, some found => .error (.collision found)
          | _, _ => .ok tables := by
  obtain ⟨tables, made⟩ := exists_ofRows_expandTable (RuleTable.parse_lasting read)
  refine ⟨tables, ?_⟩
  intro check
  rw [compile_outcome, read]
  simp only [checkedTables, refuseCollision, made]
  cases check <;> cases Collision.find? (expandTable rows) <;> rfl

/-- An assembly table is no rule table, since the lines of its constants are too short for rows. -/
theorem assembly_malformed {check : Bool} {source text : Text} {order : RowOrder} {tables : Tables}
    (compiled : (compile check source order text).outcome = .ok tables)
    : RuleTable.Malformed tables.assembly := by
  obtain ⟨rows, _, lasting, made⟩ := compile_eq_ok compiled
  have expanded := expandTable_lasting lasting
  have written := (checkedTables_eq_ok made).2.2
  rw [AssemblyTable.render_eq_ok fun row member => (expanded row member).toFramed] at written
  have unbroken := List.forall_mem_append.mpr
    ⟨openingLines_unbroken expanded, constantLines_unbroken⟩
  have last : "_ 0".toList ∈ AssemblyTable.constantLines := by decide
  refine ⟨"_ 0".toList, ?_, by decide, ?_⟩
  · rw [← Except.ok.inj written, lines_endLines unbroken]
    exact List.mem_append_right _ last
  · intro ⟨bits, first, second, name, whole, width, _⟩
    have length := congrArg List.length whole
    have short : (Text.trim "_ 0".toList).length = 3 := by decide
    rw [short, List.length_append, width] at length
    omega

/-- A compilation ends in one of three ways. It is refused for a row exactly if the text is
malformed; else it is refused for a collision exactly if the table is checked and two of its rows
clash; else it gives the tables that it gives without a check. No other error occurs. Witness: the
rows that are read are lasting, so their tables can be made.
-/
theorem compile_outcome_iff (check : Bool) (source : Text) (order : RowOrder) (text : Text)
    : let outcome := (compile check source order text).outcome
      let colliding := check = true ∧ RuleTable.Clashing source order text
      ((∃ error, outcome = .error (.row error)) ↔ RuleTable.Malformed text)
      ∧ ((∃ found, outcome = .error (.collision found))
          ↔ ¬RuleTable.Malformed text ∧ colliding)
      ∧ ((∃ tables, outcome = .ok tables) ↔ ¬RuleTable.Malformed text ∧ ¬colliding)
      ∧ (∀ error, outcome ≠ .error (.opcode error))
      ∧ ∀ tables,
          outcome = .ok tables → (compile false source order text).outcome = .ok tables := by
  intro outcome colliding
  cases read : RuleTable.parse source order text with
  | error error =>
      have malformed := (RuleTable.exists_parse_eq_error_iff source order text).mp ⟨error, read⟩
      have refused : outcome = .error (.row error) := by
        simp only [outcome, compile_outcome, read]
      simp [refused, malformed]
  | ok rows =>
      have wellFormed : ¬RuleTable.Malformed text := by
        rw [← RuleTable.exists_parse_eq_error_iff source order, read]
        simp
      have clashing : RuleTable.Clashing source order text
          ↔ ∃ found, Collision.find? (expandTable rows) = some found := by
        rw [exists_find?_expandTable_iff]
        simp [RuleTable.Clashing, read]
      obtain ⟨tables, ends⟩ := compile_outcome_of_parse read
      simp only [colliding, clashing, wellFormed, outcome, ends]
      cases check <;> cases Collision.find? (expandTable rows) <;> simp

end OpcodeTables
