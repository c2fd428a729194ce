import OpcodeTables.Compilation
import OpcodeTables.Proofs.ExpandedTables
import OpcodeTables.Proofs.RuleTableReading

/-! A rule table is a table from which it comes again: compiling it gives the same two tables.
-/

namespace OpcodeTables

/-- The outcome of compiling rows does not depend on where they come from. -/
theorem compile_outcome (check : Bool) (source : Text) (order : RowOrder) (text : Text)
    : (compile check source order text).outcome =
      match RuleTable.parse source order text with
      | .error error => .error (.row error)
      | .ok rows => checkedTables check (expandTable rows) := by
  unfold compile compileAs readRows
  cases RuleTable.parse source order text <;> rfl

/-- Rows are made into tables exactly if they can be written and no check finds a collision. -/
theorem checkedTables_eq_ok_iff {check : Bool} {rows : List Row} {tables : Tables}
    : checkedTables check rows = .ok tables
      ↔ (check = true → Collision.find? rows = none) ∧ Tables.ofRows rows = .ok tables := by
  have made : checkedTables check rows
      = ((refuseCollision check rows).mapError CompileError.collision).bind fun _ =>
          (Tables.ofRows rows).mapError CompileError.opcode := rfl
  rw [made]
  cases check with
  | false => simp [refuseCollision, Except.bind, mapError_eq_ok_iff]
  | true =>
      cases found : Collision.find? rows <;>
        simp [refuseCollision, found, Except.bind, mapError_eq_ok_iff]

/-- The tables of checked rows hold these rows, their rule table and their assembly table. -/
theorem checkedTables_eq_ok {check : Bool} {rows : List Row} {tables : Tables}
    (made : checkedTables check rows = .ok tables)
    : tables.rows = rows
      ∧ tables.rules = RuleTable.render rows
      ∧ AssemblyTable.render rows = .ok tables.assembly := by
  obtain ⟨_, written⟩ := checkedTables_eq_ok_iff.mp made
  obtain ⟨assembly, rendered, rfl⟩ := map_eq_ok_iff.mp written
  exact ⟨rfl, rfl, rendered⟩

/-- A successful compilation has read lasting rows and made the tables of their expansion. -/
theorem compile_eq_ok {check : Bool} {source text : Text} {order : RowOrder} {tables : Tables}
    (compiled : (compile check source order text).outcome = .ok tables)
    : ∃ rows,
        RuleTable.parse source order text = .ok rows
        ∧ (∀ row ∈ rows, row.Lasting)
        ∧ checkedTables check (expandTable rows) = .ok tables := by
  rw [compile_outcome] at compiled
  cases read : RuleTable.parse source order text with
  | error error => simp [read] at compiled
  | ok rows => exact ⟨rows, rfl, RuleTable.parse_lasting read, by simpa [read] using compiled⟩

/-- Compiling the rule table of lasting rows is making tables of them, in the order asked for. -/
theorem compile_render {rows : List Row} (lasting : ∀ row ∈ rows, row.Lasting) (check : Bool)
    (name : Text) (order : RowOrder)
    : (compile check name order (RuleTable.render rows)).outcome
      = checkedTables check (expandTable (order.ascend rows)) := by
  rw [compile_outcome, RuleTable.parse_render lasting]

/-- The rule table of compiled tables is read as their rows, which make the same tables. -/
theorem parse_rules {check : Bool} {source text : Text} {order : RowOrder} {tables : Tables}
    (compiled : (compile check source order text).outcome = .ok tables) (name : Text)
    : RuleTable.parse name .ascending tables.rules = .ok tables.rows
      ∧ checkedTables check (expandTable tables.rows) = .ok tables := by
  obtain ⟨rows, _, lasting, made⟩ := compile_eq_ok compiled
  obtain ⟨rowsEq, rulesEq, _⟩ := checkedTables_eq_ok made
  rw [rowsEq, rulesEq, expandTable_expandTable]
  exact ⟨RuleTable.parse_render (expandTable_lasting lasting) name .ascending, made⟩

/-- A table with blanks around its rows, two kinds of breaks, a field, an instruction with a
space in its name and one of its forms in front of it.
-/
def mixedTable : Text :=
  "1000000019A Bi1\r\n\n 2222222201Σ\x0B0000000019A B\t".toList

/-- The mixed table is compiled: its rows are reversed and the instruction gets its forms
anew.
-/
theorem compile_mixedTable
    : ∃ tables,
        (compile true [] .displayed mixedTable).outcome = .ok tables
        ∧ tables.rules
          = ("0000000019a b\n1000000019a bi1\n0100000019a bi2\n1100000019a bi12\n"
              ++ "2222222201Σ").toList := by
  have rules : (compile true [] .displayed mixedTable).outcome.toOption.map Tables.rules
      = some ("0000000019a b\n1000000019a bi1\n0100000019a bi2\n1100000019a bi12\n"
          ++ "2222222201Σ").toList := by
    decide +kernel
  cases compiled : (compile true [] .displayed mixedTable).outcome with
  | ok tables => exact ⟨tables, rfl, by simpa [compiled, Except.toOption] using rules⟩
  | error error => simp [compiled, Except.toOption] at rules

/-- Compiling the rule table of compiled tables, in ascending order, gives these tables again.
Witness: the expanded rows are lasting, so they are read from the rule table as they are, and
expanding them changes nothing.
-/
theorem compile_rules {check : Bool} {source text : Text} {order : RowOrder} {tables : Tables}
    (compiled : (compile check source order text).outcome = .ok tables) (name : Text)
    : (compile check name .ascending tables.rules).outcome = .ok tables := by
  obtain ⟨rows, _, lasting, made⟩ := compile_eq_ok compiled
  have expanded := expandTable_lasting lasting
  have again := RuleTable.parse_render expanded name .ascending
  rw [compile_outcome, (checkedTables_eq_ok made).2.1, again]
  simpa only [RowOrder.ascend, expandTable_expandTable] using made

theorem compile_rules_mixed
    : ∃ tables,
        (compile true [] .displayed mixedTable).outcome = .ok tables
        ∧ (compile true [] .ascending tables.rules).outcome = .ok tables := by
  obtain ⟨tables, compiled, _⟩ := compile_mixedTable
  exact ⟨tables, compiled, compile_rules compiled []⟩

end OpcodeTables
