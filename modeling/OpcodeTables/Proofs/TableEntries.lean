import OpcodeTables.Proofs.Regeneration
import OpcodeTables.Proofs.TableShape

/-! What comes of a table depends on its entries only, which are its fields and its instructions in
lowercase letters. Forms that the table lists itself leave no trace, and neither does the letter case
of an instruction.
-/

namespace OpcodeTables

--------------------------------------------------------------------------------
-- Entries of rows
--------------------------------------------------------------------------------

/-- The fields and the instructions of a table as an expanded table lists them. -/
def entries (rows : List Row) : List Row :=
  (rows.filter (!·.isVariant)).map Row.entry

theorem entries_cons (row : Row) (rows : List Row)
    : entries (row :: rows) = (if row.isVariant then [] else [row.entry]) ++ entries rows := by
  cases variant : row.isVariant <;> simp [entries, variant]

/-- An entry turns into what the row turns into. -/
theorem Row.contribution_entry {row : Row} (listed : row.isVariant = false)
    : row.entry.contribution = row.contribution := by
  rcases row.kind_cases with wild | base | variant
  · rw [entry, if_pos wild]
  · rw [entry, if_neg (by simp [base.concrete]), base.lowered.contribution_eq, base.contribution_eq,
      lowered_lowered]
  · simp [variant] at listed

/-- The entries of a table expand to what the table expands to, by induction over the rows. -/
theorem expandTable_entries (rows : List Row) : expandTable (entries rows) = expandTable rows := by
  induction rows with
  | nil => rfl
  | cons row rows ih =>
      rw [entries_cons, expandTable_cons, ← ih]
      cases variant : row.isVariant with
      | true => simp [Row.contribution_of_isVariant variant]
      | false => simp [expandTable_cons, Row.contribution_entry variant]

theorem entries_append (rows others : List Row)
    : entries (rows ++ others) = entries rows ++ entries others := by
  simp [entries]

/-- What a row turns into has the entry of the row, if it is not dropped. -/
theorem entries_contribution (row : Row)
    : entries row.contribution = if row.isVariant then [] else [row.entry] := by
  rcases row.kind_cases with wild | base | variant
  · simp [Row.contribution_of_isWildcard wild, Row.isVariant_of_isWildcard wild, entries]
  · have forms : row.lowered.variants.filter (!·.isVariant) = [] := by
      refine List.filter_eq_nil_iff.mpr ?_
      intro form member
      obtain ⟨mode, _, rfl⟩ := List.mem_map.mp member
      simp [base.lowered.derive_isVariant mode]
    have entry : row.lowered.entry = row.entry := by
      rw [Row.entry, Row.entry, base.lowered.concrete, base.concrete]
      exact Row.lowered_lowered row
    simp [base.contribution_eq, base.isVariant_eq, entries, base.lowered.isVariant_eq, forms, entry]
  · simp [Row.contribution_of_isVariant variant, variant, entries]

/-- An expanded table has the entries of the table, by induction over the rows. -/
theorem entries_expandTable (rows : List Row) : entries (expandTable rows) = entries rows := by
  induction rows with
  | nil => rfl
  | cons row rows ih =>
      rw [expandTable_cons, entries_append, ih, entries_contribution, entries_cons]

theorem expandTable_eq_of_entries_eq {rows others : List Row} (same : entries rows = entries others)
    : expandTable rows = expandTable others := by
  rw [← expandTable_entries rows, same, expandTable_entries]

theorem entries_ascend (order : RowOrder) (rows : List Row)
    : entries (order.ascend rows) = order.ascend (entries rows) := by
  cases order with
  | displayed => simp [RowOrder.ascend, entries]
  | ascending => rfl

/-- A table that is expanded before its order is changed expands to the same rows. -/
theorem expandTable_ascend_expandTable (order : RowOrder) (rows : List Row)
    : expandTable (order.ascend (expandTable rows)) = expandTable (order.ascend rows) := by
  apply expandTable_eq_of_entries_eq
  rw [entries_ascend, entries_expandTable, ← entries_ascend]

/-- An instruction with another name in the same lowercase letters is a form if it was one, and it is
the same entry.
-/
theorem entries_rename {row : Row} {name : Text} (concrete : row.isWildcard = false)
    (same : Text.lower name = Text.lower row.name) (rows : List Row)
    : entries ({ row with name } :: rows) = entries (row :: rows) := by
  have field : Row.isWildcard { row with name } = false := concrete
  have form : Row.isVariant { row with name } = row.isVariant := by
    simp only [Row.isVariant, Row.isWildcard, Row.modeBits, Mode.ofName?, same]
  have entry : Row.entry { row with name } = row.entry := by
    simp [Row.entry, field, concrete, Row.lowered, same]
  rw [entries_cons, entries_cons, form, entry]

--------------------------------------------------------------------------------
-- Lines with the same entries
--------------------------------------------------------------------------------

/-- Lines that come of others by putting in forms and by writing instructions in other letter cases.
Which form it is does not matter, nor where it stands; and the case of a letter is what is lost in
lowercase.
-/
inductive Elaborated : List Text → List Text → Prop
  | nil : Elaborated [] []
  | keep (line : Text) {lines others : List Text} (rest : Elaborated lines others)
    : Elaborated (line :: lines) (line :: others)
  | insert {line : Text} {row : Row} {lines others : List Text}
    (read : Row.parse none line = .ok row) (variant : row.isVariant)
    (rest : Elaborated lines others)
    : Elaborated lines (line :: others)
  | rename {line other name : Text} {row : Row} {lines others : List Text}
    (read : Row.parse none line = .ok row) (concrete : row.isWildcard = false)
    (same : Text.lower name = Text.lower row.name)
    (renamed : Row.parse none other = .ok { row with name })
    (rest : Elaborated lines others)
    : Elaborated (line :: lines) (other :: others)

/-- Lines that are elaborated are read as rows with the same entries, by induction over the changes.
The numbers of the lines differ by the forms that have been put in.
-/
theorem Elaborated.exists_rowsFrom {lines others : List Text} (elaborated : Elaborated lines others)
    {source : Text} {number later : Nat} {rows : List Row}
    (read : RuleTable.rowsFrom source number lines = .ok rows)
    : ∃ found,
        RuleTable.rowsFrom source later others = .ok found ∧ entries found = entries rows := by
  induction elaborated generalizing number later rows with
  | nil =>
      cases read
      exact ⟨[], rfl, rfl⟩
  | keep line _ ih =>
      rcases RuleTable.rowsFrom_cons_eq_ok_iff.mp read with
        ⟨blank, rest⟩ | ⟨row, others, parsed, rest, rfl⟩
      · obtain ⟨found, foundRead, same⟩ := ih rest
        exact ⟨found, RuleTable.rowsFrom_cons_eq_ok_iff.mpr (Or.inl ⟨blank, foundRead⟩), same⟩
      · obtain ⟨found, foundRead, same⟩ := ih rest
        refine ⟨row :: found, ?_, ?_⟩
        · exact RuleTable.rowsFrom_cons_eq_ok_iff.mpr (Or.inr ⟨row, found, parsed, foundRead, rfl⟩)
        · rw [entries_cons, entries_cons, same]
  | @insert line row _ _ parsed variant _ ih =>
      obtain ⟨found, foundRead, same⟩ := ih read
      refine ⟨row :: found, ?_, ?_⟩
      · exact RuleTable.rowsFrom_cons_eq_ok_iff.mpr (Or.inr ⟨row, found, parsed, foundRead, rfl⟩)
      · simpa [entries_cons, variant] using same
  | @rename line other name row _ _ parsed concrete sameName renamed _ ih =>
      rcases RuleTable.rowsFrom_cons_eq_ok_iff.mp read with
        ⟨blank, _⟩ | ⟨first, others, again, rest, rfl⟩
      · exact absurd blank (Row.trim_ne_nil_of_parse parsed)
      · obtain rfl := Except.ok.inj (parsed.symm.trans again)
        obtain ⟨found, foundRead, same⟩ := ih rest
        refine ⟨{ row with name } :: found, ?_, ?_⟩
        · exact RuleTable.rowsFrom_cons_eq_ok_iff.mpr (Or.inr ⟨_, found, renamed, foundRead, rfl⟩)
        · rw [entries_rename concrete sameName, entries_cons, entries_cons, same]

theorem Elaborated.exists_parse {text other : Text}
    (elaborated : Elaborated (Text.lines text) (Text.lines other)) {source : Text} {order : RowOrder}
    {rows : List Row} (read : RuleTable.parse source order text = .ok rows)
    : ∃ found, RuleTable.parse source order other = .ok found ∧ entries found = entries rows := by
  obtain ⟨listed, listedRead, rfl⟩ := map_eq_ok_iff.mp read
  obtain ⟨found, foundRead, same⟩ := elaborated.exists_rowsFrom listedRead
  refine ⟨order.ascend found, map_eq_ok_iff.mpr ⟨found, foundRead, rfl⟩, ?_⟩
  rw [entries_ascend, entries_ascend, same]

/-- Rows with the same entries expand to the same table; so both written tables and the outcome of
the search for a collision are the same. A table that can be read has the same outcome of its
compilation as any table that is elaborated from it.
-/
theorem compile_told_by_entries
    : (∀ rows others,
        entries rows = entries others
        → expandTable rows = expandTable others
          ∧ RuleTable.render (expandTable rows) = RuleTable.render (expandTable others)
          ∧ AssemblyTable.render (expandTable rows) = AssemblyTable.render (expandTable others)
          ∧ Collision.find? (expandTable rows) = Collision.find? (expandTable others))
      ∧ ∀ source order text other,
          (∃ rows, RuleTable.parse source order text = .ok rows)
          → Elaborated (Text.lines text) (Text.lines other)
          → ∀ check,
              (compile check source order other).outcome
                = (compile check source order text).outcome := by
  constructor
  · intro rows others same
    have expanded := expandTable_eq_of_entries_eq same
    exact ⟨expanded, by rw [expanded], by rw [expanded], by rw [expanded]⟩
  · intro source order text other ⟨rows, read⟩ elaborated check
    obtain ⟨found, foundRead, same⟩ := elaborated.exists_parse read
    rw [compile_outcome, compile_outcome, read, foundRead]
    simp only [expandTable_eq_of_entries_eq same]

/-- A table of two instructions with a field between them. -/
def shortTable : Text :=
  "0000000057add\n\n2222222201Σ\n0000010047pop".toList

/-- The short table with a form in front of its base row, one whose name does not agree with its
bits, one that no policy allows and one without a base row, and with both instructions in other
letters.
-/
def elaborateTable : Text :=
  ("1000000057ADDi1\r\n0000000057aDd\n\n0100000011Addi12\x0B2222222201Σ\n"
    ++ "1100010047popi12\n0000010047POP\n1011111100").toList

theorem elaborateTable_elaborated
    : Elaborated (Text.lines shortTable) (Text.lines elaborateTable) := by
  have short : Text.lines shortTable
      = ["0000000057add", "", "2222222201Σ", "0000010047pop"].map String.toList := by
    decide +kernel
  have elaborate : Text.lines elaborateTable
      = ["1000000057ADDi1", "0000000057aDd", "", "0100000011Addi12", "2222222201Σ",
          "1100010047popi12", "0000010047POP", "1011111100"].map String.toList := by
    decide +kernel
  have agreeing : Row.parse none "1000000057ADDi1".toList
      = .ok ⟨"10000000".toList, 5, 7, "ADDi1".toList⟩ := rfl
  have add : Row.parse none "0000000057add".toList
      = .ok ⟨"00000000".toList, 5, 7, "add".toList⟩ := rfl
  have addAgain : Row.parse none "0000000057aDd".toList
      = .ok ⟨"00000000".toList, 5, 7, "aDd".toList⟩ := rfl
  have disagreeing : Row.parse none "0100000011Addi12".toList
      = .ok ⟨"01000000".toList, 1, 1, "Addi12".toList⟩ := rfl
  have forbidden : Row.parse none "1100010047popi12".toList
      = .ok ⟨"11000100".toList, 4, 7, "popi12".toList⟩ := rfl
  have pop : Row.parse none "0000010047pop".toList
      = .ok ⟨"00000100".toList, 4, 7, "pop".toList⟩ := rfl
  have popAgain : Row.parse none "0000010047POP".toList
      = .ok ⟨"00000100".toList, 4, 7, "POP".toList⟩ := rfl
  have alone : Row.parse none "1011111100".toList
      = .ok ⟨"10111111".toList, 0, 0, []⟩ := rfl
  rw [short, elaborate]
  refine .insert agreeing (by decide +kernel) ?_
  refine .rename add rfl (by decide +kernel) addAgain (.keep _ ?_)
  refine .insert disagreeing (by decide +kernel) (.keep _ ?_)
  refine .insert forbidden (by decide +kernel) ?_
  refine .rename pop rfl (by decide +kernel) popAgain ?_
  exact .insert alone (by decide +kernel) .nil

theorem compile_told_by_entries_short
    : (∃ rows, RuleTable.parse [] .displayed shortTable = .ok rows)
      ∧ Elaborated (Text.lines shortTable) (Text.lines elaborateTable)
      ∧ (compile true [] .displayed elaborateTable).outcome
        = (compile true [] .displayed shortTable).outcome := by
  have read : ∃ rows, RuleTable.parse [] .displayed shortTable = .ok rows := ⟨_, rfl⟩
  have same := compile_told_by_entries.2 [] .displayed _ _ read elaborateTable_elaborated true
  exact ⟨read, elaborateTable_elaborated, same⟩

end OpcodeTables
