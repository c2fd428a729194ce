import Mathlib.Data.List.SplitBy
import OpcodeTables.Proofs.CompilationOutcome
import OpcodeTables.Proofs.FirstRefusals
import OpcodeTables.Proofs.TableEntries

/-! Tables in the displayed order. Reading a table in the other order reverses the groups of the
expanded table, but not the rows of a group: a base row still stands in front of its forms. So a rule
table that is compiled twice in the displayed order comes back.
-/

namespace OpcodeTables

--------------------------------------------------------------------------------
-- Groups
--------------------------------------------------------------------------------

/-- A field alone, or a base row with the forms that its policy allows. -/
inductive IsGroup : List Row → Prop
  | field {row} (wild : row.isWildcard) : IsGroup [row]
  | instruction {base} (kept : base.Base) : IsGroup (base :: base.variants)

/-- Cuts a table in front of each row that is no form. -/
def groups (table : List Row) : List (List Row) :=
  table.splitBy fun _ next => next.isForm

theorem Grouped.isForm_head {table : List Row} (grouped : Grouped table)
    : ∀ row ∈ table.head?, row.isForm = false := by
  intro row first
  cases grouped with
  | nil => cases first
  | field wild _ =>
      obtain rfl := Option.some.inj first
      simp [Row.isForm, wild]
  | instruction kept _ =>
      obtain rfl := Option.some.inj first
      exact Row.isForm_eq_false_of_isPlain kept.isPlain

/-- What a row turns into is a group, if it is not dropped. -/
theorem isGroup_contribution {row : Row} (listed : row.contribution ≠ [])
    : IsGroup row.contribution := by
  rcases row.kind_cases with wild | base | variant
  · rw [Row.contribution_of_isWildcard wild]
    exact .field wild
  · rw [base.contribution_eq]
    exact .instruction base.lowered
  · exact absurd (Row.contribution_of_isVariant variant) listed

/-- A group is not cut, because all its rows behind the first are forms. -/
theorem IsGroup.groups_eq {group : List Row} (isGroup : IsGroup group) : groups group = [group] := by
  cases isGroup with
  | field wild => exact List.splitBy_of_isChain (by simp) (by simp)
  | @instruction base kept =>
      refine List.splitBy_of_isChain (by simp) (List.Pairwise.isChain ?_)
      have forms : ∀ form ∈ base.variants, form.isForm := fun _ => kept.isForm_of_mem_variants
      refine List.pairwise_cons.mpr ⟨forms, ?_⟩
      exact List.pairwise_of_forall_mem_list fun _ _ form member => forms form member

/-- The groups of an expanded table are what the rows turn into, without those that are dropped. By
induction over the rows: the table behind a group starts with no form.
-/
theorem groups_expandTable (rows : List Row)
    : groups (expandTable rows) = (rows.map Row.contribution).filter (· ≠ []) := by
  induction rows with
  | nil => rfl
  | cons row rows ih =>
      rw [expandTable_cons, List.map_cons]
      by_cases dropped : row.contribution = []
      · rw [dropped, List.nil_append, ih]
        rfl
      · have apart := (expandTable_grouped rows).isForm_head
        have cut : groups (row.contribution ++ expandTable rows)
            = groups row.contribution ++ groups (expandTable rows) :=
          List.splitBy_append fun _ _ next member => apart next member
        rw [cut, (isGroup_contribution dropped).groups_eq, ih]
        simp [dropped]

/-- Rows in reverse expand to the groups in reverse. -/
theorem expandTable_reverse (rows : List Row)
    : expandTable rows.reverse = (groups (expandTable rows)).reverse.flatten := by
  rw [groups_expandTable, ← List.filter_reverse, List.flatten_filter_ne_nil, ← List.map_reverse]
  rfl

theorem isGroup_of_mem_groups {rows group : List Row} (member : group ∈ groups (expandTable rows))
    : IsGroup group := by
  rw [groups_expandTable] at member
  obtain ⟨inside, nonempty⟩ := List.mem_filter.mp member
  obtain ⟨row, _, rfl⟩ := List.mem_map.mp inside
  exact isGroup_contribution (of_decide_eq_true nonempty)

--------------------------------------------------------------------------------
-- Compiled tables
--------------------------------------------------------------------------------

/-- Whether two rows of a table clash does not depend on the order of the rows. -/
theorem find?_expandTable_ascend (order : RowOrder) (rows : List Row)
    : Collision.find? (expandTable (order.ascend rows)) = none
      ↔ Collision.find? (expandTable rows) = none := by
  cases order with
  | ascending => rfl
  | displayed =>
      simp only [Collision.find?_eq_none_iff, expandTable_apart_iff]
      refine List.pairwise_reverse.trans (List.Pairwise.iff ?_)
      intro row other
      constructor <;>
        exact fun apart base otherBase same => apart otherBase base same.symm

/-- The rule table of compiled tables is compiled in the displayed order as well, and compiling what
comes of it brings the tables back. Witness: dropping the forms and making them anew behind their base
rows keeps the entries of a table, and reversing these twice changes nothing.
-/
theorem compile_displayed_rules {check : Bool} {source text : Text} {order : RowOrder}
    {tables : Tables} (compiled : (compile check source order text).outcome = .ok tables)
    (name again : Text)
    : ∃ reversed,
        (compile check name .displayed tables.rules).outcome = .ok reversed
        ∧ reversed.rows = (groups tables.rows).reverse.flatten
        ∧ (compile check again .displayed reversed.rules).outcome = .ok tables := by
  obtain ⟨rows, _, lasting, made⟩ := compile_eq_ok compiled
  obtain ⟨rowsEq, rulesEq, _⟩ := checkedTables_eq_ok made
  have expanded := expandTable_lasting lasting
  have reversedLasting : ∀ row ∈ rows.reverse, row.Lasting := fun row member =>
    lasting row (List.mem_reverse.mp member)
  have turned : expandTable (RowOrder.displayed.ascend (expandTable rows))
      = expandTable rows.reverse := expandTable_ascend_expandTable .displayed rows
  have turnedBack : expandTable (RowOrder.displayed.ascend (expandTable rows.reverse))
      = expandTable rows := by
    rw [expandTable_ascend_expandTable, RowOrder.ascend, List.reverse_reverse]
  -- The check passes for the reversed rows as well, so only the writing could fail.
  obtain ⟨reversed, written⟩ := exists_ofRows_expandTable reversedLasting
  have clear (checked : check = true) : Collision.find? (expandTable rows.reverse) = none :=
    (find?_expandTable_ascend .displayed rows).mpr ((checkedTables_eq_ok_iff.mp made).1 checked)
  have reversedMade := checkedTables_eq_ok_iff.mpr ⟨clear, written⟩
  obtain ⟨reversedRows, reversedRules, _⟩ := checkedTables_eq_ok reversedMade
  refine ⟨reversed, ?_, ?_, ?_⟩
  · rw [rulesEq, compile_render expanded, turned, reversedMade]
  · rw [reversedRows, expandTable_reverse, rowsEq]
  · rw [reversedRules, compile_render (expandTable_lasting reversedLasting), turnedBack, made]

/-- Reading a text in the displayed order gives the groups of its expanded table in reverse, and the
rows of each group as they are. So the rule table of compiled tables, which lists their groups, can be
compiled in the displayed order, and the rule table that comes of it gives the same tables again.
-/
theorem displayed_reverses_groups
    : (∀ source text rows,
        RuleTable.parse source .ascending text = .ok rows
        → ∃ shown,
            RuleTable.parse source .displayed text = .ok shown
            ∧ (∀ group ∈ groups (expandTable rows), IsGroup group)
            ∧ (groups (expandTable rows)).flatten = expandTable rows
            ∧ (groups (expandTable rows)).reverse.flatten = expandTable shown)
      ∧ ∀ check source order text tables,
          (compile check source order text).outcome = .ok tables
          → ∀ name again,
              ∃ reversed,
                (compile check name .displayed tables.rules).outcome = .ok reversed
                ∧ reversed.rows = (groups tables.rows).reverse.flatten
                ∧ (compile check again .displayed reversed.rules).outcome = .ok tables := by
  constructor
  · intro source text rows read
    refine ⟨rows.reverse, ?_, ?_, List.flatten_splitBy _ _, (expandTable_reverse rows).symm⟩
    · rw [RuleTable.parse_displayed, read]
      rfl
    · exact fun _ => isGroup_of_mem_groups
  · exact fun _ _ _ _ _ compiled => compile_displayed_rules compiled

/-- The rows of the mixed table make two groups, of which one is the field. -/
theorem displayed_reverses_groups_mixed
    : ∃ rows shown tables reversed,
        RuleTable.parse [] .ascending mixedTable = .ok rows
        ∧ RuleTable.parse [] .displayed mixedTable = .ok shown
        ∧ (groups (expandTable rows)).map List.length = [1, 4]
        ∧ (groups (expandTable rows)).reverse.flatten = expandTable shown
        ∧ (compile true [] .displayed mixedTable).outcome = .ok tables
        ∧ (compile true [] .displayed tables.rules).outcome = .ok reversed
        ∧ (compile true [] .displayed reversed.rules).outcome = .ok tables := by
  obtain ⟨rows, read⟩ : ∃ rows, RuleTable.parse [] .ascending mixedTable = .ok rows := ⟨_, rfl⟩
  obtain ⟨tables, compiled, _⟩ := compile_mixedTable
  obtain ⟨byGroups, twice⟩ := displayed_reverses_groups
  obtain ⟨shown, shownRead, _, _, turned⟩ := byGroups [] mixedTable rows read
  obtain ⟨reversed, first, _, second⟩ := twice true [] .displayed mixedTable tables compiled [] []
  have lengths : (RuleTable.parse [] .ascending mixedTable).toOption.map
      (fun rows => (groups (expandTable rows)).map List.length) = some [1, 4] := by
    decide +kernel
  rw [read] at lengths
  exact ⟨rows, shown, tables, reversed, read, shownRead, Option.some.inj lengths, turned, compiled,
    first, second⟩

end OpcodeTables
