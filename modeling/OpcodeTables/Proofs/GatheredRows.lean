import OpcodeTables.Edit
import OpcodeTables.Proofs.AssemblyAgreement

/-! Rows that are gathered from lines and tables and worked on in any order. Whatever is derived from
them or expanded, every row can be read again from its written form, and every opcode has a value in
eight bits.
-/

namespace OpcodeTables

/-- The rows that a single operation makes, if need be of rows that are held. -/
inductive Makes (held : List Row) : List Row → Prop
  | line {location : Option Location} {line : Text} {row : Row}
    (read : Row.parse location line = .ok row)
    : Makes held [row]
  | table {source : Text} {order : RowOrder} {text : Text} {rows : List Row}
    (read : RuleTable.parse source order text = .ok rows)
    : Makes held rows
  | form {row : Row} (member : row ∈ held) (mode : Mode) : Makes held [row.derive mode]
  | expansion {row : Row} (member : row ∈ held) : Makes held row.expand
  | expandedTable {rows : List Row} (members : rows ⊆ held) : Makes held (expandTable rows)

/-- The rows that are held after some operations one after another. In between any of them can be
dropped, which includes bringing them into another order.
-/
inductive Gathered : List Row → Prop
  | nil : Gathered []
  | make {held made : List Row} (gathered : Gathered held) (makes : Makes held made)
    : Gathered (held ++ made)
  | drop {held kept : List Row} (gathered : Gathered held) (members : kept ⊆ held)
    : Gathered kept

/-- No operation makes a row that cannot be read again, if none is held. -/
theorem Makes.legible {held made : List Row} (makes : Makes held made)
    (legible : ∀ row ∈ held, row.Legible)
    : ∀ row ∈ made, row.Legible := by
  cases makes with
  | line read =>
      intro row member
      exact List.mem_singleton.mp member ▸ Row.parse_legible read
  | table read => exact fun row member => (RuleTable.parse_lasting read row member).legible
  | form member mode =>
      intro row new
      exact List.mem_singleton.mp new ▸ (legible _ member).derive mode
  | expansion member => exact (legible _ member).expand
  | expandedTable members => exact expandTable_legible fun row member => legible row (members member)

/-- All rows that are held can be read again, by induction over the operations. -/
theorem Gathered.legible {held : List Row} (gathered : Gathered held)
    : ∀ row ∈ held, row.Legible := by
  induction gathered with
  | nil => exact nofun
  | make _ makes ih => exact List.forall_mem_append.mpr ⟨ih, makes.legible ih⟩
  | drop _ members ih => exact fun row member => ih row (members member)

/-- What is made can take the place of what is held. -/
theorem Gathered.replace {held made : List Row} (gathered : Gathered held)
    (makes : Makes held made)
    : Gathered made :=
  .drop (.make gathered makes) (List.subset_append_right _ _)

namespace Edit

/-- An edit that makes its rows, instead of taking in one that is given. -/
def Making : Edit → Prop
  | .add _ => False
  | _ => True

theorem mem_of_rowAt {rows : List Row} {index : Nat} {row : Row}
    (found : rowAt rows index = .ok row)
    : row ∈ rows := by
  unfold rowAt at found
  split at found
  · next known =>
      cases found
      exact List.mem_of_getElem? known
  · cases found

theorem makes_of_readRows {source : Text} {order : RowOrder} {text : Text} {held rows : List Row}
    (done : ((readRows source order text).mapError EditError.row).outcome = .ok rows)
    : Makes held rows := by
  have read := mapError_eq_ok_iff.mp done
  unfold readRows at read
  split at read
  · cases read
  · next parsed =>
      cases read
      exact .table parsed

/-- An edit that makes its rows leads from gathered rows to gathered ones. -/
theorem apply_gathered {rows next : List Row} (gathered : Gathered rows) {edit : Edit}
    (making : edit.Making) (done : (edit.apply rows).outcome = .ok next)
    : Gathered next := by
  cases edit with
  | read source order text | readBack source order => exact gathered.replace (makes_of_readRows done)
  | addLine location line =>
      obtain ⟨row, read, rfl⟩ := map_eq_ok_iff.mp (mapError_eq_ok_iff.mp done)
      exact .make gathered (.line read)
  | add row => exact making.elim
  | remove index =>
      rw [apply, removeAt] at done
      split at done
      · cases done
        exact .drop gathered fun row => List.mem_of_mem_eraseIdx
      · cases done
  | derive index mode =>
      obtain ⟨row, found, rfl⟩ := map_eq_ok_iff.mp done
      exact .make gathered (.form (mem_of_rowAt found) mode)
  | expandRow index =>
      obtain ⟨row, found, rfl⟩ := map_eq_ok_iff.mp done
      refine .drop (.make gathered (.expansion (mem_of_rowAt found))) ?_
      intro other member
      simp only [List.mem_append] at member ⊢
      rcases member with (before | form) | after
      · exact Or.inl (List.mem_of_mem_take before)
      · exact Or.inr form
      · exact Or.inl (List.mem_of_mem_drop after)
  | expand =>
      cases done
      exact gathered.replace (.expandedTable (List.Subset.refl _))

theorem step_gathered {rows : List Row} (gathered : Gathered rows) {edit : Edit}
    (making : edit.Making)
    : Gathered (step rows edit) := by
  unfold step
  split
  · next done => exact apply_gathered gathered making done
  · exact gathered

/-- Edits that make their rows gather them, by induction over the edits. -/
theorem run_gathered {edits : List Edit} (making : ∀ edit ∈ edits, edit.Making)
    : Gathered (run edits) := by
  have from_ {rows : List Row} (gathered : Gathered rows) : Gathered (edits.foldl step rows) := by
    induction edits generalizing rows with
    | nil => exact gathered
    | cons edit edits ih =>
        rw [List.forall_mem_cons] at making
        exact ih making.2 (step_gathered gathered making.1)
  exact from_ .nil

end Edit

/-- Whatever operations rows are gathered with, each row has eight bits, two indices from zero to
nine, and a name without a blank at its end; so it is read from its written form. Only fields have
no opcode value, because of their wildcard, and all others have one in eight bits. The assembly
table of any rows that are held can be made.
-/
theorem gathered_wellFormed {held : List Row} (gathered : Gathered held)
    : (∀ row ∈ held,
        row.bits.length = 8
        ∧ (∀ c ∈ row.bits, c = '0' ∨ c = '1' ∨ c = '2')
        ∧ (0 ≤ row.nameStart ∧ row.nameStart ≤ 9)
        ∧ (0 ≤ row.nameEnd ∧ row.nameEnd ≤ 9)
        ∧ (∀ c ∈ row.name.getLast?, Text.isBlank c = false)
        ∧ (∀ location, Row.parse location row.render = .ok row)
        ∧ (∀ error,
            row.opcode = .error error
            ↔ row.isWildcard ∧ error = .wildcard row.name row.bits)
        ∧ (row.isWildcard = false
          → ∃ value, row.opcode = .ok value ∧ 0 ≤ value ∧ value ≤ 255))
      ∧ ∀ rows, rows ⊆ held → ∃ table, AssemblyTable.render rows = .ok table := by
  have legible := gathered.legible
  constructor
  · intro row member
    have framed := (legible row member).toFramed
    refine ⟨framed.width, ?_, framed.start, framed.finish, (legible row member).last, ?_, ?_, ?_⟩
    · exact fun c inside => Row.isBit_iff.mp (framed.bits c inside)
    · exact (legible row member).parse_render
    · exact fun error => framed.opcode_eq_error_iff
    · exact framed.exists_opcode_eq_ok
  · intro rows members
    exact ⟨_, AssemblyTable.render_eq_ok fun row member => (legible row (members member)).toFramed⟩

/-- Edits that turn a field into an opcode and give a name two tags. -/
def stackingEdits : List Edit := [
  .addLine none " 2200000157B\u2028Σ\t".toList,
  .derive 0 .both,
  .expandRow 1,
  .derive 1 .first,
  .remove 0
]

/-- The field is derived to an opcode, whose name gets its second tag after its expansion; both
opcodes can be read again and have a value.
-/
theorem gathered_wellFormed_stacking
    : Gathered (Edit.run stackingEdits)
      ∧ ⟨"10000001".toList, 5, 7, "b\u2028σi12i1".toList⟩ ∈ Edit.run stackingEdits
      ∧ Row.parse none "1000000157b\u2028σi12i1".toList
        = .ok ⟨"10000001".toList, 5, 7, "b\u2028σi12i1".toList⟩
      ∧ ∃ table, AssemblyTable.render (Edit.run stackingEdits) = .ok table := by
  have making : ∀ edit ∈ stackingEdits, edit.Making := by
    simp [stackingEdits, Edit.Making]
  have gathered := Edit.run_gathered making
  obtain ⟨each, tables⟩ := gathered_wellFormed gathered
  have member : ⟨"10000001".toList, 5, 7, "b\u2028σi12i1".toList⟩ ∈ Edit.run stackingEdits := by
    decide +kernel
  obtain ⟨_, _, _, _, _, read, _⟩ := each _ member
  exact ⟨gathered, member, read none, tables _ (List.Subset.refl _)⟩

end OpcodeTables
