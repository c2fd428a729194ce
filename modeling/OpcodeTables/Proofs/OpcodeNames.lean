import Mathlib.Data.List.Nodup
import OpcodeTables.Proofs.TableShape

/-! The names of the opcodes in an expanded table. No name that expansion makes is the name of
another opcode by accident: the tag at its end tells the mode, and what stands before the tag is the
name of the base row.
-/

namespace OpcodeTables

--------------------------------------------------------------------------------
-- The names of one instruction
--------------------------------------------------------------------------------

/-- The name of an instruction, and behind it the names of the forms that its policy allows. -/
def familyNames (name : Text) : List Text :=
  name :: (Policy.ofName name).modes.map fun mode => name ++ mode.tag

/-- A name without the tag at its end. -/
def stem (name : Text) : Text :=
  match Mode.ofName? name with
  | some mode => name.take (name.length - mode.tag.length)
  | none => name

theorem stem_append_tag (name : Text) (mode : Mode) : stem (name ++ mode.tag) = name := by
  simp [stem, Mode.ofName?_append_tag]

/-- Every name of an instruction leads back to the one without a tag. -/
theorem stem_of_mem_familyNames {name member : Text} (untagged : Mode.ofName? name = none)
    (inside : member ∈ familyNames name)
    : stem member = name := by
  rcases List.mem_cons.mp inside with rfl | form
  · simp [stem, untagged]
  · obtain ⟨mode, _, rfl⟩ := List.mem_map.mp form
    exact stem_append_tag name mode

/-- The names of one instruction differ, since each of them tells its own mode. -/
theorem familyNames_nodup {name : Text} (untagged : Mode.ofName? name = none)
    : (familyNames name).Nodup := by
  refine List.nodup_cons.mpr ⟨?_, ?_⟩
  · intro form
    obtain ⟨mode, _, same⟩ := List.mem_map.mp form
    have tagged := Mode.ofName?_append_tag name mode
    rw [same, untagged] at tagged
    cases tagged
  · refine (Row.nodup_modes _).map ?_
    intro mode other same
    have told := congrArg Mode.ofName? same
    simpa only [Mode.ofName?_append_tag, Option.some.injEq] using told

/-- Two instructions have no name in common exactly if their names without a tag differ. -/
theorem familyNames_disjoint_iff {name other : Text} (untagged : Mode.ofName? name = none)
    (otherUntagged : Mode.ofName? other = none)
    : (familyNames name).Disjoint (familyNames other) ↔ name ≠ other := by
  constructor
  · intro disjoint same
    have shared : name ∈ familyNames name := List.mem_cons_self
    exact disjoint shared (same ▸ shared)
  · intro different member here there
    apply different
    calc name = stem member := (stem_of_mem_familyNames untagged here).symm
      _ = other := stem_of_mem_familyNames otherUntagged there

/-- The names of some instructions are pairwise distinct exactly if those without a tag are. -/
theorem flatMap_familyNames_nodup_iff {names : List Text}
    (untagged : ∀ name ∈ names, Mode.ofName? name = none)
    : (names.flatMap familyNames).Nodup ↔ names.Nodup := by
  rw [List.nodup_flatMap, and_iff_right fun name member => familyNames_nodup (untagged name member)]
  refine List.Pairwise.iff_of_mem ?_
  intro name other member otherMember
  exact familyNames_disjoint_iff (untagged name member) (untagged other otherMember)

--------------------------------------------------------------------------------
-- The names of an expanded table
--------------------------------------------------------------------------------

/-- The opcodes that a kept row brings into an expanded table: the row in lowercase letters and the
forms that its policy allows.
-/
inductive Row.Yields (base : Row) : Row → Prop
  | plain (kept : base.Kept) : base.Yields base.lowered
  | form (kept : base.Kept) {mode} (allowed : mode ∈ (Policy.ofName base.lowered.name).modes)
    : base.Yields (base.lowered.derive mode)

theorem Row.Yields.kept {base opcode : Row} (yields : base.Yields opcode) : base.Kept := by
  cases yields with
  | plain kept => exact kept
  | form kept _ => exact kept

theorem Row.mem_expand_iff {base opcode : Row} (kept : base.Kept)
    : opcode ∈ base.expand ↔ base.Yields opcode := by
  rw [(Row.kept_iff_base.mp kept).expand_eq, List.mem_cons, Row.variants, List.mem_map]
  constructor
  · rintro (rfl | ⟨mode, allowed, rfl⟩)
    · exact .plain kept
    · exact .form kept allowed
  · intro yields
    cases yields with
    | plain => exact Or.inl rfl
    | form _ allowed => exact Or.inr ⟨_, allowed, rfl⟩

/-- The opcodes of an expanded table are those that its rows yield. -/
theorem opcode_listed_iff {rows : List Row} {opcode : Row}
    : opcode ∈ expandTable rows ∧ opcode.isWildcard = false
      ↔ ∃ base ∈ rows, base.Yields opcode := by
  have listed : opcode ∈ expandTable rows ∧ opcode.isWildcard = false
      ↔ opcode ∈ (rows.filter fun row => decide row.Kept).flatMap Row.expand := by
    rw [← filter_not_isWildcard]
    simp
  rw [listed, List.mem_flatMap]
  constructor
  · intro ⟨base, inside, found⟩
    obtain ⟨member, kept⟩ := List.mem_filter.mp inside
    exact ⟨base, member, (Row.mem_expand_iff (of_decide_eq_true kept)).mp found⟩
  · intro ⟨base, member, yields⟩
    have inside : base ∈ rows.filter fun row => decide row.Kept :=
      List.mem_filter.mpr ⟨member, decide_eq_true yields.kept⟩
    exact ⟨base, inside, (Row.mem_expand_iff yields.kept).mpr yields⟩

/-- The name of an opcode tells its first two bits and the name of its base row. -/
theorem Row.Yields.told_by_name {base opcode : Row} (yields : base.Yields opcode)
    : opcode.modeBits = (Mode.ofName? opcode.name).elim Row.plainBits Mode.bits
      ∧ Text.lower base.name = stem opcode.name := by
  cases yields with
  | plain kept =>
      have lowered := (Row.kept_iff_base.mp kept).lowered
      rw [stem, lowered.untagged, lowered.plain]
      exact ⟨rfl, rfl⟩
  | @form kept mode _ =>
      have tagged : Mode.ofName? (base.lowered.derive mode).name = some mode :=
        Mode.ofName?_append_tag base.lowered.name mode
      rw [tagged, Row.modeBits_derive]
      exact ⟨rfl, (stem_append_tag base.lowered.name mode).symm⟩

/-- The names of the opcodes are those of the instructions in lowercase letters, each of them with the
names of its forms behind it.
-/
theorem map_name_opcodes (rows : List Row)
    : ((expandTable rows).filter (!·.isWildcard)).map Row.name
      = ((rows.filter fun row => row.Kept).map fun row => Text.lower row.name).flatMap
          familyNames := by
  rw [filter_not_isWildcard, List.map_flatMap, List.flatMap_map]
  refine List.flatMap_congr ?_
  intro row member
  have base := Row.base_of_mem_filter member
  simp [base.expand_eq, familyNames, Row.variants, Row.lowered, Row.derive]

/-- The opcodes of an expanded table have pairwise distinct names exactly if the kept rows have
pairwise distinct names in lowercase letters. Each opcode is yielded by a kept row, and two opcodes
with the same name have the same first two bits and come from rows with the same lowercase name.
Witness: the tag of a name tells the mode, and what stands before it is the name of the base row.
-/
theorem opcode_names (rows : List Row)
    : ((((expandTable rows).filter (!·.isWildcard)).map Row.name).Nodup
        ↔ ((rows.filter fun row => row.Kept).map fun row => Text.lower row.name).Nodup)
      ∧ (∀ opcode,
          opcode ∈ expandTable rows ∧ opcode.isWildcard = false
            ↔ ∃ base ∈ rows, base.Yields opcode)
      ∧ ∀ base other first second : Row,
          base.Yields first
          → other.Yields second
          → first.name = second.name
          → first.modeBits = second.modeBits
            ∧ Text.lower base.name = Text.lower other.name := by
  refine ⟨?_, fun _ => opcode_listed_iff, ?_⟩
  · rw [map_name_opcodes]
    apply flatMap_familyNames_nodup_iff
    intro name member
    obtain ⟨row, inside, rfl⟩ := List.mem_map.mp member
    exact (Row.base_of_mem_filter inside).lowered.untagged
  · intro base other first second yields otherYields same
    obtain ⟨bits, name⟩ := yields.told_by_name
    obtain ⟨otherBits, otherName⟩ := otherYields.told_by_name
    rw [bits, name, otherBits, otherName, same]
    exact ⟨rfl, rfl⟩

/-- Two instructions whose names differ in their letter case only share the names of their forms. -/
theorem opcode_names_letter_case
    : let capital : Row := ⟨"00000001".toList, 5, 7, "I1X".toList⟩
      let small : Row := ⟨"00000010".toList, 0, 12, "i1x".toList⟩
      let first := capital.lowered.derive .both
      let second := small.lowered.derive .both
      capital.Yields first
      ∧ small.Yields second
      ∧ first.name = second.name
      ∧ first.modeBits = second.modeBits
      ∧ Text.lower capital.name = Text.lower small.name := by
  intro capital small first second
  have yields : capital.Yields first := by
    refine .form ⟨by decide, by decide, ?_⟩ (by decide +kernel)
    intro mode
    cases mode <;> decide +kernel
  have smallYields : small.Yields second := by
    refine .form ⟨by decide, by decide, ?_⟩ (by decide +kernel)
    intro mode
    cases mode <;> decide +kernel
  have same : first.name = second.name := by decide +kernel
  have told := (opcode_names [capital, small]).2.2 capital small first second
  exact ⟨yields, smallYields, same, told yields smallYields same⟩

end OpcodeTables
