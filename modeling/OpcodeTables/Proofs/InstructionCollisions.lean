import OpcodeTables.Proofs.CollisionSearch
import OpcodeTables.Proofs.ExpandedTables

/-! The opcodes of an expanded table collide exactly if two base rows have the same bits for
their instruction. The first two bits tell the forms of one instruction from each other, and
the other six tell the instructions apart; so the search ends at a base row and never at a
form.
-/

namespace OpcodeTables

--------------------------------------------------------------------------------
-- Forms of one instruction
--------------------------------------------------------------------------------

namespace Row

/-- Two rows that cannot both be base rows of one instruction. -/
def InstructionsApart (a b : Row) : Prop :=
  a.Base → b.Base → a.baseBits ≠ b.baseBits

theorem apart_of_modeBits_ne {a b : Row} (different : a.modeBits ≠ b.modeBits) : a.Apart b :=
  fun _ _ same => different (by rw [modeBits, modeBits, same])

theorem bits_injective {mode other : Mode} (same : mode.bits = other.bits) : mode = other := by
  cases mode <;> cases other <;> first | rfl | exact absurd same (by decide)

/-- No policy allows a mode twice. -/
theorem nodup_modes (policy : Policy) : policy.modes.Nodup := by
  cases policy <;> decide

/-- What one row turns into does not collide with itself, because all the mode bits differ. -/
theorem contribution_apart (row : Row) : row.contribution.Pairwise Apart := by
  rcases row.kind_cases with wild | base | variant
  · simp [contribution_of_isWildcard wild]
  · rw [base.contribution_eq, List.pairwise_cons]
    constructor
    · intro form member
      obtain ⟨mode, _, rfl⟩ := List.mem_map.mp member
      refine apart_of_modeBits_ne ?_
      rw [modeBits_derive, base.lowered.plain]
      exact (bits_ne_plainBits mode).symm
    · refine List.pairwise_map.mpr ((nodup_modes _).imp ?_)
      intro mode other different
      refine apart_of_modeBits_ne ?_
      rw [modeBits_derive, modeBits_derive]
      exact fun same => different (bits_injective same)
  · simp [contribution_of_isVariant variant]

/-- An opcode in an expanded table comes from a base row of the same instruction. -/
theorem base_of_mem_contribution {row next : Row} (member : next ∈ row.contribution)
    (concrete : next.isWildcard = false)
    : row.Base ∧ next.baseBits = row.baseBits := by
  rcases row.kind_cases with wild | base | variant
  · rw [contribution_of_isWildcard wild, List.mem_singleton] at member
    rw [member, wild] at concrete
    cases concrete
  · refine ⟨base, ?_⟩
    rw [base.contribution_eq, List.mem_cons] at member
    rcases member with rfl | form
    · rfl
    · obtain ⟨mode, _, rfl⟩ := List.mem_map.mp form
      exact baseBits_derive _ mode
  · simp [contribution_of_isVariant variant] at member

theorem Base.lowered_mem {row : Row} (base : row.Base) : row.lowered ∈ row.contribution := by
  simp [base.contribution_eq]

/-- What two rows turn into does not collide exactly if they are not base rows of one
instruction.
-/
theorem contributions_apart_iff {a b : Row}
    : (∀ x ∈ a.contribution, ∀ y ∈ b.contribution, x.Apart y) ↔ a.InstructionsApart b := by
  constructor
  · intro apart baseA baseB same
    refine apart _ baseA.lowered_mem _ baseB.lowered_mem baseA.lowered.concrete
      baseB.lowered.concrete ?_
    rw [baseA.lowered.bits_eq, baseB.lowered.bits_eq]
    exact congrArg (plainBits ++ ·) same
  · intro apart x memberX y memberY concreteX concreteY same
    obtain ⟨baseA, bitsA⟩ := base_of_mem_contribution memberX concreteX
    obtain ⟨baseB, bitsB⟩ := base_of_mem_contribution memberY concreteY
    refine apart baseA baseB ?_
    rw [← bitsA, ← bitsB, baseBits, baseBits, same]

end Row

/-- The rows of an expanded table are apart exactly if no two base rows are of one
instruction.
-/
theorem expandTable_apart_iff {rows : List Row}
    : (expandTable rows).Pairwise Row.Apart ↔ rows.Pairwise Row.InstructionsApart := by
  simp only [expandTable, List.pairwise_flatMap, Row.contributions_apart_iff, and_iff_right_iff_imp]
  exact fun _ row _ => row.contribution_apart

--------------------------------------------------------------------------------
-- The first clash
--------------------------------------------------------------------------------

/-- A row that is kept as an opcode: it has no wildcard, its first two bits are zeros, and in
lowercase letters its name ends with no tag.
-/
structure Row.Kept (row : Row) : Prop where
  concrete : Row.wildcard ∉ row.bits
  plain : row.bits.take 2 = ['0', '0']
  untagged : ∀ mode : Mode, ¬mode.tag <:+ Text.lower row.name

/-- A name has no mode exactly if no tag ends it. -/
theorem Mode.ofName?_eq_none_iff {name : Text}
    : Mode.ofName? name = none ↔ ∀ mode : Mode, ¬mode.tag <:+ Text.lower name := by
  simp only [Mode.ofName?, List.find?_eq_none, List.mem_cons, List.not_mem_nil, or_false,
    List.isSuffixOf_iff_suffix, forall_eq_or_imp, forall_eq]
  constructor
  · rintro ⟨both, first, second⟩ mode
    cases mode
    · exact first
    · exact second
    · exact both
  · exact fun clear => ⟨clear .both, clear .first, clear .second⟩

theorem Row.kept_iff_base {row : Row} : row.Kept ↔ row.Base := by
  constructor
  · intro kept
    exact ⟨isWildcard_eq_false_iff.mpr kept.concrete, kept.plain,
      Mode.ofName?_eq_none_iff.mpr kept.untagged⟩
  · intro base
    exact ⟨isWildcard_eq_false_iff.mp base.concrete, base.plain,
      Mode.ofName?_eq_none_iff.mp base.untagged⟩

/-- The rows at two positions, one before the other, are kept and have the same bits from the
third bit on.
-/
structure ClashAt (rows : List Row) (i j : Nat) (earlier later : Row) : Prop where
  before : i < j
  earlierAt : rows[i]? = some earlier
  laterAt : rows[j]? = some later
  earlierKept : earlier.Kept
  laterKept : later.Kept
  same : earlier.bits.drop 2 = later.bits.drop 2

/-- Base rows are all of different instructions exactly if no two positions clash. -/
theorem instructionsApart_iff {rows : List Row}
    : rows.Pairwise Row.InstructionsApart
      ↔ ∀ i j earlier later, ¬ClashAt rows i j earlier later := by
  rw [pairwise_iff_positions]
  constructor
  · intro apart i j earlier later clash
    exact apart i j earlier later clash.before clash.earlierAt clash.laterAt
      (Row.kept_iff_base.mp clash.earlierKept) (Row.kept_iff_base.mp clash.laterKept) clash.same
  · intro clear i j earlier later before earlierAt laterAt earlierBase laterBase same
    exact clear i j earlier later ⟨before, earlierAt, laterAt, Row.kept_iff_base.mpr earlierBase,
      Row.kept_iff_base.mpr laterBase, same⟩

/-- An expanded table has a collision exactly if two positions of the table clash. -/
theorem exists_find?_expandTable_iff {rows : List Row}
    : (∃ collision, Collision.find? (expandTable rows) = some collision)
      ↔ ∃ i j earlier later, ClashAt rows i j earlier later := by
  have none_iff : Collision.find? (expandTable rows) = none
      ↔ ∀ i j earlier later, ¬ClashAt rows i j earlier later :=
    Collision.find?_eq_none_iff.trans (expandTable_apart_iff.trans instructionsApart_iff)
  rw [← Option.isSome_iff_exists, Option.isSome_iff_ne_none, Ne, none_iff]
  simp only [not_forall, not_not]

/-- The rows before the first clash do not clash. -/
theorem take_instructionsApart {rows : List Row} {j : Nat}
    (least : ∀ k l earlier later, ClashAt rows k l earlier later → j ≤ l)
    : (rows.take j).Pairwise Row.InstructionsApart := by
  refine pairwise_take ?_
  intro k l earlier later before inside earlierAt laterAt earlierBase laterBase same
  have far := least k l earlier later ⟨before, earlierAt, laterAt,
    Row.kept_iff_base.mpr earlierBase, Row.kept_iff_base.mpr laterBase, same⟩
  omega

/-- The collision in an expanded table is that of the first row that clashes with an earlier
one. Witness: up to that row nothing is found, and the row itself is the first opcode that it
turns into.
-/
theorem find?_expandTable_of_clash {rows : List Row} {i j : Nat} {earlier later : Row}
    (clash : ClashAt rows i j earlier later)
    (least : ∀ k l a b, ClashAt rows k l a b → j ≤ l)
    : Collision.find? (expandTable rows)
      = some ⟨Text.lower earlier.name, Text.lower later.name, later.bits⟩ := by
  -- Nothing clashes in front of the later row, so the search reaches it with all these rows seen.
  have apart := expandTable_apart_iff.mpr (take_instructionsApart least)
  have earlierBase := Row.kept_iff_base.mp clash.earlierKept
  have laterBase := Row.kept_iff_base.mp clash.laterKept
  have split : expandTable rows
      = expandTable (rows.take j)
        ++ later.lowered :: (later.lowered.variants ++ expandTable (rows.drop (j + 1))) := by
    conv => lhs; rw [cut_at_position clash.laterAt]
    simp [expandTable, laterBase.contribution_eq]
  have member : earlier.lowered ∈ expandTable (rows.take j) :=
    List.mem_flatMap.mpr
      ⟨earlier, mem_take_of_position clash.before clash.earlierAt, earlierBase.lowered_mem⟩
  rw [split]
  refine Collision.find?_append_cons apart member earlierBase.lowered.concrete
    laterBase.lowered.concrete ?_ _
  rw [earlierBase.lowered.bits_eq, laterBase.lowered.bits_eq]
  exact congrArg (Row.plainBits ++ ·) clash.same

/-- An expanded table has a collision exactly if two positions of the table clash. For the least
later position, the collision names its row after the earlier one, both in lowercase letters, and
shows the bits of the base row, which start with two zeros as those of no form do.
-/
theorem find?_expandTable (rows : List Row)
    : ((∃ collision, Collision.find? (expandTable rows) = some collision)
        ↔ ∃ i j earlier later, ClashAt rows i j earlier later)
      ∧ ∀ i j earlier later,
          ClashAt rows i j earlier later
          → (∀ k l a b, ClashAt rows k l a b → j ≤ l)
          → Collision.find? (expandTable rows)
              = some ⟨Text.lower earlier.name, Text.lower later.name, later.bits⟩
            ∧ ['0', '0'] <+: later.bits
            ∧ ∀ mode row, (Row.derive row mode).bits ≠ later.bits := by
  constructor
  · exact exists_find?_expandTable_iff
  · intro i j earlier later clash least
    refine ⟨find?_expandTable_of_clash clash least, ?_, ?_⟩
    · rw [← clash.laterKept.plain]
      exact List.take_prefix 2 later.bits
    · intro mode row same
      have derived := Row.modeBits_derive row mode
      rw [Row.modeBits, same, clash.laterKept.plain] at derived
      exact Row.bits_ne_plainBits mode derived.symm

/-- Two rows of one instruction clash, and the collision names them in lowercase letters. -/
theorem find?_expandTable_two_rows
    : let earlier : Row := ⟨"00000001".toList, 5, 7, "AI1x".toList⟩
      let later : Row := ⟨"00000001".toList, 0, 12, "b".toList⟩
      ClashAt [earlier, later] 0 1 earlier later
      ∧ Collision.find? (expandTable [earlier, later])
        = some ⟨"ai1x".toList, "b".toList, "00000001".toList⟩ := by
  intro earlier later
  have kept : earlier.Kept ∧ later.Kept := by
    refine ⟨⟨by decide, by decide, ?_⟩, ⟨by decide, by decide, ?_⟩⟩ <;>
      · intro mode
        cases mode <;> decide +kernel
  have clash : ClashAt [earlier, later] 0 1 earlier later :=
    ⟨Nat.zero_lt_one, rfl, rfl, kept.1, kept.2, rfl⟩
  have found := (find?_expandTable [earlier, later]).2 0 1 earlier later clash
    (fun _ _ _ _ other => Nat.lt_of_le_of_lt (Nat.zero_le _) other.before)
  have lowered : Text.lower earlier.name = "ai1x".toList
      ∧ Text.lower later.name = "b".toList := by
    decide +kernel
  rw [lowered.1, lowered.2] at found
  exact ⟨clash, found.1⟩

end OpcodeTables
