import OpcodeTables.Mode
import OpcodeTables.Proofs.Text.Lowercase

/-! A mode can be told from what it puts on an instruction: from the tag behind its name, whatever
the name is, and from the first two bits of its opcode.
-/

namespace OpcodeTables.Mode

theorem tag_isLowered (mode : Mode) : ∀ c ∈ mode.tag, Text.IsLowered c := by
  have letter : Text.IsLowered 'i' := ⟨by decide, by decide, by decide +kernel⟩
  have one : Text.IsLowered '1' := ⟨by decide, by decide, by decide +kernel⟩
  have two : Text.IsLowered '2' := ⟨by decide, by decide, by decide +kernel⟩
  cases mode <;> simp [tag, letter, one, two]

/-- A text that ends with a tag ends with no other one. Read from their ends, the tags differ in
the first or in the second character.
-/
theorem tag_suffix_iff {start : Text} {mode other : Mode}
    : other.tag <:+ start ++ mode.tag ↔ other = mode := by
  rw [← List.reverse_prefix, List.reverse_append]
  cases mode <;> cases other <;> simp [tag]

/-- The mode of a name is the one whose tag ends it, and that is at most one. So it does not matter in
which order the modes are tried.
-/
theorem ofName?_eq_some_iff {name : Text} {mode : Mode}
    : ofName? name = some mode ↔ mode.tag <:+ Text.lower name := by
  constructor
  · intro found
    have ends := List.find?_some found
    simpa only [List.isSuffixOf_iff_suffix] using ends
  · intro ends
    obtain ⟨start, lowered⟩ := ends
    rw [ofName?, ← lowered]
    cases mode <;> simp [List.isSuffixOf_iff_suffix, tag_suffix_iff]

/-- At most one tag ends a text. -/
theorem eq_of_tag_suffix {text : Text} {mode other : Mode} (ends : mode.tag <:+ text)
    (otherEnds : other.tag <:+ text)
    : mode = other := by
  obtain ⟨start, rfl⟩ := ends
  exact (tag_suffix_iff.mp otherEnds).symm

/-- Any order in which all modes are tried finds the mode of a name. -/
theorem find?_tag_eq_ofName? {order : List Mode} (complete : ∀ mode, mode ∈ order) (name : Text)
    : order.find? (·.tag.isSuffixOf (Text.lower name)) = ofName? name := by
  ext mode
  rw [ofName?_eq_some_iff]
  constructor
  · intro found
    simpa only [List.isSuffixOf_iff_suffix] using List.find?_some found
  · intro ends
    have tried : (order.find? (·.tag.isSuffixOf (Text.lower name))).isSome :=
      List.find?_isSome.mpr ⟨mode, complete mode, List.isSuffixOf_iff_suffix.mpr ends⟩
    obtain ⟨other, found⟩ := Option.isSome_iff_exists.mp tried
    have otherEnds : other.tag <:+ Text.lower name := by
      simpa only [List.isSuffixOf_iff_suffix] using List.find?_some found
    rw [found, eq_of_tag_suffix ends otherEnds]

/-- A name and its lowercase form have the same mode. -/
theorem ofName?_lower (name : Text) : ofName? (Text.lower name) = ofName? name := by
  rw [ofName?, ofName?, Text.lower_lower]

/-- The tag that is appended to a name is the one that is found, whatever the name ends with
already.
-/
theorem ofName?_append_tag (name : Text) (mode : Mode) : ofName? (name ++ mode.tag) = some mode := by
  obtain ⟨start, lowered⟩ := Text.exists_lower_append mode.tag_isLowered name
  rw [ofName?_eq_some_iff, lowered]
  exact List.suffix_append start mode.tag

theorem ofBits?_bits (mode : Mode) : ofBits? mode.bits = some mode := by
  cases mode <;> rfl

end OpcodeTables.Mode
