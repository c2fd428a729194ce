import OpcodeTables.Proofs.TornWrites

/-! What a write leaves behind that ends well. The assembly table is found at its path, and so is the
rule table, unless both paths lead to one file; then the assembly table has taken the place of the
rule table, and nothing tells that it is gone.
-/

namespace OpcodeTables

open FileTree

/-- Straight delivery of both tables ends well if both paths receive their files. -/
theorem deliver_deliveries_ok {settings : Settings} {tags : Tags} {tables : Tables}
    {made : FileTree} (done : (made.deliver (settings.deliveries tags tables)).2 = true)
    : ∃ goal other,
        made.receives? settings.rulesPath.toText = some goal
        ∧ made.receives? settings.assemblyPath.toText = some other
        ∧ (made.deliver (settings.deliveries tags tables)).1
          = (made.insert goal (.file (Utf8.encode tables.rules))).insert other
              (.file (Utf8.encode tables.assembly)) := by
  rw [deliver_deliveries] at done ⊢
  cases rules : made.receives? settings.rulesPath.toText with
  | none => simp [rules] at done
  | some goal =>
      cases assembly : made.receives? settings.assemblyPath.toText with
      | none => simp [rules, assembly] at done
      | some other => exact ⟨goal, other, rfl, rfl, rfl⟩

/-- Of two files that are put one after the other, each is found at its place, but the second one
alone if their places are the same.
-/
theorem node?_insert_insert {tree : FileTree} {goal other : Place} (first second : Bytes)
    (goalFree : tree.node? goal ≠ some .directory) (otherFree : tree.node? other ≠ some .directory)
    : let next := (tree.insert goal (.file first)).insert other (.file second)
      tree.SameDirectories next
      ∧ next.node? other = some (.file second)
      ∧ next.node? goal = some (.file (if goal = other then second else first)) := by
  have placed := sameDirectories_insert goalFree first
  have stillFree := (placed.directory other).not.mpr otherFree
  refine ⟨placed.trans (sameDirectories_insert stillFree second), ?_, ?_⟩
  · rw [node?_insert _ _ other (ne_root_of_free otherFree), if_pos rfl]
  · rw [node?_insert _ _ goal (ne_root_of_free otherFree)]
    split
    · rfl
    · rw [node?_insert _ _ goal (ne_root_of_free goalFree), if_pos rfl]

/-- A write that ends well leaves the assembly table at its path. At the path of the rule table it
leaves the rule table exactly if this path leads to another place; else the assembly table stands
there. What has been in the tree before makes no difference.
-/
theorem written_ok_reads {settings : Settings} {tags : Tags} (tables : Tables) {tree : FileTree}
    (normal : settings.directory.Normal) (fresh : tags.FreshFor settings)
    (ended : (written settings tags tables tree).1.outcome = .ok ())
    : let after := (written settings tags tables tree).2
      ∃ goal other,
        after.locate settings.rulesPath.toText = .ok goal
        ∧ after.locate settings.assemblyPath.toText = .ok other
        ∧ after.read settings.assemblyPath.toText = .ok (Utf8.encode tables.assembly)
        ∧ after.read settings.rulesPath.toText
          = .ok (Utf8.encode (if goal = other then tables.assembly else tables.rules)) := by
  intro after
  have names := fresh.deliveries normal tables
  rcases sameFiles_or_staged tree names with ⟨⟨error, failed⟩, _⟩ | ⟨made, full, prepared, staged⟩
  · rw [failed] at ended
    cases ended
  · obtain ⟨endsWell, left⟩ := written_of_staged names prepared staged
    obtain ⟨goal, other, rules, assembly, delivered⟩ := deliver_deliveries_ok (endsWell.mp ended)
    obtain ⟨rulesLocated, _, goalFree⟩ := receives?_eq_some_iff.mp rules
    obtain ⟨assemblyLocated, _, otherFree⟩ := receives?_eq_some_iff.mp assembly
    obtain ⟨directories, second, first⟩ := node?_insert_insert (Utf8.encode tables.rules)
      (Utf8.encode tables.assembly) goalFree otherFree
    rw [delivered] at left
    -- Removing the staging files leaves the directories, so both paths lead where they led before.
    have kept := directories.trans left.directories
    have rulesAfter := kept.locate_iff.mpr rulesLocated
    have assemblyAfter := kept.locate_iff.mpr assemblyLocated
    refine ⟨goal, other, rulesAfter, assemblyAfter, ?_, ?_⟩
    · exact read_of_locate assemblyAfter ((left.node other (by simp)).trans second)
    · rw [apply_ite Utf8.encode]
      exact read_of_locate rulesAfter ((left.node goal (by simp)).trans first)

/-- Settings with one name for both tables. -/
def mergingSettings : Settings where
  directory := .ofText []
  rulesName := "t".toList
  assemblyName := "t".toList
  checkCollisions := true

/-- A write of two small tables with one name for both, in an empty tree. -/
def mergedRun : Traced FileError Unit × FileTree :=
  written mergingSettings firstTags ⟨[], ['r'], ['a']⟩ (emptyIn [])

/-- With one name for both tables a write ends well, but the rule table is lost. -/
theorem written_ok_loses_rules
    : mergingSettings.directory.Normal
      ∧ firstTags.FreshFor mergingSettings
      ∧ mergedRun.1.outcome = .ok ()
      ∧ mergedRun.2.read mergingSettings.assemblyPath.toText = .ok (Utf8.encode ['a'])
      ∧ mergedRun.2.read mergingSettings.rulesPath.toText ≠ .ok (Utf8.encode ['r']) := by
  have normal : mergingSettings.directory.Normal := Path.ofText_normal []
  have fresh : firstTags.FreshFor mergingSettings := ⟨by decide, by decide, by decide, by decide⟩
  have ended : mergedRun.1.outcome = .ok () := rfl
  obtain ⟨goal, other, rules, assembly, assemblyRead, rulesRead⟩ :=
    written_ok_reads ⟨[], ['r'], ['a']⟩ normal fresh ended
  have samePath : mergingSettings.assemblyPath = mergingSettings.rulesPath := rfl
  rw [samePath, rules] at assembly
  obtain rfl : goal = other := Except.ok.inj assembly
  rw [if_pos rfl] at rulesRead
  refine ⟨normal, fresh, ended, assemblyRead, ?_⟩
  intro kept
  exact absurd (rulesRead.symm.trans kept) (by decide)

end OpcodeTables
