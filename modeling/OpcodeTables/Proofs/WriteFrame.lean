import OpcodeTables.Proofs.Storage.PublicationFrame
import OpcodeTables.Proofs.TornWrites

/-! What a write leaves alone, however it ends. Wherever it stops, the files at the two targets are the
only ones that can differ, the directories on the ways to them are the only ones that can be new, and
nothing is left of a staging file.
-/

namespace OpcodeTables

open FileTree

/-- A write prepares its targets, and what it changes after that is delivered at them. -/
theorem written_delivered {settings : Settings} {tags : Tags} {tables : Tables} (tree : FileTree)
    (fresh : Fresh (settings.deliveries tags tables))
    : let deliveries := settings.deliveries tags tables
      let made := ((prepareAll deliveries).run tree).2
      Prepared deliveries tree made
      ∧ tree.SameFiles made
      ∧ Delivered deliveries made (written settings tags tables tree).2 := by
  refine ⟨prepareAll_prepared _ tree, prepareAll_sameFiles _ tree, ?_⟩
  rw [(written_eq settings tags tables tree).2]
  exact publish_delivered fresh tree

/-- However a write ends, it leaves no staging file. A file that has changed or come up is the one
that one of the targets leads to, with the content that was to be delivered there. All directories
are kept, and a new one is on the way to one of the targets.
-/
theorem written_confined {settings : Settings} {tags : Tags} (tables : Tables) (tree : FileTree)
    (normal : settings.directory.Normal) (fresh : tags.FreshFor settings)
    : let deliveries := settings.deliveries tags tables
      let after := (written settings tags tables tree).2
      (∀ delivery ∈ deliveries, ∀ place,
          place.head? = some (Publication.staging delivery).fileName
          → after.file? place = tree.file? place)
      ∧ (∀ place,
          after.file? place ≠ tree.file? place
          → ∃ delivery ∈ deliveries,
              after.locate delivery.target.toText = .ok place
              ∧ after.file? place = some delivery.content)
      ∧ (∀ place,
          tree.node? place = some .directory → after.node? place = some .directory)
      ∧ ∀ place,
          after.node? place = some .directory
          → tree.node? place = some .directory
            ∨ ∃ delivery ∈ deliveries, after.OnWay delivery.target place := by
  intro deliveries after
  have names : Fresh deliveries := fresh.deliveries normal tables
  obtain ⟨prepared, sameFiles, delivered⟩ := written_delivered tree names
  refine ⟨?_, ?_, ?_, ?_⟩
  · intro delivery member place named
    by_contra changed
    rw [← sameFiles place] at changed
    obtain ⟨other, known, received, _⟩ := delivered.changed place changed
    have targetName := receives?_head_eq (names.normal other known) received
    rw [named] at targetName
    exact names.apart delivery member other known (Option.some.inj targetName)
  · intro place changed
    rw [← sameFiles place] at changed
    obtain ⟨delivery, member, received, content⟩ := delivered.changed place changed
    have located := (receives?_eq_some_iff.mp received).1
    exact ⟨delivery, member, delivered.directories.locate_iff.mpr located, content⟩
  · intro place found
    exact (delivered.directories.directory place).mpr (prepared.keeps.directory place found)
  · intro place found
    apply (prepared.new place ((delivered.directories.directory place).mp found)).imp_right
    intro ⟨delivery, member, onWay⟩
    exact ⟨delivery, member, delivered.directories.keeps.onWay onWay⟩

/-- Settings in which the way to the assembly table leads through the place of the rule table. -/
def nestedSettings : Settings where
  directory := .ofText []
  rulesName := "a".toList
  assemblyName := "a/b".toList
  checkCollisions := true

def nestedRun : Traced FileError Unit × FileTree :=
  written nestedSettings firstTags ⟨[], [], []⟩ (emptyIn [])

/-- A target that is made a directory for the other one cannot be replaced. That directory is all that
is left, since both staging files are removed.
-/
theorem nestedRun_confined
    : nestedSettings.directory.Normal
      ∧ firstTags.FreshFor nestedSettings
      ∧ nestedRun.1.outcome
        = .error (.unreplaced .isDirectory ⟨.ofText [], "a".toList, firstTags.rules⟩ "a".toList)
      ∧ nestedRun.2.file? [".a.00000000.tmp".toList] = none
      ∧ nestedRun.2.file? [".b.00000001.tmp".toList, "a".toList] = none
      ∧ (nestedRun.2.OnWay nestedSettings.rulesPath ["a".toList]
        ∨ nestedRun.2.OnWay nestedSettings.assemblyPath ["a".toList]) := by
  have normal : nestedSettings.directory.Normal := Path.ofText_normal []
  have fresh : firstTags.FreshFor nestedSettings := ⟨by decide, by decide, by decide, by decide⟩
  obtain ⟨staging, _, _, new⟩ := written_confined ⟨[], [], []⟩ (emptyIn []) normal fresh
  refine ⟨normal, fresh, rfl, ?_, ?_, ?_⟩
  · exact staging _ List.mem_cons_self [".a.00000000.tmp".toList] rfl
  · exact staging _ (List.mem_cons_of_mem _ List.mem_cons_self)
      [".b.00000001.tmp".toList, "a".toList] rfl
  · obtain old | ⟨delivery, member, onWay⟩ := new ["a".toList] rfl
    · cases old
    · simp only [Settings.deliveries, List.mem_cons, List.not_mem_nil, or_false] at member
      obtain rfl | rfl := member
      · exact Or.inl onWay
      · exact Or.inr onWay

end OpcodeTables
