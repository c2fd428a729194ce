import OpcodeTables.Main
import OpcodeTables.Proofs.DeliveredWrites
import OpcodeTables.Proofs.Storage.Rewriting
import OpcodeTables.Proofs.WriteFrame

/-! Writing tables again that have been written. It changes nothing, and it ends well if the staging
files have names that are free.
-/

namespace OpcodeTables

open FileTree

--------------------------------------------------------------------------------
-- Tags
--------------------------------------------------------------------------------

namespace Tags

/-- A tag as it is drawn for a run. -/
structure Drawn (tag : Text) : Prop where
  width : tag.length = Tags.length
  characters : ∀ c ∈ tag, c ∈ tagCharacters

theorem drawn_iff {tag : Text}
    : Drawn tag ↔ tag.length = Tags.length ∧ tag.all (· ∈ tagCharacters) := by
  simp only [List.all_eq_true, decide_eq_true_eq]
  exact ⟨fun drawn => ⟨drawn.width, drawn.characters⟩, fun spelled => ⟨spelled.1, spelled.2⟩⟩

instance (tag : Text) : Decidable (Drawn tag) :=
  decidable_of_iff _ drawn_iff.symm

theorem Drawn.noSlash {tag : Text} (drawn : Drawn tag) : '/' ∉ tag := by
  intro member
  exact absurd (drawn.characters _ member) (by decide)

theorem Drawn.clear {tag : Text} (drawn : Drawn tag) : '\x00' ∉ tag := by
  intro member
  exact absurd (drawn.characters _ member) (by decide)

/-- Each character of a drawn tag is written as one octet. -/
theorem Drawn.length_encode {tag : Text} (drawn : Drawn tag)
    : (Utf8.encode tag).length = Tags.length := by
  have single : tagCharacters.all fun c => (Utf8.encodeChar c).length = 1 := by decide
  simp only [List.all_eq_true, decide_eq_true_eq] at single
  have ones : tag.map (fun c => (Utf8.encodeChar c).length) = tag.map fun _ => 1 :=
    List.map_congr_left fun c member => single c (drawn.characters c member)
  rw [Utf8.encode, List.length_flatMap, ones, ← drawn.width, List.map_const']
  simp

/-- The staging files that the tags stand for would be new ones in a tree, and two of them. -/
structure UnusedIn (tags : Tags) (settings : Settings) (tree : FileTree) : Prop where
  rules
    : ∀ place,
        tree.locate (Staging.ofTarget settings.rulesPath tags.rules).path = .ok place
        → tree.node? place = none
  assembly
    : ∀ place,
        tree.locate (Staging.ofTarget settings.assemblyPath tags.assembly).path = .ok place
        → tree.node? place = none
  apart
    : ∀ place,
        tree.locate (Staging.ofTarget settings.rulesPath tags.rules).path = .ok place
        → tree.locate (Staging.ofTarget settings.assemblyPath tags.assembly).path ≠ .ok place

/-- With drawn tags, the staging files of two targets have different names if the targets do. -/
theorem Drawn.fileName_ne {target other : Path} {tag again : Text} (drawn : Drawn tag)
    (drawnAgain : Drawn again) (apart : target.name ≠ other.name)
    : (Staging.ofTarget target tag).fileName ≠ (Staging.ofTarget other again).fileName := by
  intro same
  have width : ('.' :: tag).length = ('.' :: again).length := by
    rw [List.length_cons, List.length_cons, drawn.width, drawnAgain.width]
  simp only [Staging.fileName, Staging.ofTarget, List.append_cancel_right_eq] at same
  exact apart (List.cons.inj (List.append_inj_left' same width)).2

/-- Drawn tags are fresh for files with short names. -/
theorem FreshFor.of_shortNames {tags : Tags} {settings : Settings} (rules : Drawn tags.rules)
    (assembly : Drawn tags.assembly) (shortRules : settings.rulesPath.name.length < 6)
    (shortAssembly : settings.assemblyPath.name.length < 6)
    : tags.FreshFor settings := by
  have longer {target : Path} {tag name : Text} (short : name.length < 6)
      : (Staging.ofTarget target tag).fileName ≠ name := by
    intro same
    have length := (Staging.ofTarget target tag).length_fileName
    rw [same] at length
    omega
  exact ⟨rules.noSlash, assembly.noSlash, longer shortAssembly, longer shortRules⟩

/-- With drawn tags no staging file exists in a tree in which all names are short. -/
theorem UnusedIn.of_shortNames {tags : Tags} {settings : Settings} {tree : FileTree}
    (normal : settings.directory.Normal) (rules : Drawn tags.rules) (assembly : Drawn tags.assembly)
    (apart : settings.rulesPath.name ≠ settings.assemblyPath.name)
    (short : ∀ entry ∈ tree.nodes, (entry.1.headD []).length < 6)
    : tags.UnusedIn settings tree := by
  have beside {target : Path} {tag : Text} {place : Place} (normal : target.Normal)
      (drawn : Drawn tag) (located : tree.locate (Staging.ofTarget target tag).path = .ok place)
      : ∃ directory, place = (Staging.ofTarget target tag).fileName :: directory := by
    obtain ⟨_, _, directory, _, _, whole⟩ := (locate_staging_iff normal drawn.noSlash).mp located
    exact ⟨directory, whole⟩
  have free (staging : Staging) (directory : Place)
      : tree.node? (staging.fileName :: directory) = none := by
    rw [node?, if_neg (List.cons_ne_nil _ _), List.lookup_eq_none_iff]
    intro entry member
    rw [bne_iff_ne]
    intro same
    have named := short entry member
    rw [← same, List.headD_cons, staging.length_fileName] at named
    omega
  refine ⟨?_, ?_, ?_⟩
  · intro place located
    obtain ⟨directory, rfl⟩ := beside (normal.join _) rules located
    exact free _ directory
  · intro place located
    obtain ⟨directory, rfl⟩ := beside (normal.join _) assembly located
    exact free _ directory
  · intro place located again
    obtain ⟨directory, rfl⟩ := beside (normal.join _) rules located
    obtain ⟨_, same⟩ := beside (normal.join _) assembly again
    exact rules.fileName_ne assembly apart (List.cons.inj same).1

end Tags

--------------------------------------------------------------------------------
-- Tables that stand in their places
--------------------------------------------------------------------------------

/-- The tables stand where they have been written. If both paths lead to one place, the assembly table
stands there.
-/
structure Holds (settings : Settings) (tables : Tables) (tree : FileTree) (goal other : Place)
    : Prop where
  rulesReceived : tree.receives? settings.rulesPath.toText = some goal
  assemblyReceived : tree.receives? settings.assemblyPath.toText = some other
  rules
    : tree.node? goal
      = some (.file (Utf8.encode (if goal = other then tables.assembly else tables.rules)))
  assembly : tree.node? other = some (.file (Utf8.encode tables.assembly))

/-- After a write that ends well its tables stand where they have been written, and the places of
its staging files can still be located.
-/
theorem exists_holds_of_written {settings : Settings} {tags : Tags} {tables : Tables}
    {tree : FileTree} (fresh : Fresh (settings.deliveries tags tables))
    (ended : (written settings tags tables tree).1.outcome = .ok ())
    : let after := (written settings tags tables tree).2
      ∃ goal other,
        Holds settings tables after goal other
        ∧ ∀ delivery ∈ settings.deliveries tags tables,
            ∃ place, after.locate (Publication.staging delivery).path = .ok place := by
  intro after
  rcases sameFiles_or_staged tree fresh with ⟨⟨error, failed⟩, _⟩ | ⟨made, full, prepared, staged⟩
  · rw [failed] at ended
    cases ended
  · obtain ⟨endsWell, left⟩ := written_of_staged fresh prepared staged
    obtain ⟨goal, other, rules, assembly, delivered⟩ := deliver_deliveries_ok (endsWell.mp ended)
    have goalFree := (receives?_eq_some_iff.mp rules).2.2
    have otherFree := (receives?_eq_some_iff.mp assembly).2.2
    obtain ⟨directories, second, first⟩ := node?_insert_insert (Utf8.encode tables.rules)
      (Utf8.encode tables.assembly) goalFree otherFree
    rw [delivered] at left
    have kept := directories.trans left.directories
    refine ⟨goal, other, ⟨?_, ?_, ?_, ?_⟩, ?_⟩
    · rw [kept.receives?_eq, rules]
    · rw [kept.receives?_eq, assembly]
    · rw [left.node goal List.not_mem_nil, first, apply_ite Utf8.encode]
    · rw [left.node other List.not_mem_nil, second]
    · obtain ⟨places, waiting, _, _, filled⟩ := stageAll_places staged
      intro delivery member
      obtain ⟨place, waits⟩ := exists_place_of_mem waiting member
      exact ⟨place, kept.locate_iff.mpr (filled.directories.locate_iff.mp waits.located)⟩

/-- Nothing is left to prepare where the tables stand already. -/
theorem Holds.prepareAll_eq {settings : Settings} {tables : Tables} {tree : FileTree}
    {goal other : Place} (holds : Holds settings tables tree goal other)
    (normal : settings.directory.Normal) (tags : Tags)
    : (prepareAll (settings.deliveries tags tables)).run tree = (.ok (), tree) := by
  have rules := prepare_eq_self (normal.join settings.rulesName) holds.rulesReceived holds.rules
  have assembly :=
    prepare_eq_self (normal.join settings.assemblyName) holds.assemblyReceived holds.assembly
  exact run_bind_eq_ok_iff.mpr
    ⟨(), tree, rules, run_bind_eq_ok_iff.mpr ⟨(), tree, assembly, rfl⟩⟩

/-- However it ends, writing tables again changes nothing where they stand in different places. -/
theorem Holds.rewritten_same {settings : Settings} {tables : Tables} {tree : FileTree}
    {goal other : Place} (holds : Holds settings tables tree goal other) (apart : goal ≠ other)
    {tags : Tags} (normal : settings.directory.Normal)
    (fresh : Fresh (settings.deliveries tags tables))
    : tree.SameOutside [] (written settings tags tables tree).2 := by
  obtain ⟨_, _, delivered⟩ := written_delivered tree fresh
  rw [holds.prepareAll_eq normal] at delivered
  refine FileTree.SameFiles.sameOutside ?_ delivered.directories
  intro place
  by_contra changed
  obtain ⟨delivery, member, received, content⟩ := delivered.changed place changed
  have rules := holds.rules
  rw [if_neg apart] at rules
  simp only [Settings.deliveries, List.mem_cons, List.not_mem_nil, or_false] at member
  obtain rfl | rfl := member
  · obtain rfl : goal = place := Option.some.inj (holds.rulesReceived.symm.trans received)
    exact changed (by rw [content, file?, rules])
  · obtain rfl : other = place := Option.some.inj (holds.assemblyReceived.symm.trans received)
    exact changed (by rw [content, file?, holds.assembly])

/-- A staging file with a drawn tag is located where one with another drawn tag has been. -/
theorem locate_redrawn {tree : FileTree} {target : Path} {tag again : Text} (normal : target.Normal)
    (drawn : Tags.Drawn tag) (drawnAgain : Tags.Drawn again)
    (located : ∃ place, tree.locate (Staging.ofTarget target tag).path = .ok place)
    : ∃ place, tree.locate (Staging.ofTarget target again).path = .ok place := by
  obtain ⟨place, located⟩ := located
  have width := drawnAgain.length_encode.trans drawn.length_encode.symm
  exact locate_retagged normal drawn.noSlash drawnAgain.noSlash drawnAgain.clear
    (Nat.le_of_eq width) located

/-- Writing tables again with unused tags ends well. -/
theorem Holds.rewritten_ok {settings : Settings} {tags again : Tags} {tables : Tables}
    {tree : FileTree} {goal other : Place} (holds : Holds settings tables tree goal other)
    (normal : settings.directory.Normal) (fresh : again.FreshFor settings)
    (drawn : ∀ tag ∈ [tags.rules, tags.assembly, again.rules, again.assembly], Tags.Drawn tag)
    (located
      : ∀ delivery ∈ settings.deliveries tags tables,
          ∃ place, tree.locate (Publication.staging delivery).path = .ok place)
    (unused : again.UnusedIn settings tree)
    : (written settings again tables tree).1.outcome = .ok () := by
  simp only [List.forall_mem_cons, Settings.deliveries] at drawn located
  obtain ⟨rulesDrawn, assemblyDrawn, rulesAgain, assemblyAgain, _⟩ := drawn
  obtain ⟨rules, rulesLocated⟩ :=
    locate_redrawn (normal.join settings.rulesName) rulesDrawn rulesAgain located.1
  obtain ⟨assembly, assemblyLocated⟩ :=
    locate_redrawn (normal.join settings.assemblyName) assemblyDrawn assemblyAgain located.2.1
  have free : List.Forall₂ tree.FreeFor (settings.deliveries again tables) [rules, assembly] :=
    .cons ⟨rulesLocated, unused.rules rules rulesLocated⟩
      (.cons ⟨assemblyLocated, unused.assembly assembly assemblyLocated⟩ .nil)
  have distinct : [rules, assembly].Nodup := by
    have apart : rules ≠ assembly := by
      rintro rfl
      exact unused.apart rules rulesLocated assemblyLocated
    simpa using apart
  obtain ⟨full, staged⟩ := exists_stageAll free distinct
  have names := fresh.deliveries normal tables
  apply (written_of_staged names (holds.prepareAll_eq normal again) staged).1.mpr
  rw [deliver_deliveries, holds.rulesReceived, holds.assemblyReceived]

end OpcodeTables
