import OpcodeTables.Proofs.Storage.DirectTargets
import OpcodeTables.TableFiles

/-! What a failed write leaves behind. It leaves every file as it was, unless it is torn: the
rule table is in its place already when it turns out that the assembly table cannot be put in
its own. A write can only be torn if the way to the assembly table leads back up, since a
directory made on such a way can stand where the table has to go, after it has been looked for
there.
-/

namespace OpcodeTables

open FileTree

/-- What writing the tables does to a tree. -/
def written (settings : Settings) (tags : Tags) (tables : Tables) (tree : FileTree)
    : Traced FileError Unit × FileTree :=
  (writeTables settings tags tables : StateM FileTree (Traced FileError Unit)) tree

/-- Fresh tags: no output file has the name of a staging file. -/
structure Tags.FreshFor (tags : Tags) (settings : Settings) : Prop where
  rulesNoSlash : '/' ∉ tags.rules
  assemblyNoSlash : '/' ∉ tags.assembly
  rulesApart
    : (Staging.ofTarget settings.rulesPath tags.rules).fileName ≠ settings.assemblyPath.name
  assemblyApart
    : (Staging.ofTarget settings.assemblyPath tags.assembly).fileName ≠ settings.rulesPath.name

/-- A staging file does not have the name of its own target, since it has a longer one. -/
theorem fileName_ne_name (target : Path) (tag : Text)
    : (Staging.ofTarget target tag).fileName ≠ target.name := by
  intro same
  have longer
      : (Staging.ofTarget target tag).fileName.length = target.name.length + tag.length + 6 :=
    Staging.length_fileName _
  rw [same] at longer
  omega

/-- With fresh tags no target has the name of a staging file. -/
theorem Tags.FreshFor.deliveries {tags : Tags} {settings : Settings}
    (fresh : tags.FreshFor settings) (normal : settings.directory.Normal) (tables : Tables)
    : Fresh (settings.deliveries tags tables) := by
  refine ⟨?_, ?_, ?_⟩
  · simp only [Settings.deliveries, List.forall_mem_cons, List.not_mem_nil, false_imp_iff,
      implies_true, and_true]
    exact ⟨normal.join _, normal.join _⟩
  · simpa [Settings.deliveries] using ⟨fresh.rulesNoSlash, fresh.assemblyNoSlash⟩
  · simp only [Settings.deliveries, List.forall_mem_cons, List.not_mem_nil, false_imp_iff,
      implies_true, and_true]
    exact ⟨⟨fileName_ne_name _ _, fresh.rulesApart⟩, fresh.assemblyApart, fileName_ne_name _ _⟩

theorem written_eq (settings : Settings) (tags : Tags) (tables : Tables) (tree : FileTree)
    : let run := (Publication.publish (settings.deliveries tags tables)
        : StateM FileTree Publication) tree
      (written settings tags tables tree).1.outcome = run.1.outcome
      ∧ (written settings tags tables tree).2 = run.2 :=
  ⟨rfl, rfl⟩

/-- A torn write: everything is prepared and can be staged, and the path of the rule table
receives its file, but the path of the assembly table does not.
-/
structure Torn (settings : Settings) (tags : Tags) (tables : Tables) (tree made : FileTree)
    (goal : Place) : Prop where
  prepared : (prepareAll (settings.deliveries tags tables)).run tree = (.ok (), made)
  staged : ∃ full, made.stageAll (settings.deliveries tags tables) = .ok full
  received : made.receives? settings.rulesPath.toText = some goal
  refused : made.receives? settings.assemblyPath.toText = none

/-- The rule table is delivered where its path receives it, and then the assembly table, whose
path receives it where it would have before.
-/
theorem deliver_deliveries (settings : Settings) (tags : Tags) (tables : Tables) (made : FileTree)
    : made.deliver (settings.deliveries tags tables) =
      match made.receives? settings.rulesPath.toText with
      | none => (made, false)
      | some goal =>
        let next := made.insert goal (.file (Utf8.encode tables.rules))
        match made.receives? settings.assemblyPath.toText with
        | none => (next, false)
        | some other => (next.insert other (.file (Utf8.encode tables.assembly)), true) := by
  cases received : made.receives? settings.rulesPath.toText with
  | none => simp [Settings.deliveries, deliver, received]
  | some goal =>
      have free := (receives?_eq_some_iff.mp received).2.2
      have placed := sameDirectories_insert free (Utf8.encode tables.rules)
      cases refused : made.receives? settings.assemblyPath.toText <;>
        simp [Settings.deliveries, deliver, received, placed.receives?_eq, refused]

/-- A write whose targets cannot be prepared ends there. -/
theorem written_of_unprepared {settings : Settings} {tags : Tags} {tables : Tables}
    {tree made : FileTree} {error : FileError}
    (failed : (prepareAll (settings.deliveries tags tables)).run tree = (.error error, made))
    : let run := written settings tags tables tree
      run.1.outcome = .error error ∧ run.2 = made := by
  obtain ⟨outcome, final⟩ := written_eq settings tags tables tree
  rw [publish_eq, failed] at outcome final
  exact ⟨outcome, final⟩

/-- A write whose tables cannot be staged leaves what the preparation of its targets has left. -/
theorem written_of_unstaged {settings : Settings} {tags : Tags} {tables : Tables}
    {tree made : FileTree} {error : FileError} (fresh : Fresh (settings.deliveries tags tables))
    (prepared : (prepareAll (settings.deliveries tags tables)).run tree = (.ok (), made))
    (unstaged : made.stageAll (settings.deliveries tags tables) = .error error)
    : let run := written settings tags tables tree
      run.1.outcome = .error error ∧ made.SameOutside [] run.2 := by
  obtain ⟨outcome, final⟩ := written_eq settings tags tables tree
  have effect := withStaged_effect made fresh
  rw [unstaged] at effect
  rw [publish_eq, prepared] at outcome final
  refine ⟨outcome.trans effect.1, ?_⟩
  rw [final]
  exact effect.2

/-- A write whose targets are prepared and whose tables are staged ends as straight delivery does,
and leaves the same files.
-/
theorem written_of_staged {settings : Settings} {tags : Tags} {tables : Tables}
    {tree made full : FileTree} (fresh : Fresh (settings.deliveries tags tables))
    (prepared : (prepareAll (settings.deliveries tags tables)).run tree = (.ok (), made))
    (staged : made.stageAll (settings.deliveries tags tables) = .ok full)
    : let run := written settings tags tables tree
      let straight := made.deliver (settings.deliveries tags tables)
      (run.1.outcome = .ok () ↔ straight.2 = true) ∧ straight.1.SameOutside [] run.2 := by
  obtain ⟨outcome, final⟩ := written_eq settings tags tables tree
  have effect := withStaged_effect made fresh
  rw [staged] at effect
  rw [publish_eq, prepared] at outcome final
  refine ⟨?_, ?_⟩
  · rw [outcome]
    exact effect.1
  · rw [final]
    exact effect.2

/-- A write fails and changes no file unless its targets are prepared and its tables are staged. -/
theorem sameFiles_or_staged {settings : Settings} {tags : Tags} {tables : Tables} (tree : FileTree)
    (fresh : Fresh (settings.deliveries tags tables))
    : let run := written settings tags tables tree
      ((∃ error, run.1.outcome = .error error) ∧ tree.SameFiles run.2)
      ∨ ∃ made full,
          (prepareAll (settings.deliveries tags tables)).run tree = (.ok (), made)
          ∧ made.stageAll (settings.deliveries tags tables) = .ok full := by
  have same := prepareAll_sameFiles (settings.deliveries tags tables) tree
  rcases prepared : (prepareAll (settings.deliveries tags tables)).run tree with ⟨error | _, made⟩
  · rw [prepared] at same
    obtain ⟨outcome, final⟩ := written_of_unprepared prepared
    exact Or.inl ⟨⟨error, outcome⟩, final ▸ same⟩
  · rw [prepared] at same
    cases staged : made.stageAll (settings.deliveries tags tables) with
    | ok full => exact Or.inr ⟨made, full, rfl, staged⟩
    | error error =>
        obtain ⟨outcome, left⟩ := written_of_unstaged fresh prepared staged
        exact Or.inl ⟨⟨error, outcome⟩, fun place => (left.sameFiles place).trans (same place)⟩

/-- A torn write fails, and the rule table is all that has changed. -/
theorem Torn.effect {settings : Settings} {tags : Tags} {tables : Tables} {tree made : FileTree}
    {goal : Place} (torn : Torn settings tags tables tree made goal)
    (fresh : Fresh (settings.deliveries tags tables))
    : let run := written settings tags tables tree
      (∃ error, run.1.outcome = .error error)
      ∧ ∀ place,
          run.2.file? place =
            if place = goal then some (Utf8.encode tables.rules) else tree.file? place := by
  obtain ⟨full, staged⟩ := torn.staged
  obtain ⟨ended, left⟩ := written_of_staged fresh torn.prepared staged
  have files := left.sameFiles
  have free := (receives?_eq_some_iff.mp torn.received).2.2
  have same := prepareAll_sameFiles (settings.deliveries tags tables) tree
  rw [torn.prepared] at same
  rw [deliver_deliveries, torn.received, torn.refused] at ended files
  refine ⟨?_, ?_⟩
  · cases outcome : (written settings tags tables tree).1.outcome with
    | error error => exact ⟨error, rfl⟩
    | ok => simp [outcome] at ended
  · intro place
    rw [files place, file?_insert free, same place]

/-- A write that fails changes no file or is torn. -/
theorem sameFiles_or_torn {settings : Settings} {tags : Tags} {tables : Tables} {tree : FileTree}
    {error : FileError} (fresh : Fresh (settings.deliveries tags tables))
    (failed : (written settings tags tables tree).1.outcome = .error error)
    : tree.SameFiles (written settings tags tables tree).2
      ∨ ∃ made goal, Torn settings tags tables tree made goal := by
  rcases sameFiles_or_staged tree fresh with ⟨_, same⟩ | ⟨made, full, prepared, staged⟩
  · exact Or.inl same
  · obtain ⟨ended, left⟩ := written_of_staged fresh prepared staged
    have files := left.sameFiles
    have same := prepareAll_sameFiles (settings.deliveries tags tables) tree
    rw [prepared] at same
    rw [deliver_deliveries] at ended files
    cases received : made.receives? settings.rulesPath.toText with
    | none =>
        rw [received] at files
        exact Or.inl fun place => (files place).trans (same place)
    | some goal =>
        cases refused : made.receives? settings.assemblyPath.toText with
        | none => exact Or.inr ⟨made, goal, prepared, ⟨full, staged⟩, received, refused⟩
        | some other =>
            rw [received, refused, failed] at ended
            cases ended.mpr rfl

/-- Only a way that leads back up can tear a write: after the preparation a direct one leads
to where the assembly table can be put.
-/
theorem Torn.above_mem {settings : Settings} {tags : Tags} {tables : Tables} {tree made : FileTree}
    {goal : Place} (torn : Torn settings tags tables tree made goal) (rooted : tree.Rooted)
    (normal : settings.directory.Normal) (noSlash : '/' ∉ tags.assembly)
    : Path.above ∈ settings.assemblyPath.parts := by
  by_contra onward
  have direct : settings.assemblyPath.Direct := ⟨normal.join settings.assemblyName, onward⟩
  obtain ⟨_, middle, rulesPrepared, rest⟩ := run_bind_eq_ok_iff.mp torn.prepared
  obtain ⟨_, _, assemblyPrepared, ended⟩ := run_bind_eq_ok_iff.mp rest
  cases ended
  have rootedMiddle := prepare_rooted rooted settings.rulesPath
  rw [rulesPrepared] at rootedMiddle
  obtain ⟨full, staged⟩ := torn.staged
  obtain ⟨places, waiting, _, _, filled⟩ := stageAll_places staged
  obtain _ | ⟨_, _ | ⟨waits, _⟩⟩ := waiting
  -- The staging file shows that the directory around the table is there, whatever has been made.
  have located := filled.directories.locate_iff.mp waits.located
  obtain ⟨goal, received⟩ :=
    exists_receives?_of_direct rootedMiddle direct noSlash assemblyPrepared located
  rw [torn.refused] at received
  cases received

/-- A write that fails changes a file exactly if it is torn and the rule table is a new one.
The rule table is the only file then that has changed, and the path of the assembly table
leads back up somewhere.
-/
theorem written_error_changes_iff_torn {settings : Settings} {tags : Tags} (tables : Tables)
    {tree : FileTree} (rooted : tree.Rooted) (normal : settings.directory.Normal)
    (fresh : tags.FreshFor settings)
    : let run := written settings tags tables tree
      ((∃ error, run.1.outcome = .error error) ∧ ¬tree.SameFiles run.2
        ↔ ∃ made goal,
            Torn settings tags tables tree made goal
            ∧ tree.file? goal ≠ some (Utf8.encode tables.rules))
      ∧ ∀ made goal,
          Torn settings tags tables tree made goal
          → Path.above ∈ settings.assemblyPath.parts
            ∧ ∀ place,
                run.2.file? place =
                  if place = goal then some (Utf8.encode tables.rules) else tree.file? place := by
  have names := fresh.deliveries normal tables
  refine ⟨⟨?_, ?_⟩, ?_⟩
  · rintro ⟨⟨error, failed⟩, changed⟩
    obtain ⟨made, goal, torn⟩ := (sameFiles_or_torn names failed).resolve_left changed
    refine ⟨made, goal, torn, ?_⟩
    intro old
    apply changed
    intro place
    rw [(torn.effect names).2 place]
    split
    · next here => rw [here, old]
    · rfl
  · rintro ⟨made, goal, torn, new⟩
    obtain ⟨failed, files⟩ := torn.effect names
    refine ⟨failed, ?_⟩
    intro same
    rw [← same goal, files goal, if_pos rfl] at new
    exact new rfl
  · intro made goal torn
    exact ⟨torn.above_mem rooted normal fresh.assemblyNoSlash, (torn.effect names).2⟩

/-- Settings that a write can be torn by: the way to the assembly table leads to a directory
that does not exist yet, and from there back up.
-/
def tearingSettings : Settings where
  directory := .ofText []
  rulesName := "r".toList
  assemblyName := "x/../d".toList
  checkCollisions := true

/-- A tree with an old rule table and a directory where the assembly table has to go. -/
def tearableTree : FileTree where
  current := []
  nodes := [(["r".toList], .file [111, 108, 100]), (["d".toList], .directory)]

/-- The tags that are the first two numbers. -/
def firstTags : Tags := ⟨Tags.numbered 0, Tags.numbered 1⟩

/-- The assembly table cannot be put in the place of a directory that is only found once the
way to it has been made. The old rule table is lost then.
-/
theorem written_error_changes_rules
    : tearableTree.Rooted
      ∧ tearingSettings.directory.Normal
      ∧ firstTags.FreshFor tearingSettings
      ∧ (∃ error,
          (written tearingSettings firstTags ⟨[], [], []⟩ tearableTree).1.outcome = .error error)
      ∧ ¬tearableTree.SameFiles
          (written tearingSettings firstTags ⟨[], [], []⟩ tearableTree).2 := by
  have rooted : tearableTree.Rooted := rooted_of_nodes rfl (by decide)
  have normal : tearingSettings.directory.Normal := Path.ofText_normal []
  have fresh : firstTags.FreshFor tearingSettings :=
    ⟨by decide, by decide, by decide, by decide⟩
  have changes := (written_error_changes_iff_torn ⟨[], [], []⟩ rooted normal fresh).1
  have torn : Torn tearingSettings firstTags ⟨[], [], []⟩ tearableTree
      (tearableTree.insert ["x".toList] .directory) ["r".toList] := by
    refine ⟨?_, ?_, ?_, ?_⟩
    · rfl
    · let made := tearableTree.insert ["x".toList] .directory
      let first := made.insert [".r.00000000.tmp".toList] (.file [])
      exact ⟨first.insert [".d.00000001.tmp".toList] (.file []), rfl⟩
    · decide
    · decide
  exact ⟨rooted, normal, fresh, changes.mpr ⟨_, _, torn, by decide⟩⟩

end OpcodeTables
