import OpcodeTables.Proofs.Storage.PublicationEffect

/-! A target that a direct path leads to receives its file once it has been prepared and its
staging file stands beside it. Nothing is left then that could keep the target from being
replaced.
-/

namespace OpcodeTables.FileTree

open Storage

theorem directoryAt_of_locate {tree : FileTree} {path : Path} {place : Place}
    (located : tree.locate path.toText = .ok place) (found : tree.node? place = some .directory)
    : tree.directoryAt path = .ok true := by
  simp [directoryAt, kind, find, located, found, kindOf, Except.map]

/-- A path of which it could be told that no directory stands there is not too long. -/
theorem length_le_of_directoryAt {tree : FileTree} {path : Path} (normal : path.Normal)
    (told : tree.directoryAt path = .ok false) (clear : '\x00' ∉ path.toText)
    : (Utf8.encode path.toText).length ≤ pathLimit := by
  by_contra long
  have failed : tree.locate path.toText = .error .nameTooLong := by
    rw [locate, if_neg clear, if_neg (toText_ne_nil normal), if_pos (Nat.lt_of_not_le long)]
  simp [directoryAt, kind, find, failed, Except.map, FileFault.meansAbsent] at told

/-- A path without parts leads to a directory. -/
theorem Rooted.directoryAt_start {tree : FileTree} (rooted : tree.Rooted) (anchor : Anchor)
    : tree.directoryAt ⟨anchor, []⟩ = .ok true := by
  have normal : Path.Normal ⟨anchor, []⟩ := by
    intro part member
    cases member
  have fits : Fits (Path.toText ⟨anchor, []⟩) := by
    cases anchor <;> exact ⟨by decide, by decide⟩
  have way : tree.walk (tree.origin anchor) [Path.same] = .ok (tree.origin anchor) := by
    refine walk_cons_iff.mpr ⟨rooted.origin anchor, by decide, ?_⟩
    rw [step, if_pos rfl, walk]
  exact directoryAt_of_locate ((locate_toText_iff normal).mpr ⟨fits, way⟩) (rooted.origin anchor)

/-- The name of a staging file is longer than the name it is made from. -/
theorem encode_name_le (staging : Staging)
    : (Utf8.encode staging.name).length ≤ (Utf8.encode staging.fileName).length := by
  simp only [Staging.fileName, Utf8.encode, List.flatMap_cons, List.flatMap_append,
    List.length_append]
  omega

/-- A path can be looked for if one with a staging file's name in place of its last part can. -/
theorem clear_of_staging {anchor : Anchor} {parts : List Text} (staging : Staging)
    (clear : '\x00' ∉ Path.toText ⟨anchor, parts ++ [staging.fileName]⟩)
    : '\x00' ∉ Path.toText ⟨anchor, parts ++ [staging.name]⟩ := by
  obtain ⟨front, split⟩ := Path.toText_concat anchor parts
  rw [split] at clear ⊢
  simp only [Staging.fileName, List.mem_append, List.mem_cons, not_or] at clear ⊢
  exact ⟨clear.1, clear.2.1.1.2⟩

/-- The staging file of a direct path's target stands in the directory that the path tells. -/
theorem ofTarget_direct {anchor : Anchor} {parts : List Text} {last : Text}
    (direct : Path.Direct ⟨anchor, parts ++ [last]⟩) (tag : Text)
    : Staging.ofTarget ⟨anchor, parts ++ [last]⟩ tag = ⟨⟨anchor, parts⟩, last, tag⟩ := by
  have around : Path.Direct ⟨anchor, parts⟩ := direct.beginning (List.prefix_append parts [last])
  have parent : Path.parent ⟨anchor, parts ++ [last]⟩ = ⟨anchor, parts⟩ := by simp [Path.parent]
  have name : Path.name ⟨anchor, parts ++ [last]⟩ = last := by simp [Path.name]
  rw [Staging.ofTarget, parent, around.settled_eq, name]

/-- A direct path that is not too long leads where the names tell if its staging file can be
located: the directory around both is the same, and the staging file has the longer name.
-/
theorem locate_of_staging {tree : FileTree} {anchor : Anchor} {parts : List Text} {last tag : Text}
    {place : Place} (direct : Path.Direct ⟨anchor, parts ++ [last]⟩) (noSlash : '/' ∉ tag)
    (bounded
      : '\x00' ∉ Path.toText ⟨anchor, parts ++ [last]⟩
        → (Utf8.encode (Path.toText ⟨anchor, parts ++ [last]⟩)).length ≤ pathLimit)
    (staged : tree.locate (Staging.ofTarget ⟨anchor, parts ++ [last]⟩ tag).path = .ok place)
    : ∃ goal, tree.locate (Path.toText ⟨anchor, parts ++ [last]⟩) = .ok goal := by
  have onward := direct.onward last (by simp)
  have settled : (Path.parent ⟨anchor, parts ++ [last]⟩).settled = ⟨anchor, parts⟩ :=
    congrArg Staging.directory (ofTarget_direct direct tag)
  obtain ⟨fits, short, directory, way, found, _⟩ :=
    (locate_staging_iff direct.1 noSlash).mp staged
  rw [settled] at way
  rw [ofTarget_direct direct tag] at fits short
  have clear := clear_of_staging ⟨⟨anchor, parts⟩, last, tag⟩ fits.1
  have lastShort := Nat.le_trans (encode_name_le ⟨⟨anchor, parts⟩, last, tag⟩) short
  exact ⟨last :: directory, (locate_concat_iff direct.1 onward).mpr
    ⟨⟨clear, bounded clear⟩, lastShort, directory, way, found, rfl⟩⟩

/-- A directory at the end of a direct path would have been told, if the path can be followed
in a tree that has grown from this one.
-/
theorem Rooted.free_of_directoryAt {tree made : FileTree} {path : Path} {goal : Place}
    (rooted : tree.Rooted) (direct : path.Direct) (nonempty : path.parts ≠ [])
    (told : tree.directoryAt path = .ok false)
    (current : made.current = tree.current) (located : made.locate path.toText = .ok goal)
    : tree.node? goal ≠ some .directory := by
  intro found
  obtain ⟨fits, way⟩ := (locate_toText_iff direct.1).mp located
  rw [Path.steps, if_neg nonempty] at way
  have whole := direct.locate_eq located
  rw [whole, origin_eq current] at found
  have followed := rooted.walk_onward direct.onward (walk_short way) found
  have there : tree.locate path.toText = .ok (path.parts.reverse ++ tree.origin path.anchor) := by
    refine (locate_toText_iff direct.1).mpr ⟨fits, ?_⟩
    rwa [Path.steps, if_neg nonempty]
  simp [directoryAt_of_locate there found] at told

/-- A target of a direct path receives its file once it is prepared and its staging file can be
located: what is around it is a directory then, its name and path are not too long, and making
directories has made none at the target itself.
-/
theorem exists_receives?_of_direct {tree made : FileTree} {target : Path} {tag : Text}
    {place : Place} (rooted : tree.Rooted) (direct : target.Direct) (noSlash : '/' ∉ tag)
    (prepared : (Publication.prepare target : Work Unit).run tree = (.ok (), made))
    (staged : made.locate (Staging.ofTarget target tag).path = .ok place)
    : ∃ goal, made.receives? target.toText = some goal := by
  obtain ⟨told, ran⟩ := prepare_eq_ok_iff.mp prepared
  rcases List.eq_nil_or_concat target.parts with empty | ⟨parts, last, whole⟩
  · obtain ⟨anchor, parts⟩ := target
    obtain rfl : parts = [] := empty
    simp [rooted.directoryAt_start anchor] at told
  · obtain ⟨anchor, all⟩ := target
    obtain rfl : all = parts ++ [last] := by simpa using whole
    have around : Path.Direct ⟨anchor, parts⟩ := direct.beginning (List.prefix_append parts [last])
    have parent : Path.parent ⟨anchor, parts ++ [last]⟩ = ⟨anchor, parts⟩ := by simp [Path.parent]
    rw [parent] at ran
    obtain ⟨goal, located⟩ :=
      locate_of_staging direct noSlash (length_le_of_directoryAt direct.1 told) staged
    have current : made.current = tree.current := by
      simpa [ran] using makeDirectories_current tree ⟨anchor, parts⟩
    have origin := origin_eq current anchor
    have free := rooted.free_of_directoryAt direct (by simp) told current located
    have further : parts.length + (tree.origin anchor).length < goal.length := by
      rw [direct.locate_eq located, origin]
      simp only [List.length_append, List.length_reverse, List.length_singleton]
      omega
    -- The directories made for the target are all on the way to it, so none stands at its end.
    have freeMade : made.node? goal ≠ some .directory := by
      simpa [ran] using makeDirectories_free around further free
    have named : endsOnTheWay (Path.toText ⟨anchor, parts ++ [last]⟩) = false := by
      rw [endsOnTheWay, Path.route_toText direct.1, Path.steps, if_neg (by simp)]
      simpa [Onward] using direct.onward last (by simp)
    exact ⟨goal, receives?_eq_some_iff.mpr ⟨located, named, freeMade⟩⟩

end OpcodeTables.FileTree
