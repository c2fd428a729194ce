import OpcodeTables.Proofs.Storage.DirectTargets
import OpcodeTables.Proofs.Storage.GivenPaths

/-! Putting a file again where it has been put before. There is nothing left to prepare, and a staging
file with another tag finds its place beside the target as the one before it did.
-/

namespace OpcodeTables

namespace Path

/-- What is in front of the last part of a path has a text without further characters, and no longer
than the text of the path.
-/
theorem toText_dropLast {anchor : Anchor} {parts : List Text} {last : Text}
    : toText ⟨anchor, parts⟩ = same
      ∨ (toText ⟨anchor, parts⟩).Sublist (toText ⟨anchor, parts ++ [last]⟩) := by
  have fewer := intercalate_sublist (List.sublist_append_left parts [last])
  cases anchor with
  | current =>
      cases parts with
      | nil => exact Or.inl rfl
      | cons part parts => exact Or.inr fewer
  | root => exact Or.inr (fewer.append_left _)
  | secondRoot => exact Or.inr (fewer.append_left _)

end Path

namespace FileTree

open Storage Publication

/-- The path around a target leads to a directory if the target receives a file. -/
theorem locate_parent {tree : FileTree} {target : Path} {goal : Place} (normal : target.Normal)
    (received : tree.receives? target.toText = some goal)
    : ∃ directory,
        tree.locate target.parent.toText = .ok directory
        ∧ tree.node? directory = some .directory := by
  obtain ⟨located, named, _⟩ := receives?_eq_some_iff.mp received
  obtain ⟨parts, last, whole, onward⟩ := exists_onward_of_not_endsOnTheWay normal named
  obtain ⟨anchor, all⟩ := target
  obtain rfl : all = parts ++ [last] := whole
  obtain ⟨fits, _, directory, way, found, _⟩ := (locate_concat_iff normal onward).mp located
  have parent : Path.parent ⟨anchor, parts ++ [last]⟩ = ⟨anchor, parts⟩ := by simp [Path.parent]
  have around := normal.parent
  rw [parent] at around ⊢
  refine ⟨directory, (locate_toText_iff around).mpr ⟨?_, ?_⟩, found⟩
  · rcases Path.toText_dropLast with start | fewer
    · rw [start]
      exact ⟨by decide, by decide⟩
    · exact fits.of_sublist fewer
  · unfold Path.steps
    split
    · next empty =>
        obtain rfl : parts = [] := empty
        obtain rfl : tree.origin anchor = directory := Except.ok.inj way
        exact walk_cons_iff.mpr ⟨found, by decide, by rw [step, if_pos rfl, walk]⟩
    · exact way

--------------------------------------------------------------------------------
-- Preparation
--------------------------------------------------------------------------------

/-- A directory that is there already is not made again. -/
theorem makeDirectories_eq_self {tree : FileTree} {path : Path} {place : Place}
    (located : tree.locate path.toText = .ok place) (found : tree.node? place = some .directory)
    : (makeDirectories path : Work Unit).run tree = (.ok (), tree) := by
  have occupied : tree.add path.toText .directory = .error .alreadyExists := by
    simp [add, located, found]
  have settled : (settleFor path (.error .alreadyExists) : Work Unit).run tree = (.ok (), tree) := by
    rw [settleFor, run_bind, run_isDirectory, directoryAt_of_locate located found]
    rfl
  obtain ⟨anchor, parts⟩ := path
  rw [run_makeDirectories]
  rcases List.eq_nil_or_concat parts with rfl | ⟨front, last, rfl⟩
  · change (ensure ⟨anchor, []⟩ : Work Unit).run tree = _
    rw [ensure, run_bind, run_tryMake, occupied]
    exact settled
  · have backward : (front.concat last).reverse = last :: front.reverse := by simp
    have forward : (last :: front.reverse).reverse = front.concat last := by simp
    simp only [backward, run_makeWay_cons, forward, occupied, settled]

/-- Nothing is prepared for a target at which a file stands. -/
theorem prepare_eq_self {tree : FileTree} {target : Path} {goal : Place} {content : Bytes}
    (normal : target.Normal) (received : tree.receives? target.toText = some goal)
    (found : tree.node? goal = some (.file content))
    : (Publication.prepare target : Work Unit).run tree = (.ok (), tree) := by
  obtain ⟨directory, located, around⟩ := locate_parent normal received
  have goalLocated := (receives?_eq_some_iff.mp received).1
  refine prepare_eq_ok_iff.mpr ⟨?_, makeDirectories_eq_self located around⟩
  simp [directoryAt, kind, find, goalLocated, found, kindOf, Except.map]

--------------------------------------------------------------------------------
-- Staging
--------------------------------------------------------------------------------

/-- A staging file is located with another tag if it is with one that is no shorter. -/
theorem locate_retagged {tree : FileTree} {target : Path} {tag again : Text} {place : Place}
    (normal : target.Normal) (noSlash : '/' ∉ tag) (noSlashAgain : '/' ∉ again)
    (clear : '\x00' ∉ again) (short : (Utf8.encode again).length ≤ (Utf8.encode tag).length)
    (located : tree.locate (Staging.ofTarget target tag).path = .ok place)
    : ∃ other, tree.locate (Staging.ofTarget target again).path = .ok other := by
  obtain ⟨fits, nameShort, directory, way, found, _⟩ := (locate_staging_iff normal noSlash).mp located
  obtain ⟨front, split⟩ :=
    Path.toText_concat target.parent.settled.anchor target.parent.settled.parts
  have shorter : (Utf8.encode (Staging.ofTarget target again).fileName).length
      ≤ (Utf8.encode (Staging.ofTarget target tag).fileName).length := by
    simpa [Staging.fileName, Staging.ofTarget, Utf8.encode] using short
  have fitsAgain : Fits (Staging.ofTarget target again).path := by
    have path (tag : Text) : (Staging.ofTarget target tag).path
        = front ++ (Staging.ofTarget target tag).fileName := split _
    rw [path] at fits ⊢
    obtain ⟨whole, length⟩ := fits
    have clearName : '\x00' ∉ target.name := by
      intro member
      exact whole (by simp [Staging.fileName, Staging.ofTarget, member])
    refine ⟨?_, ?_⟩
    · simp only [List.mem_append, not_or] at whole
      simp [Staging.fileName, Staging.ofTarget, whole.1, clearName, clear]
    · simp only [Utf8.encode, List.flatMap_append, List.length_append] at length shorter ⊢
      omega
  exact ⟨_, (locate_staging_iff normal noSlashAgain).mpr
    ⟨fitsAgain, Nat.le_trans shorter nameShort, directory, way, found, rfl⟩⟩

/-- A place beside a target where its staging file can be made. -/
structure FreeFor (tree : FileTree) (delivery : Delivery) (place : Place) : Prop where
  located : tree.locate (staging delivery).path = .ok place
  free : tree.node? place = none

/-- Other places stay free when a file is put at one, by induction over them. -/
theorem freeFor_insert {tree : FileTree} {deliveries : List Delivery} {places : List Place}
    (free : List.Forall₂ tree.FreeFor deliveries places) {other : Place}
    (otherFree : tree.node? other = none) (new : other ∉ places) (content : Bytes)
    : List.Forall₂ (tree.insert other (.file content)).FreeFor deliveries places := by
  have notDirectory : tree.node? other ≠ some .directory := by simp [otherFree]
  have directories := sameDirectories_insert notDirectory content
  induction free with
  | nil => exact .nil
  | cons first _ ih =>
      obtain ⟨apart, new⟩ := not_or.mp (mt List.mem_cons.mpr new)
      refine .cons ⟨directories.locate_iff.mpr first.located, ?_⟩ (ih new)
      rw [node?_insert tree _ _ (ne_root_of_free notDirectory), if_neg (Ne.symm apart)]
      exact first.free

/-- Deliveries can be staged if the places of their staging files are free and differ, by induction
over the deliveries.
-/
theorem exists_stageAll {tree : FileTree} {deliveries : List Delivery} {places : List Place}
    (free : List.Forall₂ tree.FreeFor deliveries places) (distinct : places.Nodup)
    : ∃ full, tree.stageAll deliveries = .ok full := by
  induction deliveries generalizing tree places with
  | nil => exact ⟨tree, rfl⟩
  | cons delivery deliveries ih =>
      obtain _ | @⟨_, place, _, places, first, rest⟩ := free
      obtain ⟨new, distinct⟩ := List.nodup_cons.mp distinct
      have added : tree.add (staging delivery).path (.file delivery.content)
          = .ok (tree.insert place (.file delivery.content)) :=
        add_eq_ok_iff.mpr ⟨place, first.located, first.free, rfl⟩
      have stillFree := freeFor_insert rest first.free new delivery.content
      obtain ⟨full, staged⟩ := ih stillFree distinct
      exact ⟨full, by rw [stageAll, added]; exact staged⟩

end FileTree

end OpcodeTables
