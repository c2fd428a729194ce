import OpcodeTables.Proofs.Storage.PublicationEffect

/-! Where a publication can change anything, whether it ends well or with an error: at its targets,
and on the ways to them, where it makes directories.
-/

namespace OpcodeTables.FileTree

open Publication

/-- A way to a target leads to the place before it reaches the target itself. -/
def OnWay (tree : FileTree) (target : Path) (place : Place) : Prop :=
  ∃ parts,
    parts <+: target.parent.parts
    ∧ tree.locate (Path.toText ⟨target.anchor, parts⟩) = .ok place

theorem KeepsDirectories.onWay {tree next : FileTree} (keeps : tree.KeepsDirectories next)
    {target : Path} {place : Place} (onWay : tree.OnWay target place)
    : next.OnWay target place := by
  obtain ⟨parts, front, located⟩ := onWay
  exact ⟨parts, front, keeps.locate_eq located⟩

--------------------------------------------------------------------------------
-- Preparation
--------------------------------------------------------------------------------

/-- Directories are added, and each of them on the way to a target. -/
structure Prepared (deliveries : List Delivery) (tree made : FileTree) : Prop where
  keeps : tree.KeepsDirectories made
  new
    : ∀ place,
        made.node? place = some .directory
        → tree.node? place = some .directory
          ∨ ∃ delivery ∈ deliveries, made.OnWay delivery.target place

theorem keepsDirectories_of_add {tree next : FileTree} {text : Text}
    (added : tree.add text .directory = .ok next)
    : tree.KeepsDirectories next := by
  obtain ⟨place, _, free, rfl⟩ := add_eq_ok_iff.mp added
  have notDirectory : tree.node? place ≠ some .directory := by simp [free]
  have notRoot := ne_root_of_free notDirectory
  refine ⟨rfl, ?_⟩
  intro other found
  rw [node?_insert tree _ other notRoot]
  split
  · rfl
  · exact found

theorem Prepared.add {deliveries : List Delivery} {tree made next : FileTree}
    (prepared : Prepared deliveries tree made) {delivery : Delivery}
    (member : delivery ∈ deliveries) {parts : List Text}
    (front : parts <+: delivery.target.parent.parts)
    (added : made.add (Path.toText ⟨delivery.target.anchor, parts⟩) .directory = .ok next)
    : Prepared deliveries tree next := by
  have keeps := keepsDirectories_of_add added
  obtain ⟨place, located, free, rfl⟩ := add_eq_ok_iff.mp added
  have notDirectory : made.node? place ≠ some .directory := by simp [free]
  have notRoot := ne_root_of_free notDirectory
  refine ⟨prepared.keeps.trans keeps, ?_⟩
  intro other found
  rw [node?_insert made _ other notRoot] at found
  split at found
  · next here =>
      exact Or.inr ⟨delivery, member, parts, front, here ▸ keeps.locate_eq located⟩
  · apply (prepared.new other found).imp_right
    intro ⟨earlier, known, onWay⟩
    exact ⟨earlier, known, keeps.onWay onWay⟩

theorem prepareAll_prepared (deliveries : List Delivery) (tree : FileTree)
    : Prepared deliveries tree ((prepareAll deliveries).run tree).2 := by
  apply prepareAll_keeps_ways (P := Prepared deliveries tree)
  · exact fun member front holds => holds.add member front
  · exact ⟨⟨rfl, fun _ found => found⟩, fun _ found => Or.inl found⟩

--------------------------------------------------------------------------------
-- Staging and replacement
--------------------------------------------------------------------------------

/-- The directories are kept as they are, and a file that differs is one that has been delivered at
its target.
-/
structure Delivered (deliveries : List Delivery) (made after : FileTree) : Prop where
  directories : made.SameDirectories after
  changed
    : ∀ place,
        after.file? place ≠ made.file? place
        → ∃ delivery ∈ deliveries,
            made.receives? delivery.target.toText = some place
            ∧ after.file? place = some delivery.content

/-- Files that are the same everywhere are delivered nowhere. -/
theorem SameOutside.delivered {made after : FileTree} (same : made.SameOutside [] after)
    (deliveries : List Delivery)
    : Delivered deliveries made after :=
  ⟨same.directories, fun place changed => absurd (same.sameFiles place) changed⟩

theorem Delivered.trans_same {deliveries : List Delivery} {made straight after : FileTree}
    (delivered : Delivered deliveries made straight) (same : straight.SameOutside [] after)
    : Delivered deliveries made after := by
  refine ⟨delivered.directories.trans same.directories, ?_⟩
  intro place changed
  rw [same.sameFiles place] at changed ⊢
  exact delivered.changed place changed

/-- Straight delivery changes files at the targets only, by induction over the deliveries. Where
two of them have one target the later one counts.
-/
theorem deliver_delivered (deliveries : List Delivery) (tree : FileTree)
    : Delivered deliveries tree (tree.deliver deliveries).1 := by
  induction deliveries generalizing tree with
  | nil => exact (SameOutside.refl [] tree).delivered []
  | cons delivery deliveries ih =>
      unfold deliver
      cases received : tree.receives? delivery.target.toText with
      | none => exact (SameOutside.refl [] tree).delivered _
      | some goal =>
          have free := (receives?_eq_some_iff.mp received).2.2
          have placed := sameDirectories_insert free delivery.content
          have later := ih (tree.insert goal (.file delivery.content))
          refine ⟨placed.trans later.directories, ?_⟩
          intro place changed
          by_cases untouched
            : ((tree.insert goal (.file delivery.content)).deliver deliveries).1.file? place
              = (tree.insert goal (.file delivery.content)).file? place
          · rw [untouched, file?_insert free] at changed ⊢
            split at changed
            · next here => exact ⟨delivery, List.mem_cons_self, by rw [received, here], if_pos here⟩
            · exact absurd rfl changed
          · obtain ⟨other, member, found, content⟩ := later.changed place untouched
            rw [placed.receives?_eq] at found
            exact ⟨other, List.mem_cons_of_mem _ member, found, content⟩

/-- What a publication has changed once its targets are prepared, however it ends. -/
theorem publish_delivered {deliveries : List Delivery} (fresh : Fresh deliveries)
    (tree : FileTree)
    : Delivered deliveries ((prepareAll deliveries).run tree).2
        ((publish deliveries : StateM FileTree Publication) tree).2 := by
  rw [publish_eq]
  rcases (prepareAll deliveries).run tree with ⟨error | _, made⟩
  · exact (SameOutside.refl [] made).delivered deliveries
  · have effect := withStaged_effect made fresh
    cases staged : made.stageAll deliveries with
    | error error =>
        rw [staged] at effect
        exact effect.2.delivered deliveries
    | ok full =>
        rw [staged] at effect
        exact (deliver_delivered deliveries made).trans_same effect.2

end OpcodeTables.FileTree
