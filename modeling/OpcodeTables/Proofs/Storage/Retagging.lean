import Mathlib.Data.List.Forall2
import OpcodeTables.Failure
import OpcodeTables.Proofs.Storage.ClearNames
import OpcodeTables.Proofs.Storage.Rewriting

/-! Staging with other tags. Where all staging files would be new ones, it is the ways to the targets
and the lengths of the names that decide whether they can be made, and other tags of the same length
lead to the same exit status.
-/

namespace OpcodeTables

namespace FileTree

open Publication

--------------------------------------------------------------------------------
-- Available names
--------------------------------------------------------------------------------

/-- The staging files of some deliveries would all be new ones in a tree, and different. -/
structure Available (tree : FileTree) (deliveries : List Delivery) : Prop where
  free
    : ∀ delivery ∈ deliveries, ∀ place,
        tree.locate (staging delivery).path = .ok place → tree.node? place = none
  apart
    : deliveries.Pairwise fun delivery other =>
        ∀ place,
          tree.locate (staging delivery).path = .ok place
          → tree.locate (staging other).path ≠ .ok place

/-- The names of the other deliveries stay available when the first one is staged. -/
theorem Available.insert {tree : FileTree} {delivery : Delivery} {deliveries : List Delivery}
    (available : tree.Available (delivery :: deliveries)) {place : Place}
    (located : tree.locate (staging delivery).path = .ok place) (content : Bytes)
    : let next := tree.insert place (.file content)
      tree.SameDirectories next ∧ next.Available deliveries := by
  have free := available.free delivery List.mem_cons_self place located
  have notDirectory : tree.node? place ≠ some .directory := by simp [free]
  have directories := sameDirectories_insert notDirectory content
  obtain ⟨elsewhere, apart⟩ := List.pairwise_cons.mp available.apart
  refine ⟨directories, ?_, ?_⟩
  · intro other member goal otherLocated
    rw [directories.locate_iff] at otherLocated
    have different : goal ≠ place := by
      rintro rfl
      exact elsewhere other member goal located otherLocated
    rw [node?_insert tree _ goal (ne_root_of_free notDirectory), if_neg different]
    exact available.free other (List.mem_cons_of_mem _ member) goal otherLocated
  · refine apart.imp ?_
    intro other later different goal otherLocated
    rw [directories.locate_iff] at otherLocated
    rw [ne_eq, directories.locate_iff]
    exact different goal otherLocated

--------------------------------------------------------------------------------
-- Other tags
--------------------------------------------------------------------------------

/-- Two deliveries whose staging files can be made in the same trees. -/
structure Alike (tree : FileTree) (delivery again : Delivery) : Prop where
  located
    : (∃ place, tree.locate (staging again).path = .ok place)
      ↔ ∃ place, tree.locate (staging delivery).path = .ok place
  null : '\x00' ∈ (staging again).path ↔ '\x00' ∈ (staging delivery).path

theorem Alike.of_same {tree next : FileTree} (same : tree.SameDirectories next)
    {delivery again : Delivery} (alike : tree.Alike delivery again)
    : next.Alike delivery again := by
  refine ⟨?_, alike.null⟩
  simp only [same.locate_iff]
  exact alike.located

end FileTree

end OpcodeTables
