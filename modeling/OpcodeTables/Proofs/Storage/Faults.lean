import OpcodeTables.Proofs.Storage.Preparation
import OpcodeTables.Traced

/-! The faults that preparing targets can end with. An operation tells one of the system, unless the
text of the path has a null character; and the work as a whole can end because a way is out of reach,
which happens before anything is made on that way.
-/

namespace OpcodeTables

/-- The fault is one that an operation can tell of the text of a path. -/
def FileFault.Told (fault : FileFault) (text : Text) : Prop :=
  fault.ofSystem ∨ fault = .nullInName ∧ '\x00' ∈ text

theorem FileFault.Told.ofSystem {fault : FileFault} {text : Text} (told : fault.Told text)
    (clear : '\x00' ∉ text)
    : fault.ofSystem :=
  told.resolve_right fun null => clear null.2

theorem FileFault.Told.null {text : Text} (told : FileFault.Told .nullInName text)
    : '\x00' ∈ text :=
  (told.resolve_left (by decide)).2

namespace FileTree

open Storage

--------------------------------------------------------------------------------
-- Operations
--------------------------------------------------------------------------------

/-- A way that cannot be followed ends with a fault of the system, by induction over its names. -/
theorem walk_ofSystem {tree : FileTree} {place : Place} {names : List Text} {fault : FileFault}
    (failed : tree.walk place names = .error fault)
    : fault.ofSystem := by
  induction names generalizing place with
  | nil => cases failed
  | cons name names ih =>
      unfold walk at failed
      split at failed
      · cases failed
        rfl
      · cases failed
        rfl
      · split at failed
        · cases failed
          rfl
        · exact ih failed

theorem locate_told {tree : FileTree} {text : Text} {fault : FileFault}
    (failed : tree.locate text = .error fault)
    : fault.Told text := by
  unfold locate at failed
  split at failed
  · next null =>
      cases failed
      exact Or.inr ⟨rfl, null⟩
  · split at failed
    · cases failed
      exact Or.inl rfl
    · split at failed
      · cases failed
        exact Or.inl rfl
      · exact Or.inl (walk_ofSystem failed)

theorem find_told {tree : FileTree} {text : Text} {fault : FileFault}
    (failed : tree.find text = .error fault)
    : fault.Told text := by
  unfold find at failed
  split at failed
  · next unlocated =>
      cases failed
      exact locate_told unlocated
  · split at failed
    · cases failed
      exact Or.inl rfl
    · cases failed

theorem kind_told {tree : FileTree} {text : Text} {fault : FileFault}
    (failed : tree.kind text = .error fault)
    : fault.Told text :=
  find_told (map_eq_error_iff.mp failed)

/-- The directory at the end of a way cannot be made for want of one before it, nor can that one, and
so on, further than the reach goes back. The names are given last name first.
-/
structure OutOfReach (tree : FileTree) (anchor : Anchor) (names : List Text) (reach : Nat)
    : Prop where
  long : reach < names.length
  missing
    : ∀ n ≤ reach,
        tree.add (Path.toText ⟨anchor, (names.drop n).reverse⟩) .directory = .error .notFound

/-- A way is gone back on until the reach is used up, by induction over the names. -/
theorem OutOfReach.run_makeWay {tree : FileTree} {anchor : Anchor} {names : List Text} {reach : Nat}
    (outOfReach : OutOfReach tree anchor names reach)
    : ∃ path,
        (makeWay anchor names reach : Work Unit).run tree
          = (.error (.failed .outOfReach path), tree) := by
  induction names generalizing reach with
  | nil => exact absurd outOfReach.long (Nat.not_lt_zero reach)
  | cons name names ih =>
      have first : tree.add (Path.toText ⟨anchor, (name :: names).reverse⟩) .directory
          = .error .notFound :=
        outOfReach.missing 0 (Nat.zero_le reach)
      rw [run_makeWay_cons, first]
      cases reach with
      | zero => exact ⟨_, rfl⟩
      | succ reach =>
          obtain ⟨path, rest⟩ := ih
            ⟨Nat.lt_of_succ_lt_succ outOfReach.long, fun n bound =>
              outOfReach.missing (n + 1) (Nat.succ_le_succ bound)⟩
          refine ⟨path, ?_⟩
          simp only [Nat.add_one_ne_zero, if_false, Nat.add_sub_cancel, run_bind, rest]

end FileTree

end OpcodeTables
