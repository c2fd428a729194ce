import OpcodeTables.Proofs.Storage.Faults
import OpcodeTables.Proofs.Storage.GivenPaths

/-! Ways on which directories are missing. Where one is missing, none after it can be made before it,
so a way is out of reach if more directories are missing on it than can be made in one go.
-/

namespace OpcodeTables.FileTree

open Storage

/-- A way goes on from where its first names lead, by induction over them. -/
theorem walk_append {tree : FileTree} {place middle : Place} {names : List Text}
    (first : tree.walk place names = .ok middle) (others : List Text)
    : tree.walk place (names ++ others) = tree.walk middle others := by
  induction names generalizing place with
  | nil =>
      obtain rfl := Except.ok.inj first
      rfl
  | cons name names ih =>
      obtain ⟨found, short, rest⟩ := walk_cons_iff.mp first
      rw [List.cons_append, walk, found]
      simp only [if_neg (Nat.not_lt.mpr short)]
      exact ih rest

/-- The parts of a path lead to a directory in which the next one is missing, with others after it. -/
structure Missing (tree : FileTree) (anchor : Anchor) (parts : List Text) (name : Text)
    (rest : List Text) : Prop where
  normal : Path.Normal ⟨anchor, parts ++ name :: rest⟩
  fits : Fits (Path.toText ⟨anchor, parts ++ name :: rest⟩)
  short : (Utf8.encode name).length ≤ nameLimit
  gone
    : ∃ place,
        tree.walk (tree.origin anchor) parts = .ok place
        ∧ tree.node? place = some .directory
        ∧ tree.node? (step place name) = none

/-- Some of the names after the missing one can be left out at the end. -/
theorem Missing.beginning {tree : FileTree} {anchor : Anchor} {parts rest front : List Text}
    {name : Text} (missing : tree.Missing anchor parts name rest) (shorter : front <+: rest)
    : tree.Missing anchor parts name front := by
  have fewer : (parts ++ name :: front).Sublist (parts ++ name :: rest) :=
    (shorter.sublist.cons_cons name).append_left parts
  refine ⟨?_, ?_, missing.short, missing.gone⟩
  · intro part member
    exact missing.normal part (fewer.subset member)
  · exact missing.fits.of_sublist (Path.toText_sublist (by simp) fewer)

/-- What comes after a missing directory cannot be found. -/
theorem Missing.locate_eq {tree : FileTree} {anchor : Anchor} {parts rest : List Text} {name : Text}
    (missing : tree.Missing anchor parts name rest) (further : rest ≠ [])
    : tree.locate (Path.toText ⟨anchor, parts ++ name :: rest⟩) = .error .notFound := by
  obtain ⟨place, way, found, gone⟩ := missing.gone
  obtain ⟨clear, length⟩ := missing.fits
  have short := Nat.not_lt.mpr missing.short
  rw [locate, if_neg clear, if_neg (toText_ne_nil missing.normal), if_neg (Nat.not_lt.mpr length),
    start_toText tree missing.normal, Path.route_toText missing.normal, Path.steps,
    if_neg (by simp), walk_append way, walk, found]
  simp only [if_neg short]
  cases rest with
  | nil => exact absurd rfl further
  | cons other rest => rw [walk, gone]

/-- A way is out of reach if more names come after the missing one than the reach goes back over. -/
theorem Missing.outOfReach {tree : FileTree} {anchor : Anchor} {parts rest : List Text} {name : Text}
    (missing : tree.Missing anchor parts name rest) {reach : Nat} (far : reach < rest.length)
    : OutOfReach tree anchor (parts ++ name :: rest).reverse reach := by
  refine ⟨?_, ?_⟩
  · simp only [List.length_reverse, List.length_append, List.length_cons]
    omega
  · intro n bound
    obtain ⟨front, back, cut, length⟩ : ∃ front back, front ++ back = rest ∧ back.length = n :=
      ⟨_, _, List.take_append_drop (rest.length - n) rest, by rw [List.length_drop]; omega⟩
    have further : front ≠ [] := by
      rintro rfl
      rw [← cut, List.nil_append] at far
      omega
    have turned : (parts ++ name :: rest).reverse
        = back.reverse ++ (parts ++ name :: front).reverse := by
      simp [← cut]
    have left : ((parts ++ name :: rest).reverse.drop n).reverse = parts ++ name :: front := by
      rw [turned, List.drop_left' (by rw [List.length_reverse, length]), List.reverse_reverse]
    rw [left, add, (missing.beginning ⟨back, cut⟩).locate_eq further]

/-- Nothing is made for a target if the way to its directory is out of reach. -/
theorem Missing.run_prepare {tree : FileTree} {anchor : Anchor} {parts rest : List Text}
    {name last : Text} (missing : tree.Missing anchor parts name (rest ++ [last]))
    (far : tree.reach < rest.length)
    : ∃ path,
        (Publication.prepare ⟨anchor, parts ++ name :: (rest ++ [last])⟩ : Work Unit).run tree
          = (.error (.failed .outOfReach path), tree) := by
  have told : tree.directoryAt ⟨anchor, parts ++ name :: (rest ++ [last])⟩ = .ok false := by
    rw [directoryAt, kind, find, missing.locate_eq (by simp)]
    rfl
  have parent : Path.parent ⟨anchor, parts ++ name :: (rest ++ [last])⟩
      = ⟨anchor, parts ++ name :: rest⟩ := by
    rw [Path.parent, ← List.cons_append, ← List.append_assoc, List.dropLast_concat]
  obtain ⟨path, ended⟩ :=
    ((missing.beginning (List.prefix_append rest [last])).outOfReach far).run_makeWay
  refine ⟨path, ?_⟩
  rw [FileTree.run_prepare, told, parent]
  exact ended

end OpcodeTables.FileTree
