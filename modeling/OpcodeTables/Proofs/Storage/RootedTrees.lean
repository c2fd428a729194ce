import Mathlib.Data.List.Induction
import OpcodeTables.Proofs.Storage.Operations
import OpcodeTables.Proofs.Storage.PathText

/-! In a rooted tree each node stands in a directory. There a path that never leads back up is
known by its place: it leads to one that has a name for each of its parts, and it leads to
every directory that has these names.
-/

namespace OpcodeTables

namespace FileTree

/-- The current directory is one, and whatever stands somewhere stands in a directory. -/
structure Rooted (tree : FileTree) : Prop where
  current : tree.node? tree.current = some .directory
  above : ∀ place, tree.node? place ≠ none → tree.node? place.tail = some .directory

/-- It is enough to look at the nodes that are stored, since nothing else is found in a tree
but its root.
-/
theorem rooted_of_nodes {tree : FileTree}
    (current : tree.node? tree.current = some .directory)
    (above : ∀ entry ∈ tree.nodes, tree.node? entry.1.tail = some .directory)
    : tree.Rooted := by
  refine ⟨current, ?_⟩
  intro place found
  by_cases root : place = []
  · rw [root]
    exact node?_root tree
  · rw [node?, if_neg root, ne_eq, List.lookup_eq_none_iff] at found
    simp only [not_forall] at found
    obtain ⟨⟨other, node⟩, member, same⟩ := found
    obtain rfl : place = other := by simpa using same
    exact above _ member

theorem Rooted.origin {tree : FileTree} (rooted : tree.Rooted) (anchor : Anchor)
    : tree.node? (tree.origin anchor) = some .directory := by
  unfold FileTree.origin
  split
  · exact rooted.current
  · exact node?_root tree

/-- A way leads into a directory, even if nothing stands at its end, by induction over its
names.
-/
theorem Rooted.walk_tail {tree : FileTree} (rooted : tree.Rooted) {place goal : Place}
    {names : List Text} (start : tree.node? place.tail = some .directory)
    (found : tree.walk place names = .ok goal)
    : tree.node? goal.tail = some .directory := by
  induction names generalizing place with
  | nil =>
      obtain rfl : place = goal := by simpa [walk] using found
      exact start
  | cons name names ih =>
      obtain ⟨directory, _, rest⟩ := walk_cons_iff.mp found
      refine ih ?_ rest
      unfold step
      split
      · exact start
      · split
        · exact rooted.above _ (by simp [start])
        · exact directory

/-- A path leads into a directory. -/
theorem Rooted.locate_tail {tree : FileTree} (rooted : tree.Rooted) {text : Text} {goal : Place}
    (found : tree.locate text = .ok goal)
    : tree.node? goal.tail = some .directory := by
  have start : tree.node? (tree.start text) = some .directory := by
    unfold FileTree.start
    split
    · exact node?_root tree
    · exact rooted.current
  unfold locate at found
  split at found
  · cases found
  · split at found
    · cases found
    · split at found
      · cases found
      · exact rooted.walk_tail (rooted.above _ (by simp [start])) found

/-- A directory is only added in a directory. -/
theorem Rooted.add {tree next : FileTree} (rooted : tree.Rooted) {text : Text}
    (added : tree.add text .directory = .ok next)
    : next.Rooted := by
  obtain ⟨place, located, free, rfl⟩ := add_eq_ok_iff.mp added
  have into := rooted.locate_tail located
  have notRoot : place ≠ [] := by
    rintro rfl
    simp at free
  have kept {other : Place} (found : tree.node? other = some .directory)
      : (tree.insert place .directory).node? other = some .directory := by
    rw [node?_insert tree _ other notRoot]
    split
    · rfl
    · exact found
  refine ⟨kept rooted.current, ?_⟩
  intro other found
  by_cases same : other = place
  · exact kept (same ▸ into)
  · rw [node?_insert tree _ other notRoot, if_neg same] at found
    exact kept (rooted.above other found)

/-- A name that leads further into the tree. -/
def Onward (name : Text) : Prop :=
  name ≠ Path.same ∧ name ≠ Path.above

theorem Onward.step_eq {name : Text} (onward : Onward name) (place : Place)
    : step place name = name :: place := by
  rw [step, if_neg onward.1, if_neg onward.2]

/-- A way onward leads to the place with all its names, by induction over them. -/
theorem walk_onward {tree : FileTree} {place goal : Place} {names : List Text}
    (onward : ∀ name ∈ names, Onward name) (found : tree.walk place names = .ok goal)
    : goal = names.reverse ++ place := by
  induction names generalizing place with
  | nil => simpa [walk, eq_comm] using found
  | cons name names ih =>
      obtain ⟨_, _, rest⟩ := walk_cons_iff.mp found
      rw [(onward name (by simp)).step_eq] at rest
      rw [ih (fun other member => onward other (by simp [member])) rest]
      simp

theorem walk_short {tree : FileTree} {place goal : Place} {names : List Text}
    (found : tree.walk place names = .ok goal)
    : ∀ name ∈ names, (Utf8.encode name).length ≤ nameLimit := by
  induction names generalizing place with
  | nil => simp
  | cons name names ih =>
      obtain ⟨_, short, rest⟩ := walk_cons_iff.mp found
      simpa [short] using ih rest

/-- A way onward leads to each directory that has its names, as the directories on the way are
there too, by induction over the names from the last one on.
-/
theorem Rooted.walk_onward {tree : FileTree} (rooted : tree.Rooted) {place : Place}
    {names : List Text} (onward : ∀ name ∈ names, Onward name)
    (short : ∀ name ∈ names, (Utf8.encode name).length ≤ nameLimit)
    (found : tree.node? (names.reverse ++ place) = some .directory)
    : tree.walk place names = .ok (names.reverse ++ place) := by
  induction names using List.reverseRecOn with
  | nil => rfl
  | append_singleton names name ih =>
      have whole : (names ++ [name]).reverse ++ place = name :: (names.reverse ++ place) := by simp
      rw [whole] at found ⊢
      have above : tree.node? (names.reverse ++ place) = some .directory :=
        rooted.above (name :: (names.reverse ++ place)) (by simp [found])
      have front := ih (fun other member => onward other (by simp [member]))
        (fun other member => short other (by simp [member])) above
      refine walk_append_iff.mpr ⟨_, front, walk_cons_iff.mpr ⟨above, short name (by simp), ?_⟩⟩
      rw [(onward name (by simp)).step_eq]
      rfl

/-- A path whose last part leads onward leads there from the directory that its other parts
lead to.
-/
theorem locate_concat_iff {tree : FileTree} {anchor : Anchor} {parts : List Text} {last : Text}
    {place : Place} (normal : Path.Normal ⟨anchor, parts ++ [last]⟩) (onward : Onward last)
    : tree.locate (Path.toText ⟨anchor, parts ++ [last]⟩) = .ok place
      ↔ Fits (Path.toText ⟨anchor, parts ++ [last]⟩)
        ∧ (Utf8.encode last).length ≤ nameLimit
        ∧ ∃ directory,
            tree.walk (tree.origin anchor) parts = .ok directory
            ∧ tree.node? directory = some .directory
            ∧ place = last :: directory := by
  rw [locate_toText_iff normal, Path.steps, if_neg (by simp)]
  simp only [walk_append_iff, walk_cons_iff, onward.step_eq]
  simp only [walk, Except.ok.injEq]
  constructor
  · rintro ⟨fits, directory, front, found, short, rfl⟩
    exact ⟨fits, short, directory, front, found, rfl⟩
  · rintro ⟨fits, short, directory, front, found, rfl⟩
    exact ⟨fits, directory, front, found, short, rfl⟩

end FileTree

namespace Path

/-- A path whose parts all lead onward. -/
def Direct (path : Path) : Prop :=
  path.Normal ∧ above ∉ path.parts

theorem Direct.onward {path : Path} (direct : path.Direct)
    : ∀ part ∈ path.parts, FileTree.Onward part := by
  intro part member
  exact ⟨(direct.1 part member).notSame, fun same => direct.2 (same ▸ member)⟩

/-- What is in front of a direct path is direct. -/
theorem Direct.beginning {path : Path} {parts : List Text} (direct : path.Direct)
    (front : parts <+: path.parts)
    : Direct ⟨path.anchor, parts⟩ :=
  ⟨fun part member => direct.1 part (front.subset member),
    fun member => direct.2 (front.subset member)⟩

/-- A direct path leads to the place with all its parts. -/
theorem Direct.locate_eq {tree : FileTree} {path : Path} {place : Place} (direct : path.Direct)
    (found : tree.locate path.toText = .ok place)
    : place = path.parts.reverse ++ tree.origin path.anchor := by
  obtain ⟨_, way⟩ := (FileTree.locate_toText_iff direct.1).mp found
  unfold steps at way
  split at way
  · next empty =>
      obtain ⟨_, _, rest⟩ := FileTree.walk_cons_iff.mp way
      rw [FileTree.step, if_pos rfl, FileTree.walk, Except.ok.injEq] at rest
      simp [empty, rest]
  · exact FileTree.walk_onward direct.onward way

/-- The direct way through a direct path has all its parts. -/
theorem settleFrom_direct {anchor : Anchor} {parts : List Text} (onward : above ∉ parts)
    (done : List Text)
    : settleFrom anchor done parts = done.reverse ++ parts := by
  induction parts generalizing done with
  | nil => simp [settleFrom]
  | cons part parts ih =>
      obtain ⟨first, rest⟩ := not_or.mp (mt List.mem_cons.mpr onward)
      rw [settleFrom, if_neg (Ne.symm first), ih rest]
      simp

theorem Direct.settled_eq {path : Path} (direct : path.Direct) : path.settled = path := by
  rw [settled, settleFrom_direct direct.2]
  rfl

end Path

end OpcodeTables
