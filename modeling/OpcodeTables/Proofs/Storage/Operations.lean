import OpcodeTables.Storage.FileTree

/-! What single operations do to a tree. Directories are never lost, so a path that leads to a
place leads there ever after; and an operation changes the nodes at one or two places only.
-/

namespace OpcodeTables.FileTree

@[simp] theorem node?_root (tree : FileTree) : tree.node? [] = some .directory := by
  simp [node?]

theorem ne_root_of_free {tree : FileTree} {place : Place}
    (free : tree.node? place ≠ some .directory)
    : place ≠ [] := by
  rintro rfl
  exact free (node?_root tree)

/-- A way begins in a directory, with a name that is not too long, and goes on from where it
leads.
-/
theorem walk_cons_iff {tree : FileTree} {place goal : Place} {name : Text} {names : List Text}
    : tree.walk place (name :: names) = .ok goal
      ↔ tree.node? place = some .directory
        ∧ (Utf8.encode name).length ≤ nameLimit
        ∧ tree.walk (step place name) names = .ok goal := by
  rw [walk]
  split
  · simp_all
  · simp_all
  · next found =>
      split
      · simp only [reduceCtorEq, false_iff]
        omega
      · simp_all

/-- A way through some names and then others, by induction over the first ones. -/
theorem walk_append_iff {tree : FileTree} {place goal : Place} {names others : List Text}
    : tree.walk place (names ++ others) = .ok goal
      ↔ ∃ middle, tree.walk place names = .ok middle ∧ tree.walk middle others = .ok goal := by
  induction names generalizing place with
  | nil => simp [walk]
  | cons name names ih =>
      simp only [List.cons_append, walk_cons_iff, ih]
      constructor
      · rintro ⟨directory, short, middle, first, second⟩
        exact ⟨middle, ⟨directory, short, first⟩, second⟩
      · rintro ⟨middle, ⟨directory, short, first⟩, second⟩
        exact ⟨directory, short, middle, first, second⟩

/-- What is a directory in one tree is one in another, with the same current directory. -/
structure KeepsDirectories (tree next : FileTree) : Prop where
  current : next.current = tree.current
  directory : ∀ place, tree.node? place = some .directory → next.node? place = some .directory

theorem KeepsDirectories.trans {tree middle next : FileTree}
    (first : tree.KeepsDirectories middle) (second : middle.KeepsDirectories next)
    : tree.KeepsDirectories next :=
  ⟨second.current.trans first.current,
    fun place found => second.directory place (first.directory place found)⟩

/-- A way leads to the same place as long as no directory is lost, by induction over the
names.
-/
theorem KeepsDirectories.walk_eq {tree next : FileTree} (keeps : tree.KeepsDirectories next)
    {place goal : Place} {names : List Text} (found : tree.walk place names = .ok goal)
    : next.walk place names = .ok goal := by
  induction names generalizing place with
  | nil => exact found
  | cons name names ih =>
      obtain ⟨directory, short, rest⟩ := walk_cons_iff.mp found
      exact walk_cons_iff.mpr ⟨keeps.directory place directory, short, ih rest⟩

/-- A path leads to the same place as long as no directory is lost. -/
theorem KeepsDirectories.locate_eq {tree next : FileTree} (keeps : tree.KeepsDirectories next)
    {text : Text} {place : Place} (found : tree.locate text = .ok place)
    : next.locate text = .ok place := by
  unfold locate start at found ⊢
  rw [keeps.current]
  split at found
  · cases found
  · split at found
    · cases found
    · split at found
      · cases found
      · simp_all [keeps.walk_eq found]

/-- Two trees have the same directories and the same current one. -/
structure SameDirectories (tree next : FileTree) : Prop where
  current : next.current = tree.current
  directory : ∀ place, next.node? place = some .directory ↔ tree.node? place = some .directory

theorem SameDirectories.keeps {tree next : FileTree} (same : tree.SameDirectories next)
    : tree.KeepsDirectories next :=
  ⟨same.current, fun place => (same.directory place).mpr⟩

theorem SameDirectories.refl (tree : FileTree) : tree.SameDirectories tree :=
  ⟨rfl, fun _ => Iff.rfl⟩

theorem SameDirectories.symm {tree next : FileTree} (same : tree.SameDirectories next)
    : next.SameDirectories tree :=
  ⟨same.current.symm, fun place => (same.directory place).symm⟩

theorem SameDirectories.trans {tree middle next : FileTree}
    (first : tree.SameDirectories middle) (second : middle.SameDirectories next)
    : tree.SameDirectories next :=
  ⟨second.current.trans first.current,
    fun place => (second.directory place).trans (first.directory place)⟩

theorem SameDirectories.locate_iff {tree next : FileTree} (same : tree.SameDirectories next)
    {text : Text} {place : Place}
    : next.locate text = .ok place ↔ tree.locate text = .ok place :=
  ⟨same.symm.keeps.locate_eq, same.keeps.locate_eq⟩

/-- A file that is put where no directory stands leaves the directories. -/
theorem sameDirectories_insert {tree : FileTree} {place : Place}
    (free : tree.node? place ≠ some .directory) (content : Bytes)
    : tree.SameDirectories (tree.insert place (.file content)) := by
  have notRoot := ne_root_of_free free
  refine ⟨rfl, ?_⟩
  intro other
  rw [node?_insert tree _ other notRoot]
  split
  · next same => simp [same, free]
  · rfl

/-- Taking away what is no directory leaves the directories. -/
theorem sameDirectories_erase {tree : FileTree} {place : Place}
    (free : tree.node? place ≠ some .directory)
    : tree.SameDirectories (tree.erase place) := by
  have notRoot := ne_root_of_free free
  refine ⟨rfl, ?_⟩
  intro other
  rw [node?_erase tree other notRoot]
  split
  · next same => simp [same, free]
  · rfl

/-- What is read is the content of the file that the path leads to. -/
theorem read_eq_ok_iff {tree : FileTree} {text : Text} {content : Bytes}
    : tree.read text = .ok content
      ↔ ∃ place, tree.locate text = .ok place ∧ tree.node? place = some (.file content) := by
  unfold read find
  cases tree.locate text with
  | error fault => simp
  | ok place =>
      cases found : tree.node? place with
      | none => simp [found]
      | some node => cases node <;> simp [found]

/-- A file is read at the place that its path leads to. -/
theorem read_of_locate {tree : FileTree} {text : Text} {place : Place} {content : Bytes}
    (located : tree.locate text = .ok place) (found : tree.node? place = some (.file content))
    : tree.read text = .ok content :=
  read_eq_ok_iff.mpr ⟨place, located, found⟩

/-- A file is told where one can be read. -/
theorem kind_eq_file_iff {tree : FileTree} {text : Text}
    : tree.kind text = .ok .file ↔ ∃ content, tree.read text = .ok content := by
  unfold kind read
  cases found : tree.find text with
  | error fault => simp [Except.map]
  | ok entry =>
      obtain ⟨place, node⟩ := entry
      cases node <;> simp [Except.map, kindOf]

/-- Adding works where a path leads to a place with nothing there. -/
theorem add_eq_ok_iff {tree next : FileTree} {text : Text} {node : Node}
    : tree.add text node = .ok next
      ↔ ∃ place,
          tree.locate text = .ok place
          ∧ tree.node? place = none
          ∧ tree.insert place node = next := by
  unfold add
  cases tree.locate text with
  | error fault => simp
  | ok place => cases found : tree.node? place <;> simp [found]

/-- The place where a path receives a file: its last name is a name of its own, and no directory
stands there.
-/
def receives? (tree : FileTree) (text : Text) : Option Place :=
  match tree.locate text with
  | .error _ => none
  | .ok goal =>
    if endsOnTheWay text ∨ tree.node? goal = some .directory then none else some goal

theorem receives?_eq_some_iff {tree : FileTree} {text : Text} {goal : Place}
    : tree.receives? text = some goal
      ↔ tree.locate text = .ok goal
        ∧ endsOnTheWay text = false
        ∧ tree.node? goal ≠ some .directory := by
  unfold receives?
  cases tree.locate text with
  | error fault => simp
  | ok place =>
      simp only [Option.ite_none_left_eq_some, not_or, Bool.not_eq_true, Option.some.injEq,
        Except.ok.injEq]
      constructor
      · rintro ⟨⟨named, free⟩, rfl⟩
        exact ⟨rfl, named, free⟩
      · rintro ⟨rfl, named, free⟩
        exact ⟨⟨named, free⟩, rfl⟩

/-- With the same directories, paths receive files in the same places. -/
theorem SameDirectories.receives?_eq {tree next : FileTree} (same : tree.SameDirectories next)
    (text : Text)
    : next.receives? text = tree.receives? text := by
  refine Option.ext ?_
  intro goal
  rw [receives?_eq_some_iff, receives?_eq_some_iff, same.locate_iff, ne_eq, ne_eq, same.directory]

/-- A file is moved to a path exactly if the path receives it. -/
theorem move_eq {tree : FileTree} {source : Text} (target : Text) {place : Place} {content : Bytes}
    (located : tree.locate source = .ok place) (found : tree.node? place = some (.file content))
    : match tree.receives? target with
      | some goal =>
        tree.move source target = .ok ((tree.erase place).insert goal (.file content))
      | none => ∃ fault, tree.move source target = .error fault := by
  unfold receives?
  cases targetLocated : tree.locate target with
  | error fault => exact ⟨fault, by simp [move, find, located, found, targetLocated]⟩
  | ok goal =>
      cases named : endsOnTheWay target with
      | true => exact ⟨.busy, by simp [move, find, located, found, targetLocated, named]⟩
      | false =>
          by_cases occupied : tree.node? goal = some .directory
          · simpa [occupied] using (⟨.isDirectory,
              by simp [move, find, located, found, targetLocated, named, occupied]⟩
                : ∃ fault, tree.move source target = .error fault)
          · simp [occupied, move, find, located, found, targetLocated, named]

/-- Removing empties the place that a path leads to, unless a directory stands there. -/
theorem node?_remove {tree : FileTree} {text : Text} {place : Place}
    (located : tree.locate text = .ok place) (free : tree.node? place ≠ some .directory)
    (other : Place)
    : (tree.remove text).node? other = if other = place then none else tree.node? other := by
  have notRoot := ne_root_of_free free
  unfold remove find
  rw [located]
  cases found : tree.node? place with
  | none =>
      simp only [found]
      split
      · next same => rw [same, found]
      · rfl
  | some node =>
      cases node with
      | directory => exact absurd found free
      | file content => simp only [found, node?_erase tree other notRoot]

@[simp] theorem current_remove (tree : FileTree) (text : Text)
    : (tree.remove text).current = tree.current := by
  unfold remove
  split <;> rfl

theorem sameDirectories_remove {tree : FileTree} {text : Text} {place : Place}
    (located : tree.locate text = .ok place) (free : tree.node? place ≠ some .directory)
    : tree.SameDirectories (tree.remove text) := by
  refine ⟨current_remove tree text, ?_⟩
  intro other
  rw [node?_remove located free other]
  split
  · next same => simp [same, free]
  · rfl

end OpcodeTables.FileTree
