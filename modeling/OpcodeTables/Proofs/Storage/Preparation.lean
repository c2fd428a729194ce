import OpcodeTables.Proofs.Storage.RootedTrees
import OpcodeTables.Storage.Publication

/-! Preparing targets makes directories and nothing else. What is kept whenever a directory is
made is kept by the whole preparation, whether it ends well or with an error.
-/

namespace OpcodeTables.FileTree

open Storage

/-- Work on the files of a tree. -/
abbrev Work (α : Type) := FileWork (StateM FileTree) α

--------------------------------------------------------------------------------
-- Runs
--------------------------------------------------------------------------------

@[simp] theorem run_pure {α : Type} (value : α) (tree : FileTree)
    : (pure value : Work α).run tree = (.ok value, tree) :=
  rfl

/-- Work goes on from the tree that the work before it leaves, unless that ends with an error. -/
theorem run_bind {α β : Type} (work : Work α) (more : α → Work β) (tree : FileTree)
    : (work >>= more).run tree =
      match work.run tree with
      | (.error error, next) => (.error error, next)
      | (.ok value, next) => (more value).run next := by
  change ExceptT.bindCont more (work.run tree).1 (work.run tree).2 = _
  rcases work.run tree with ⟨_ | value, next⟩ <;> rfl

/-- Work that ends well is made of two parts that both end well. -/
theorem run_bind_eq_ok_iff {α β : Type} {work : Work α} {more : α → Work β} {tree next : FileTree}
    {result : β}
    : (work >>= more).run tree = (.ok result, next)
      ↔ ∃ value middle,
          work.run tree = (.ok value, middle) ∧ (more value).run middle = (.ok result, next) := by
  rw [run_bind]
  rcases work.run tree with ⟨error | value, middle⟩
  · exact ⟨nofun, nofun⟩
  · constructor
    · intro rest
      exact ⟨value, middle, rfl, rest⟩
    · rintro ⟨_, _, same, rest⟩
      cases same
      exact rest

/-- Trying to make a directory adds it to the tree or leaves the tree alone. -/
theorem run_tryMake (tree : FileTree) (path : Path)
    : (tryMake path : Work (Except FileFault Unit)).run tree =
      match tree.add path.toText .directory with
      | .error fault => (.ok (.error fault), tree)
      | .ok next => (.ok (.ok ()), next) := by
  change (Except.ok (update (·.add path.toText .directory) tree).1, _) = _
  cases added : tree.add path.toText .directory <;> simp [update, added]

/-- Whether a directory stands at a path, as far as that can be told. -/
def directoryAt (tree : FileTree) (path : Path) : Except FileError Bool :=
  match tree.kind path.toText with
  | .ok found => .ok (found = FileKind.directory)
  | .error fault => if fault.meansAbsent then .ok false else .error (.failed fault path.toText)

theorem run_isDirectory (tree : FileTree) (path : Path)
    : (isDirectory path : Work Bool).run tree = (tree.directoryAt path, tree) := by
  change (match tree.kind path.toText with
    | .ok found => pure (.ok (found = FileKind.directory))
    | .error fault =>
      pure (if fault.meansAbsent then .ok false else .error (.failed fault path.toText))
      : StateM FileTree (Except FileError Bool)) tree = _
  unfold directoryAt
  cases tree.kind path.toText <;> rfl

theorem run_settleFor (tree : FileTree) (path : Path) (made : Except FileFault Unit)
    : ((settleFor path made : Work Unit).run tree).2 = tree := by
  cases made with
  | ok => rfl
  | error fault =>
      rw [settleFor, run_bind, run_isDirectory]
      rcases tree.directoryAt path with error | _ | _ <;> rfl

/-- Making a way begins at its end. Where the directory there cannot be made for want of one before
it, the way is gone back on first, as far as that is in reach.
-/
theorem run_makeWay_cons (tree : FileTree) (anchor : Anchor) (name : Text) (names : List Text)
    (reach : Nat)
    : let path : Path := ⟨anchor, (name :: names).reverse⟩
      (makeWay anchor (name :: names) reach : Work Unit).run tree =
        match tree.add path.toText .directory with
        | .ok next => (.ok (), next)
        | .error .notFound =>
          if reach = 0 then (.error (.failed .outOfReach path.toText), tree)
          else (do makeWay anchor names (reach - 1); ensure path : Work Unit).run tree
        | .error fault => (settleFor path (.error fault) : Work Unit).run tree := by
  intro path
  rw [makeWay, run_bind, run_tryMake]
  cases tree.add path.toText .directory with
  | ok next => rfl
  | error fault =>
      cases fault with
      | notFound =>
          by_cases exhausted : reach = 0
          · simp only [if_pos exhausted]
            rfl
          · simp only [if_neg exhausted]
            rfl
      | _ => rfl

/-- The reach in a tree decides how far a way to a directory is gone back on. -/
theorem run_makeDirectories (tree : FileTree) (path : Path)
    : (makeDirectories path : Work Unit).run tree
      = (makeWay path.anchor path.parts.reverse tree.reach : Work Unit).run tree :=
  rfl

/-- A target is prepared if no directory stands there and the way to it can be made. -/
theorem run_prepare (tree : FileTree) (target : Path)
    : (Publication.prepare target : Work Unit).run tree =
      match tree.directoryAt target with
      | .error error => (.error error, tree)
      | .ok true => (.error (.directoryAtTarget target.toText), tree)
      | .ok false => (makeDirectories target.parent : Work Unit).run tree := by
  rw [Publication.prepare, run_bind, run_isDirectory]
  rcases tree.directoryAt target with error | _ | _ <;> rfl

/-- Preparing a target ends well if it is told that no directory stands there and the way to
it can be made.
-/
theorem prepare_eq_ok_iff {tree made : FileTree} {target : Path}
    : (Publication.prepare target : Work Unit).run tree = (.ok (), made)
      ↔ tree.directoryAt target = .ok false
        ∧ (makeDirectories target.parent : Work Unit).run tree = (.ok (), made) := by
  rw [run_prepare]
  rcases tree.directoryAt target with error | _ | _
  · exact ⟨nofun, nofun⟩
  · simp
  · exact ⟨nofun, nofun⟩

--------------------------------------------------------------------------------
-- What is kept whenever a directory is made
--------------------------------------------------------------------------------

theorem tryMake_keeps {P : FileTree → Prop} {path : Path}
    (step : ∀ {tree next}, P tree → tree.add path.toText .directory = .ok next → P next)
    {tree : FileTree} (start : P tree)
    : P ((tryMake path : Work (Except FileFault Unit)).run tree).2 := by
  rw [run_tryMake]
  cases added : tree.add path.toText .directory with
  | error fault => exact start
  | ok next => exact step start added

/-- Work keeps what each of its two parts keeps. -/
theorem bind_keeps {P : FileTree → Prop} {α β : Type} {work : Work α} {more : α → Work β}
    {tree : FileTree}
    (first : P (work.run tree).2)
    (second : ∀ value {next}, P next → P ((more value).run next).2)
    : P ((work >>= more).run tree).2 := by
  rw [run_bind]
  rcases whole : work.run tree with ⟨error | value, next⟩
  · simpa [whole] using first
  · exact second value (by simpa [whole] using first)

theorem ensure_keeps {P : FileTree → Prop} {path : Path}
    (step : ∀ {tree next}, P tree → tree.add path.toText .directory = .ok next → P next)
    {tree : FileTree} (start : P tree)
    : P ((ensure path : Work Unit).run tree).2 := by
  refine bind_keeps (tryMake_keeps step start) ?_
  intro made next holds
  rwa [run_settleFor]

/-- The way to a path is made by making directories on it, by induction over its names from the
last to the first. Where it is out of reach nothing is made.
-/
theorem makeWay_keeps {P : FileTree → Prop} {anchor : Anchor} {names : List Text} {reach : Nat}
    (step
      : ∀ {tree next parts},
          parts <:+ names
          → P tree
          → tree.add (Path.toText ⟨anchor, parts.reverse⟩) .directory = .ok next
          → P next)
    {tree : FileTree} (start : P tree)
    : P ((makeWay anchor names reach : Work Unit).run tree).2 := by
  induction names generalizing tree reach with
  | nil => exact ensure_keeps (step List.suffix_rfl) start
  | cons name names ih =>
      rw [run_makeWay_cons]
      split
      · next added => exact step List.suffix_rfl start added
      · split
        · exact start
        · refine bind_keeps (ih (fun suffix => step (suffix.trans (List.suffix_cons _ _))) start) ?_
          intro _ next holds
          exact ensure_keeps (step List.suffix_rfl) holds
      · rwa [run_settleFor]

/-- Making the way to a path makes directories at the beginnings of the path. -/
theorem makeDirectories_keeps {P : FileTree → Prop} {path : Path}
    (step
      : ∀ {tree next parts},
          parts <+: path.parts
          → P tree
          → tree.add (Path.toText ⟨path.anchor, parts⟩) .directory = .ok next
          → P next)
    {tree : FileTree} (start : P tree)
    : P ((makeDirectories path : Work Unit).run tree).2 := by
  rw [run_makeDirectories]
  refine makeWay_keeps ?_ start
  intro tree next parts suffix
  refine step ?_
  rw [← path.parts.reverse_reverse]
  exact List.reverse_prefix.mpr suffix

/-- Preparing a target keeps what making the way to it keeps. -/
theorem prepare_keeps {P : FileTree → Prop} {target : Path} {tree : FileTree} (start : P tree)
    (made : P ((makeDirectories target.parent : Work Unit).run tree).2)
    : P ((Publication.prepare target : Work Unit).run tree).2 := by
  rw [run_prepare]
  rcases tree.directoryAt target with error | _ | _
  · exact start
  · exact made
  · exact start

/-- Prepares the targets of some deliveries. -/
def prepareAll (deliveries : List Delivery) : Work Unit :=
  deliveries.forM (Publication.prepare ·.target)

/-- Preparing many targets keeps what making directories on the ways to them keeps, by induction
over the targets.
-/
theorem prepareAll_keeps_ways {P : FileTree → Prop} {deliveries : List Delivery}
    (step
      : ∀ {tree next delivery parts},
          delivery ∈ deliveries
          → parts <+: delivery.target.parent.parts
          → P tree
          → tree.add (Path.toText ⟨delivery.target.anchor, parts⟩) .directory = .ok next
          → P next)
    {tree : FileTree} (start : P tree)
    : P ((prepareAll deliveries).run tree).2 := by
  induction deliveries generalizing tree with
  | nil => exact start
  | cons delivery deliveries ih =>
      refine bind_keeps (prepare_keeps start (makeDirectories_keeps ?_ start)) ?_
      · exact fun front => step List.mem_cons_self front
      · intro _ next holds
        exact ih (fun member => step (List.mem_cons_of_mem _ member)) holds

/-- Preparing many targets keeps what making any directory keeps. -/
theorem prepareAll_keeps {P : FileTree → Prop}
    (step : ∀ {tree next text}, P tree → tree.add text .directory = .ok next → P next)
    (deliveries : List Delivery) {tree : FileTree} (start : P tree)
    : P ((prepareAll deliveries).run tree).2 :=
  prepareAll_keeps_ways (fun _ _ => step) start

--------------------------------------------------------------------------------
-- What preparing targets keeps
--------------------------------------------------------------------------------

/-- The octets of the file at a place, if one stands there. -/
def file? (tree : FileTree) (place : Place) : Option Bytes :=
  match tree.node? place with
  | some (.file content) => some content
  | _ => none

/-- Two trees have the same files with the same octets. -/
def SameFiles (tree next : FileTree) : Prop :=
  ∀ place, next.file? place = tree.file? place

/-- A new directory stands where no file stood. -/
theorem sameFiles_of_add {tree next : FileTree} {text : Text}
    (added : tree.add text .directory = .ok next)
    : tree.SameFiles next := by
  obtain ⟨place, _, free, rfl⟩ := add_eq_ok_iff.mp added
  have notDirectory : tree.node? place ≠ some .directory := by simp [free]
  have notRoot := ne_root_of_free notDirectory
  intro other
  unfold file?
  rw [node?_insert tree _ other notRoot]
  by_cases here : other = place
  · simp [here, free]
  · rw [if_neg here]

/-- Preparing targets changes no file. -/
theorem prepareAll_sameFiles (deliveries : List Delivery) (tree : FileTree)
    : tree.SameFiles ((prepareAll deliveries).run tree).2 := by
  refine prepareAll_keeps (P := tree.SameFiles) ?_ deliveries fun _ => rfl
  intro middle next text same added place
  exact (sameFiles_of_add added place).trans (same place)

theorem prepare_rooted {tree : FileTree} (rooted : tree.Rooted) (target : Path)
    : ((Publication.prepare target : Work Unit).run tree).2.Rooted :=
  prepare_keeps rooted (makeDirectories_keeps (fun _ holds => holds.add) rooted)

theorem makeDirectories_current (tree : FileTree) (path : Path)
    : ((makeDirectories path : Work Unit).run tree).2.current = tree.current := by
  refine makeDirectories_keeps (P := fun made => made.current = tree.current) ?_ rfl
  intro made next parts _ current added
  obtain ⟨place, _, _, rfl⟩ := add_eq_ok_iff.mp added
  exact current

/-- On a direct way directories are made at places with fewer names than the place it leads
to, so a place further in is not among them.
-/
theorem makeDirectories_free {tree : FileTree} {path : Path} {goal : Place} (direct : path.Direct)
    (further : path.parts.length + (tree.origin path.anchor).length < goal.length)
    (free : tree.node? goal ≠ some .directory)
    : ((makeDirectories path : Work Unit).run tree).2.node? goal ≠ some .directory := by
  have kept : ((makeDirectories path : Work Unit).run tree).2.current = tree.current
      ∧ ((makeDirectories path : Work Unit).run tree).2.node? goal ≠ some .directory := by
    refine makeDirectories_keeps
      (P := fun made => made.current = tree.current ∧ made.node? goal ≠ some .directory)
      ?_ ⟨rfl, free⟩
    intro made next parts front holds added
    obtain ⟨current, free⟩ := holds
    obtain ⟨place, located, unused, rfl⟩ := add_eq_ok_iff.mp added
    have notDirectory : made.node? place ≠ some .directory := by simp [unused]
    have notRoot := ne_root_of_free notDirectory
    have whole := (direct.beginning front).locate_eq located
    have shorter := front.length_le
    have elsewhere : goal ≠ place := by
      intro same
      rw [same, whole, origin_eq current] at further
      simp only [List.length_append, List.length_reverse] at further
      omega
    refine ⟨current, ?_⟩
    rwa [node?_insert made _ goal notRoot, if_neg elsewhere]
  exact kept.2

end OpcodeTables.FileTree
