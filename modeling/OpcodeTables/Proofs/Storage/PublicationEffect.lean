import OpcodeTables.Proofs.Storage.Preparation

/-! What a publication does to a tree, once its targets are prepared. Either some delivery
cannot be staged and nothing has changed, or the files end up as if they had been put straight
at their targets, one after another and up to the first target that receives nothing. Of the
staging files nothing is left.
-/

namespace OpcodeTables.FileTree

open Publication

--------------------------------------------------------------------------------
-- Trees that differ at some places only
--------------------------------------------------------------------------------

/-- Two trees have the same directories, and the same nodes at all but some places. -/
structure SameOutside (places : List Place) (tree next : FileTree) : Prop where
  directories : tree.SameDirectories next
  node : ∀ place, place ∉ places → next.node? place = tree.node? place

theorem SameOutside.refl (places : List Place) (tree : FileTree) : tree.SameOutside places tree :=
  ⟨.refl tree, fun _ _ => rfl⟩

theorem SameOutside.symm {places : List Place} {tree next : FileTree}
    (same : tree.SameOutside places next)
    : next.SameOutside places tree :=
  ⟨same.directories.symm, fun place outside => (same.node place outside).symm⟩

theorem SameOutside.trans {places : List Place} {tree middle next : FileTree}
    (first : tree.SameOutside places middle) (second : middle.SameOutside places next)
    : tree.SameOutside places next :=
  ⟨first.directories.trans second.directories,
    fun place outside => (second.node place outside).trans (first.node place outside)⟩

theorem SameOutside.mono {places more : List Place} {tree next : FileTree}
    (same : tree.SameOutside places next) (included : places ⊆ more)
    : tree.SameOutside more next :=
  ⟨same.directories, fun place outside => same.node place fun member => outside (included member)⟩

/-- A file that is put where no directory stands changes one place. -/
theorem sameOutside_insert {tree : FileTree} {place : Place} (content : Bytes)
    (free : tree.node? place ≠ some .directory)
    : tree.SameOutside [place] (tree.insert place (.file content)) := by
  refine ⟨sameDirectories_insert free content, ?_⟩
  intro other outside
  have notRoot := ne_root_of_free free
  rw [node?_insert tree _ other notRoot, if_neg (by simpa using outside)]

/-- What is no directory may be taken away from the places that may differ. -/
theorem SameOutside.erase {places : List Place} {tree next : FileTree}
    (same : tree.SameOutside places next) {place : Place} (member : place ∈ places)
    (free : next.node? place ≠ some .directory)
    : tree.SameOutside places (next.erase place) := by
  refine ⟨same.directories.trans (sameDirectories_erase free), ?_⟩
  intro other outside
  have notRoot := ne_root_of_free free
  have elsewhere : other ≠ place := by
    rintro rfl
    exact outside member
  rw [node?_erase next other notRoot, if_neg elsewhere, same.node other outside]

/-- The same file put in two trees that differ at some places only, where no directory stands. -/
theorem SameOutside.insert {places : List Place} {tree next : FileTree}
    (same : tree.SameOutside places next) {place : Place} (content : Bytes)
    (free : tree.node? place ≠ some .directory)
    : (tree.insert place (.file content)).SameOutside places
        (next.insert place (.file content)) := by
  have freeNext : next.node? place ≠ some .directory := by
    rwa [ne_eq, same.directories.directory]
  have notRoot := ne_root_of_free free
  refine ⟨?_, ?_⟩
  · exact (sameDirectories_insert free content).symm.trans
      (same.directories.trans (sameDirectories_insert freeNext content))
  · intro other outside
    rw [node?_insert next _ other notRoot, node?_insert tree _ other notRoot,
      same.node other outside]

theorem SameOutside.sameFiles {tree next : FileTree} (same : tree.SameOutside [] next)
    : tree.SameFiles next := by
  intro place
  rw [file?, file?, same.node place (by simp)]

/-- Trees with the same files and the same directories are the same everywhere. -/
theorem SameFiles.sameOutside {tree next : FileTree} (files : tree.SameFiles next)
    (directories : tree.SameDirectories next)
    : tree.SameOutside [] next := by
  refine ⟨directories, ?_⟩
  intro place _
  have file := files place
  have directory := directories.directory place
  unfold file? at file
  revert file directory
  rcases tree.node? place with _ | _ | _ <;> rcases next.node? place with _ | _ | _ <;> simp

/-- A file is found where it has been put, and the other files as before. -/
theorem file?_insert {tree : FileTree} {goal : Place} (free : tree.node? goal ≠ some .directory)
    (content : Bytes) (place : Place)
    : (tree.insert goal (.file content)).file? place =
      if place = goal then some content else tree.file? place := by
  unfold file?
  rw [node?_insert tree _ place (ne_root_of_free free)]
  by_cases here : place = goal
  · simp [here]
  · rw [if_neg here, if_neg here]

--------------------------------------------------------------------------------
-- Straight delivery
--------------------------------------------------------------------------------

/-- The tree with files put straight at their targets, up to the first target that receives
nothing, and whether all of them have been put there.
-/
def deliver (tree : FileTree) : List Delivery → FileTree × Bool
  | [] => (tree, true)
  | delivery :: deliveries =>
    match tree.receives? delivery.target.toText with
    | none => (tree, false)
    | some goal => deliver (tree.insert goal (.file delivery.content)) deliveries

/-- Straight delivery changes nothing where no target is received, by induction over the
deliveries.
-/
theorem deliver_node? {tree : FileTree} {deliveries : List Delivery} {place : Place}
    (elsewhere
      : ∀ delivery ∈ deliveries, ∀ goal,
          tree.receives? delivery.target.toText = some goal → goal ≠ place)
    : (tree.deliver deliveries).1.node? place = tree.node? place := by
  induction deliveries generalizing tree with
  | nil => rfl
  | cons delivery deliveries ih =>
      unfold deliver
      cases received : tree.receives? delivery.target.toText with
      | none => rfl
      | some goal =>
          have free := (receives?_eq_some_iff.mp received).2.2
          have placed := sameOutside_insert delivery.content free
          have other := elsewhere delivery (by simp) goal received
          have stillElsewhere : ∀ later ∈ deliveries, ∀ next,
              (tree.insert goal (.file delivery.content)).receives? later.target.toText = some next
              → next ≠ place := by
            intro later member next found
            rw [placed.directories.receives?_eq] at found
            exact elsewhere later (by simp [member]) next found
          exact (ih stillElsewhere).trans (placed.node place (by simp [Ne.symm other]))

/-- The tree with all deliveries staged, unless one of them cannot be. -/
def stageAll (tree : FileTree) : List Delivery → Except FileError FileTree
  | [] => .ok tree
  | delivery :: deliveries =>
    match tree.add (staging delivery).path (.file delivery.content) with
    | .error fault => .error (.unstaged fault (staging delivery))
    | .ok next => stageAll next deliveries

/-- A delivery waits in its staging file at a place. -/
structure StagedAt (tree : FileTree) (delivery : Delivery) (place : Place) : Prop where
  located : tree.locate (staging delivery).path = .ok place
  found : tree.node? place = some (.file delivery.content)

theorem StagedAt.of_same {tree next : FileTree} {delivery : Delivery} {place : Place}
    (staged : tree.StagedAt delivery place) (directories : tree.SameDirectories next)
    (node : next.node? place = tree.node? place)
    : next.StagedAt delivery place :=
  ⟨directories.locate_iff.mpr staged.located, node.trans staged.found⟩

/-- Deliveries go on waiting while nothing changes at their staging files. -/
theorem waiting_of_same {tree next : FileTree} {deliveries : List Delivery} {places : List Place}
    (waiting : List.Forall₂ tree.StagedAt deliveries places)
    (directories : tree.SameDirectories next)
    (nodes : ∀ place ∈ places, next.node? place = tree.node? place)
    : List.Forall₂ next.StagedAt deliveries places := by
  induction waiting with
  | nil => exact .nil
  | cons first _ ih =>
      refine .cons (first.of_same directories (nodes _ (by simp))) (ih ?_)
      intro place member
      exact nodes place (by simp [member])

/-- At each place of the staging files some delivery waits. -/
theorem exists_waiting_of_mem {tree : FileTree} {deliveries : List Delivery} {places : List Place}
    (waiting : List.Forall₂ tree.StagedAt deliveries places) {place : Place}
    (member : place ∈ places)
    : ∃ delivery ∈ deliveries, tree.StagedAt delivery place := by
  induction waiting with
  | nil => cases member
  | cons first _ ih =>
      rcases List.mem_cons.mp member with rfl | later
      · exact ⟨_, List.mem_cons_self, first⟩
      · obtain ⟨delivery, known, staged⟩ := ih later
        exact ⟨delivery, List.mem_cons_of_mem _ known, staged⟩

/-- Each delivery waits at one of the places of the staging files. -/
theorem exists_place_of_mem {tree : FileTree} {deliveries : List Delivery} {places : List Place}
    (waiting : List.Forall₂ tree.StagedAt deliveries places) {delivery : Delivery}
    (member : delivery ∈ deliveries)
    : ∃ place, tree.StagedAt delivery place := by
  induction waiting with
  | nil => cases member
  | cons first _ ih =>
      rcases List.mem_cons.mp member with rfl | later
      · exact ⟨_, first⟩
      · exact ih later

--------------------------------------------------------------------------------
-- Staging
--------------------------------------------------------------------------------

/-- Staged deliveries wait at different places where nothing has stood before, and nothing
else has changed, by induction over the deliveries.
-/
theorem stageAll_places {tree full : FileTree} {deliveries : List Delivery}
    (staged : tree.stageAll deliveries = .ok full)
    : ∃ places,
        List.Forall₂ full.StagedAt deliveries places
        ∧ places.Nodup
        ∧ (∀ place ∈ places, tree.node? place = none)
        ∧ tree.SameOutside places full := by
  induction deliveries generalizing tree with
  | nil =>
      obtain rfl : tree = full := by simpa [stageAll] using staged
      exact ⟨[], .nil, List.nodup_nil, by simp, .refl [] tree⟩
  | cons delivery deliveries ih =>
      unfold stageAll at staged
      split at staged
      · cases staged
      · next middle added =>
          obtain ⟨place, located, free, rfl⟩ := add_eq_ok_iff.mp added
          have notDirectory : tree.node? place ≠ some .directory := by simp [free]
          have notRoot := ne_root_of_free notDirectory
          have one := sameOutside_insert delivery.content notDirectory
          have filled := node?_insert tree (.file delivery.content) place notRoot
          rw [if_pos rfl] at filled
          obtain ⟨places, waiting, distinct, before, rest⟩ := ih staged
          have new : place ∉ places := by
            intro member
            simp [before place member] at filled
          have first : (tree.insert place (.file delivery.content)).StagedAt delivery place :=
            ⟨one.directories.locate_iff.mpr located, filled⟩
          have stillFirst := first.of_same rest.directories (rest.node place new)
          refine ⟨place :: places, .cons stillFirst waiting, List.nodup_cons.mpr ⟨new, distinct⟩, ?_, ?_⟩
          · intro other member
            rcases List.mem_cons.mp member with rfl | later
            · exact free
            · rw [← before other later, one.node other]
              rintro same
              exact new (List.mem_singleton.mp same ▸ later)
          · exact (one.mono (by simp)).trans (rest.mono (by simp))

/-- Deliveries are staged one after another; each staging file is removed at the end. -/
theorem withStaged_cons (next : StateM FileTree Publication) (delivery : Delivery)
    (deliveries : List Delivery) (tree : FileTree)
    : withStaged next (delivery :: deliveries) tree =
      match tree.add (staging delivery).path (.file delivery.content) with
      | .error fault => (⟨[], .error (.unstaged fault (staging delivery))⟩, tree)
      | .ok middle =>
        ((withStaged next deliveries middle).1,
          (withStaged next deliveries middle).2.remove (staging delivery).path) := by
  cases added : tree.add (staging delivery).path (.file delivery.content) with
  | error fault =>
      simp only [withStaged, bind, StateT.bind, Storage.create, update, added]
      rfl
  | ok middle =>
      simp only [withStaged, bind, StateT.bind, Storage.create, update, added]
      rfl

/-- If a delivery cannot be staged, the staging files before it are removed and nothing has
changed, by induction over the deliveries.
-/
theorem withStaged_of_error (next : StateM FileTree Publication) {tree : FileTree}
    {deliveries : List Delivery} {error : FileError}
    (unstaged : tree.stageAll deliveries = .error error)
    : (withStaged next deliveries tree).1 = ⟨[], .error error⟩
      ∧ tree.SameOutside [] (withStaged next deliveries tree).2 := by
  induction deliveries generalizing tree with
  | nil => cases unstaged
  | cons delivery deliveries ih =>
      rw [withStaged_cons]
      unfold stageAll at unstaged
      split at unstaged
      · cases unstaged
        exact ⟨rfl, .refl [] tree⟩
      · next middle added =>
          obtain ⟨told, same⟩ := ih unstaged
          obtain ⟨place, located, free, rfl⟩ := add_eq_ok_iff.mp added
          have notDirectory : tree.node? place ≠ some .directory := by simp [free]
          have one := sameOutside_insert delivery.content notDirectory
          have directories := one.directories.trans same.directories
          have leftLocated := directories.locate_iff.mpr located
          have leftFile := (directories.directory place).not.mpr notDirectory
          refine ⟨told, directories.trans (sameDirectories_remove leftLocated leftFile), ?_⟩
          intro other outside
          rw [node?_remove leftLocated leftFile other]
          split
          · next here => rw [here, free]
          · next elsewhere =>
              rw [same.node other outside, one.node other (by simpa using elsewhere)]

/-- If all deliveries are staged, what comes next is done, and then no staging file is left, by
induction over the deliveries.
-/
theorem withStaged_of_ok (next : StateM FileTree Publication) {tree full : FileTree}
    {deliveries : List Delivery} {places : List Place}
    (staged : tree.stageAll deliveries = .ok full)
    (waiting : List.Forall₂ full.StagedAt deliveries places)
    (same : full.SameDirectories (next full).2)
    : (withStaged next deliveries tree).1 = (next full).1
      ∧ (next full).2.SameDirectories (withStaged next deliveries tree).2
      ∧ ∀ place,
          (withStaged next deliveries tree).2.node? place =
            if place ∈ places then none else (next full).2.node? place := by
  induction waiting generalizing tree with
  | nil =>
      obtain rfl : tree = full := by simpa [stageAll] using staged
      exact ⟨rfl, .refl _, fun _ => rfl⟩
  | @cons delivery place deliveries places first rest ih =>
      rw [withStaged_cons]
      unfold stageAll at staged
      split at staged
      · cases staged
      · next middle added =>
          obtain ⟨told, directories, nodes⟩ := ih staged
          have leftLocated := (same.trans directories).locate_iff.mpr first.located
          have notDirectory : full.node? place ≠ some .directory := by simp [first.found]
          have leftFile := ((same.trans directories).directory place).not.mpr notDirectory
          refine ⟨told, directories.trans (sameDirectories_remove leftLocated leftFile), ?_⟩
          intro other
          rw [node?_remove leftLocated leftFile other, nodes]
          by_cases here : other = place <;> simp [here]

/-- Targets are replaced one after another, up to the first that cannot be. -/
theorem replaceAll_cons (delivery : Delivery) (deliveries : List Delivery) (tree : FileTree)
    : (replaceAll (delivery :: deliveries) : StateM FileTree Publication) tree =
      match tree.move (staging delivery).path delivery.target.toText with
      | .error fault =>
        (⟨[], .error (.unreplaced fault (staging delivery) delivery.target.toText)⟩, tree)
      | .ok next =>
        let rest := (replaceAll deliveries : StateM FileTree Publication) next
        ({ rest.1 with replaced := delivery.target :: rest.1.replaced }, rest.2) := by
  cases moved : tree.move (staging delivery).path delivery.target.toText with
  | error fault =>
      simp only [replaceAll, bind, StateT.bind, Storage.move, update, moved]
      rfl
  | ok next =>
      simp only [replaceAll, bind, StateT.bind, Storage.move, update, moved]
      rfl

/-- Moving one staging file to a place where none waits leaves the others waiting. -/
theorem waiting_of_moved {tree : FileTree} {deliveries : List Delivery} {places : List Place}
    (waiting : List.Forall₂ tree.StagedAt deliveries places) {place goal : Place}
    (content : Bytes) (staged : tree.node? place ≠ some .directory)
    (free : tree.node? goal ≠ some .directory) (new : place ∉ places) (elsewhere : goal ∉ places)
    : let moved := (tree.erase place).insert goal (.file content)
      tree.SameDirectories moved ∧ List.Forall₂ moved.StagedAt deliveries places := by
  have erased := sameDirectories_erase staged
  have freeErased := (erased.directory goal).not.mpr free
  have directories := erased.trans (sameDirectories_insert freeErased content)
  refine ⟨directories, waiting_of_same waiting directories ?_⟩
  intro other member
  have notGoal : other ≠ goal := by
    intro same
    exact elsewhere (same ▸ member)
  have notPlace : other ≠ place := by
    intro same
    exact new (same ▸ member)
  rw [node?_insert _ _ other (ne_root_of_free free), if_neg notGoal,
    node?_erase tree other (ne_root_of_free staged), if_neg notPlace]

/-- Replacing the targets has the effect of straight delivery everywhere but at the staging
files, by induction over the deliveries: those that are still to come go on waiting, as no
target is received at a staging file.
-/
theorem replaceAll_effect {plain full : FileTree} {places now : List Place}
    {deliveries : List Delivery} (same : plain.SameOutside places full)
    (waiting : List.Forall₂ full.StagedAt deliveries now)
    (distinct : now.Nodup) (included : now ⊆ places)
    (apart
      : ∀ delivery ∈ deliveries, ∀ goal,
          plain.receives? delivery.target.toText = some goal → goal ∉ places)
    : let run := (replaceAll deliveries : StateM FileTree Publication) full
      (run.1.outcome = .ok () ↔ (plain.deliver deliveries).2 = true)
      ∧ (plain.deliver deliveries).1.SameOutside places run.2
      ∧ full.SameDirectories run.2 := by
  induction deliveries generalizing plain full now with
  | nil => exact ⟨⟨fun _ => rfl, fun _ => rfl⟩, same, .refl full⟩
  | cons delivery deliveries ih =>
      obtain _ | @⟨_, place, _, now, first, rest⟩ := waiting
      obtain ⟨new, distinct⟩ := List.nodup_cons.mp distinct
      obtain ⟨here, included⟩ := List.cons_subset.mp included
      have moved := move_eq delivery.target.toText first.located first.found
      rw [same.directories.receives?_eq] at moved
      rw [replaceAll_cons]
      unfold deliver
      cases received : plain.receives? delivery.target.toText with
      | none =>
          rw [received] at moved
          obtain ⟨fault, failed⟩ := moved
          rw [failed]
          exact ⟨by simp, same, .refl full⟩
      | some goal =>
          rw [received] at moved
          rw [moved]
          have free := (receives?_eq_some_iff.mp received).2.2
          have elsewhere := apart delivery (by simp) goal received
          have staged : full.node? place ≠ some .directory := by simp [first.found]
          have freeFull := (same.directories.directory goal).not.mpr free
          obtain ⟨directories, stillWaiting⟩ := waiting_of_moved rest delivery.content staged
            freeFull new fun member => elsewhere (included member)
          have placed := (sameOutside_insert delivery.content free).directories
          have stillApart : ∀ later ∈ deliveries, ∀ other,
              (plain.insert goal (.file delivery.content)).receives? later.target.toText =
                some other
              → other ∉ places := by
            intro later member other found
            rw [placed.receives?_eq] at found
            exact apart later (by simp [member]) other found
          -- The staging file is taken from one of the places, and the target is filled in both trees.
          have sameNext := (same.erase here staged).insert delivery.content free
          obtain ⟨ended, after, later⟩ := ih sameNext stillWaiting distinct included stillApart
          exact ⟨ended, after, directories.trans later⟩

--------------------------------------------------------------------------------
-- Fresh names
--------------------------------------------------------------------------------

/-- No target of the deliveries has the name of a staging file. -/
structure Fresh (deliveries : List Delivery) : Prop where
  normal : ∀ delivery ∈ deliveries, delivery.target.Normal
  noSlash : ∀ delivery ∈ deliveries, '/' ∉ delivery.tag
  apart
    : ∀ delivery ∈ deliveries, ∀ other ∈ deliveries,
        (staging delivery).fileName ≠ other.target.name

/-- The name of a staging file is a part of a path, and it leads onward. -/
theorem fileName_part {target : Path} {tag : Text} (normal : target.Normal) (noSlash : '/' ∉ tag)
    : Path.IsPart (Staging.ofTarget target tag).fileName
      ∧ Onward (Staging.ofTarget target tag).fileName := by
  have nameNoSlash : '/' ∉ target.name := by
    unfold Path.name
    cases found : target.parts.getLast? with
    | none => simp
    | some name => exact (normal name (List.mem_of_getLast? found)).noSlash
  have long : 5 < (Staging.ofTarget target tag).fileName.length := by
    simp [Staging.fileName]
    omega
  have notShort {text : Text} (short : text.length ≤ 5)
      : (Staging.ofTarget target tag).fileName ≠ text := by
    rintro rfl
    omega
  have clear : '/' ∉ (Staging.ofTarget target tag).fileName := by
    simp [Staging.fileName, Staging.ofTarget, nameNoSlash, noSlash]
  exact ⟨⟨notShort (by simp), clear, notShort (by decide)⟩,
    notShort (by decide), notShort (by decide)⟩

/-- The path of a staging file leads to a file of its name in the directory that the direct
way around its target leads to.
-/
theorem locate_staging_iff {tree : FileTree} {target : Path} {tag : Text} {place : Place}
    (normal : target.Normal) (noSlash : '/' ∉ tag)
    : let staging := Staging.ofTarget target tag
      tree.locate staging.path = .ok place
      ↔ Fits staging.path
        ∧ (Utf8.encode staging.fileName).length ≤ nameLimit
        ∧ ∃ directory,
            tree.walk (tree.origin target.anchor) target.parent.settled.parts = .ok directory
            ∧ tree.node? directory = some .directory
            ∧ place = staging.fileName :: directory := by
  obtain ⟨isPart, onward⟩ := fileName_part normal noSlash
  refine locate_concat_iff ?_ onward
  intro part member
  rcases List.mem_append.mp member with way | last
  · exact normal.parent.settled part way
  · exact List.mem_singleton.mp last ▸ isPart

theorem StagedAt.head_eq {tree : FileTree} {delivery : Delivery} {place : Place}
    (staged : tree.StagedAt delivery place) (normal : delivery.target.Normal)
    (noSlash : '/' ∉ delivery.tag)
    : place.head? = some (staging delivery).fileName := by
  obtain ⟨_, _, directory, _, _, rfl⟩ := (locate_staging_iff normal noSlash).mp staged.located
  rfl

/-- A target that does not name a directory by the way to it has a last part that leads
onward.
-/
theorem exists_onward_of_not_endsOnTheWay {path : Path} (normal : path.Normal)
    (named : endsOnTheWay path.toText = false)
    : ∃ parts last, path.parts = parts ++ [last] ∧ Onward last := by
  unfold endsOnTheWay at named
  rw [Path.route_toText normal, Path.steps] at named
  rcases List.eq_nil_or_concat path.parts with empty | ⟨parts, last, whole⟩
  · simp [empty] at named
  · rw [List.concat_eq_append] at whole
    rw [whole] at named
    exact ⟨parts, last, whole, by simpa [Onward] using named⟩

/-- A file is received at a place with the name of its target. -/
theorem receives?_head_eq {tree : FileTree} {target : Path} {goal : Place} (normal : target.Normal)
    (received : tree.receives? target.toText = some goal)
    : goal.head? = some target.name := by
  obtain ⟨located, named, _⟩ := receives?_eq_some_iff.mp received
  obtain ⟨parts, last, whole, onward⟩ := exists_onward_of_not_endsOnTheWay normal named
  obtain ⟨anchor, all⟩ := target
  obtain rfl : all = parts ++ [last] := whole
  obtain ⟨_, _, directory, _, _, rfl⟩ := (locate_concat_iff normal onward).mp located
  simp [Path.name]

/-- No target with fresh names is received at a staging file. -/
theorem Fresh.not_mem {tree full : FileTree} {deliveries : List Delivery} {places : List Place}
    (fresh : Fresh deliveries) (waiting : List.Forall₂ full.StagedAt deliveries places)
    {delivery : Delivery} (member : delivery ∈ deliveries) {goal : Place}
    (received : tree.receives? delivery.target.toText = some goal)
    : goal ∉ places := by
  intro here
  obtain ⟨other, known, staged⟩ := exists_waiting_of_mem waiting here
  have targetName := receives?_head_eq (fresh.normal delivery member) received
  have stagingName := staged.head_eq (fresh.normal other known) (fresh.noSlash other known)
  rw [targetName] at stagingName
  exact fresh.apart other known delivery member (Option.some.inj stagingName).symm

/-- What happens once the deliveries are prepared: either one of them cannot be staged and
nothing has changed, or the files end up as by straight delivery and no staging file is left.
-/
theorem withStaged_effect (tree : FileTree) {deliveries : List Delivery} (fresh : Fresh deliveries)
    : let run := withStaged (replaceAll deliveries : StateM FileTree Publication) deliveries tree
      match tree.stageAll deliveries with
      | .error error => run.1.outcome = .error error ∧ tree.SameOutside [] run.2
      | .ok _ =>
        (run.1.outcome = .ok () ↔ (tree.deliver deliveries).2 = true)
        ∧ (tree.deliver deliveries).1.SameOutside [] run.2 := by
  cases staged : tree.stageAll deliveries with
  | error error =>
      obtain ⟨told, same⟩ := withStaged_of_error (replaceAll deliveries) staged
      exact ⟨by rw [told], same⟩
  | ok full =>
      obtain ⟨places, waiting, distinct, before, filled⟩ := stageAll_places staged
      obtain ⟨ended, after, directories⟩ := replaceAll_effect filled waiting distinct
        (List.Subset.refl places) fun delivery member goal => fresh.not_mem waiting member
      obtain ⟨told, kept, nodes⟩ :=
        withStaged_of_ok (replaceAll deliveries) staged waiting directories
      refine ⟨by rw [told]; exact ended, after.directories.trans kept, ?_⟩
      intro place _
      rw [nodes]
      split
      · next member =>
          rw [deliver_node?, before place member]
          intro delivery known goal received
          rintro rfl
          exact fresh.not_mem waiting known received member
      · next outside => exact after.node place outside

/-- What a publication does: its targets are prepared first, and what happens then is told by
`withStaged_effect`.
-/
theorem publish_eq (deliveries : List Delivery) (tree : FileTree)
    : (publish deliveries : StateM FileTree Publication) tree =
      match (prepareAll deliveries).run tree with
      | (.error error, made) => (⟨[], .error error⟩, made)
      | (.ok (), made) =>
        withStaged (replaceAll deliveries : StateM FileTree Publication) deliveries made := by
  cases ran : (prepareAll deliveries).run tree with
  | mk outcome made =>
      unfold prepareAll at ran
      simp only [publish, bind, StateT.bind]
      rw [ran]
      cases outcome <;> rfl

end OpcodeTables.FileTree
