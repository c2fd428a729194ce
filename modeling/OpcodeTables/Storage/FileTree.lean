import OpcodeTables.Storage.Basic
import OpcodeTables.Utf8

/-!
A tree of files in memory, and the current directory in it. A path is followed name by name, from
the root of the tree if it starts with a slash and else from the current directory. Every name but
the last has to lead to a directory, and the directory above the root is the root itself.
-/

namespace OpcodeTables

/-- The names that lead from the root to a file, the last of them first. -/
abbrev Place := List Text

/-- What stands at a place. -/
inductive Node where
  | directory
  | file (content : Bytes)
deriving DecidableEq, Repr

/-- The place of the current directory, the nodes other than the root with their places, and how
often a run in the tree can go back on a way.
-/
structure FileTree where
  current : Place
  nodes : List (Place × Node)
  reach : Nat := Storage.standardReach
deriving Repr

namespace FileTree

--------------------------------------------------------------------------------
-- Places
--------------------------------------------------------------------------------

/-- A directory at a place and the directories on the way to it. -/
def wayTo : Place → List (Place × Node)
  | [] => []
  | name :: place => (name :: place, .directory) :: wayTo place

/-- The tree with nothing in it but the current directory and the way to it. -/
def emptyIn (current : Place) : FileTree :=
  { current, nodes := wayTo current }

/-- What stands at a place. At the root stands a directory. -/
def node? (tree : FileTree) (place : Place) : Option Node :=
  if place = [] then some .directory else tree.nodes.lookup place

/-- The tree without what stands at a place. -/
def erase (tree : FileTree) (place : Place) : FileTree :=
  { tree with nodes := tree.nodes.filter (·.1 != place) }

/-- The tree with a node at a place. -/
def insert (tree : FileTree) (place : Place) (node : Node) : FileTree :=
  { tree with nodes := (place, node) :: (tree.erase place).nodes }

/-- Another place does not show what is erased. -/
theorem lookup_filter_ne {place other : Place} (h : other ≠ place) (nodes : List (Place × Node))
    : (nodes.filter (·.1 != place)).lookup other = nodes.lookup other := by
  induction nodes with
  | nil => rfl
  | cons entry nodes ih =>
    obtain ⟨key, node⟩ := entry
    by_cases hk : key = place
    · subst hk
      simp [List.lookup_cons, beq_eq_false_iff_ne.mpr h, ih]
    · by_cases ho : other = key <;> simp [List.lookup_cons, hk, ho, ih]

/-- Nothing is left at a place that is erased, since all its entries are filtered out. -/
theorem lookup_filter_self (place : Place) (nodes : List (Place × Node))
    : (nodes.filter (·.1 != place)).lookup place = none := by
  simpa [List.lookup_eq_none_iff] using fun _ _ _ (h : ¬ _ = place) => Ne.symm h

/-- Erasing empties one place, unless it is the root. -/
theorem node?_erase (tree : FileTree) {place : Place} (other : Place) (h : place ≠ [])
    : (tree.erase place).node? other = if other = place then none else tree.node? other := by
  by_cases ho : other = place
  · subst ho
    simp [node?, erase, h, lookup_filter_self]
  · simp [node?, erase, ho, lookup_filter_ne ho]

/-- Inserting fills one place, unless it is the root. -/
theorem node?_insert (tree : FileTree) {place : Place} (node : Node) (other : Place)
    (h : place ≠ [])
    : (tree.insert place node).node? other =
      if other = place then some node else tree.node? other := by
  by_cases ho : other = place
  · subst ho
    simp [node?, insert, h]
  · simp [node?, insert, erase, ho, List.lookup_cons, beq_eq_false_iff_ne.mpr ho,
      lookup_filter_ne ho]

--------------------------------------------------------------------------------
-- Following a path
--------------------------------------------------------------------------------

/-- The most octets of a name. -/
def nameLimit : Nat := 255

/-- The most octets of the text of a path. -/
def pathLimit : Nat := 4095

/-- The place that a name leads to from another one. -/
def step (place : Place) (name : Text) : Place :=
  if name = Path.same then place else if name = Path.above then place.tail else name :: place

/-- Follows names from a place on. The last one need not lead to anything. -/
def walk (tree : FileTree) (place : Place) : List Text → Except FileFault Place
  | [] => .ok place
  | name :: names =>
    match tree.node? place with
    | none => .error .notFound
    | some (.file _) => .error .notDirectory
    | some .directory =>
      if nameLimit < (Utf8.encode name).length then .error .nameTooLong
      else walk tree (step place name) names

/-- The names in the text of a path. A slash at the end asks for a directory. -/
def route (text : Text) : List Text :=
  if text.getLast? = some '/' then Path.names text ++ [Path.same] else Path.names text

/-- The place where the text of a path starts. -/
def start (tree : FileTree) (text : Text) : Place :=
  if text.head? = some '/' then [] else tree.current

/-- The place that the text of a path leads to. -/
def locate (tree : FileTree) (text : Text) : Except FileFault Place :=
  if '\x00' ∈ text then .error .nullInName
  else if text = [] then .error .notFound
  else if pathLimit < (Utf8.encode text).length then .error .nameTooLong
  else tree.walk (tree.start text) (route text)

/-- The place that the text of a path leads to, and the node there. -/
def find (tree : FileTree) (text : Text) : Except FileFault (Place × Node) :=
  match tree.locate text with
  | .error fault => .error fault
  | .ok place =>
    match tree.node? place with
    | none => .error .notFound
    | some node => .ok (place, node)

--------------------------------------------------------------------------------
-- Operations
--------------------------------------------------------------------------------

def kindOf : Node → FileKind
  | .directory => .directory
  | .file _ => .file

/-- Tells what stands at a path. -/
def kind (tree : FileTree) (text : Text) : Except FileFault FileKind :=
  (tree.find text).map fun (_, node) => kindOf node

def read (tree : FileTree) (text : Text) : Except FileFault Bytes :=
  match tree.find text with
  | .error fault => .error fault
  | .ok (_, .directory) => .error .isDirectory
  | .ok (_, .file content) => .ok content

/-- The tree with a new node at a path where nothing stands. -/
def add (tree : FileTree) (text : Text) (node : Node) : Except FileFault FileTree :=
  match tree.locate text with
  | .error fault => .error fault
  | .ok place =>
    match tree.node? place with
    | some _ => .error .alreadyExists
    | none => .ok (tree.insert place node)

/-- The last name in the text of a path names a directory by where it is, not by a name of its own;
nothing can be put in the place of such a directory.
-/
def endsOnTheWay (text : Text) : Bool :=
  match (route text).getLast? with
  | some name => name = Path.same || name = Path.above
  | none => false

/-- The tree with a file moved to another path. -/
def move (tree : FileTree) (source target : Text) : Except FileFault FileTree :=
  match tree.find source, tree.locate target with
  | .error fault, _ => .error fault
  | .ok _, .error fault => .error fault
  | .ok (_, .directory), .ok _ => .error .isDirectory
  | .ok (place, .file content), .ok goal =>
    if endsOnTheWay target then .error .busy
    else if tree.node? goal = some .directory then .error .isDirectory
    else .ok ((tree.erase place).insert goal (.file content))

/-- The tree without the file at a path. -/
def remove (tree : FileTree) (text : Text) : FileTree :=
  match tree.find text with
  | .ok (place, .file _) => tree.erase place
  | _ => tree

/-- Keeps the tree where an operation does not work. -/
def update (operation : FileTree → Except FileFault FileTree)
    : StateM FileTree (Except FileFault Unit) :=
  fun tree =>
    match operation tree with
    | .error fault => (.error fault, tree)
    | .ok next => (.ok (), next)

instance : Storage (StateM FileTree) where
  kind text := fun tree => (tree.kind text, tree)
  read text := fun tree => (tree.read text, tree)
  makeDirectory text := update (·.add text .directory)
  create text content := update (·.add text (.file content))
  move source target := update (·.move source target)
  remove text := fun tree => ((), tree.remove text)
  reach := fun tree => (tree.reach, tree)

end FileTree

end OpcodeTables
