import OpcodeTables.Storage.FileTree

/-!
Trees as a whole: setting one up, and listing what is in it.
-/

namespace OpcodeTables.FileTree

/-- The tree with a directory at a path and the directories on the way to it. -/
def withDirectory (tree : FileTree) (path : Text) : FileTree :=
  ((Storage.makeDirectories (Path.ofText path) : FileWork (StateM FileTree) Unit).run tree).2

/-- The tree with a file at a path, in the place of another one or in a new directory. -/
def withFile (tree : FileTree) (path : Text) (content : Bytes) : FileTree :=
  let tree := tree.withDirectory (Path.ofText path).parent.toText
  match tree.locate path with
  | .error _ => tree
  | .ok place => tree.insert place (.file content)

/-- The tree without what stands at a path and in it. -/
def without (tree : FileTree) (path : Text) : FileTree :=
  match tree.locate path with
  | .error _ => tree
  | .ok place =>
    { tree with nodes := tree.nodes.filter fun (other, _) => !place.isSuffixOf other }

/-- The text of the path to a node. The path to a directory ends with a slash. -/
def pathText (names : List Text) (node : Node) : Text :=
  let path := ['/'].intercalate names
  match node with
  | .directory => path ++ ['/']
  | .file _ => path

/-- A node in the current directory or further in, with the text of the path from there. -/
def entry? (tree : FileTree) (place : Place) (node : Node) : Option (Text × Node) :=
  if tree.current.isSuffixOf place ∧ place ≠ tree.current then
    let names := (place.take (place.length - tree.current.length)).reverse
    some (pathText names node, node)
  else
    none

/-- The nodes in the current directory and further in, ordered by the texts of their paths. -/
def listing (tree : FileTree) : List (Text × Node) :=
  let entries := tree.nodes.filterMap fun (place, node) => tree.entry? place node
  entries.mergeSort fun a b => Text.precedes a.1 b.1

def names (tree : FileTree) : List Text :=
  tree.nodes.flatMap (·.1)

end OpcodeTables.FileTree
