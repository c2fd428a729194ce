import OpcodeTables.Storage.Path

/-!
A staging file holds what is going to be put in a target's place. It stands beside its target, so
that it can be moved there in one step, and has a tag in its name that no other file has.
-/

namespace OpcodeTables

/-- The directory and the name of a target and the tag of its staging file. -/
structure Staging where
  directory : Path
  name : Text
  tag : Text
deriving DecidableEq, Repr

namespace Staging

def fileName (staging : Staging) : Text :=
  '.' :: staging.name ++ '.' :: staging.tag ++ ".tmp".toList

/-- The name of a staging file is longer than that of its target, and never short. -/
theorem length_fileName (staging : Staging)
    : staging.fileName.length = staging.name.length + staging.tag.length + 6 := by
  have ending : ".tmp".toList.length = 4 := rfl
  simp only [fileName, List.length_append, List.length_cons, ending]
  omega

/-- The text of the path to a staging file. It starts where the path of the target does. That is an
idealization: a staging file is made by its path from the root, so a path from the current directory
is too long a few names earlier than it is here.
-/
def path (staging : Staging) : Text :=
  Path.toText { staging.directory with parts := staging.directory.parts ++ [staging.fileName] }

/-- The staging file of a target, by the direct way to its directory. -/
def ofTarget (target : Path) (tag : Text) : Staging :=
  { directory := target.parent.settled, name := target.name, tag }

end Staging

end OpcodeTables
