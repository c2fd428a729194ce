import OpcodeTables.Storage.FileError

/-!
The operations on files that a run needs. What they work on is left open: the files of a machine,
or a tree of files in memory.
-/

namespace OpcodeTables

/-- What stands at a path. -/
inductive FileKind where
  | directory
  | file
deriving DecidableEq, Repr

/-- Single operations on files. Each of them names a file by the text of a path. -/
class Storage (m : Type → Type) where
  /-- Tells what stands at a path. -/
  kind : Text → m (Except FileFault FileKind)
  /-- The octets of a file. -/
  read : Text → m (Except FileFault Bytes)
  /-- Makes a directory where nothing stands. -/
  makeDirectory : Text → m (Except FileFault Unit)
  /-- Makes a file with some octets where nothing stands. -/
  create : Text → Bytes → m (Except FileFault Unit)
  /-- Moves a file to a path and replaces the file that stands there. -/
  move : Text → Text → m (Except FileFault Unit)
  /-- Removes a file, if there is one. -/
  remove : Text → m Unit
  /-- How often the run can go back on a way to make a directory before another one. -/
  reach : m Nat

/-- Work on files that an error ends. What has been done until then stays done. -/
abbrev FileWork (m : Type → Type) := ExceptT FileError m

namespace Storage

variable {m : Type → Type} [Monad m] [Storage m]

/-- Ends with an error about a path if an operation on it does not work. -/
def attempt {α : Type} (path : Text) (operation : m (Except FileFault α)) : FileWork m α :=
  ExceptT.mk do return (← operation).mapError (FileError.failed · path)

/-- Tells what stands at a path, if anything does. Where nothing can be found nothing stands,
whatever the reason; but a name with a null character is none that can be looked for.
-/
def lookFor (path : Text) : FileWork m (Option FileKind) :=
  ExceptT.mk do
    match ← kind path with
    | .ok found => return .ok (some found)
    | .error .nullInName => return .error (.failed .nullInName path)
    | .error _ => return .ok none

/-- Tells whether a directory stands at a path. -/
def isDirectory (path : Path) : FileWork m Bool :=
  ExceptT.mk do
    match ← kind path.toText with
    | .ok found => return .ok (found = .directory)
    | .error fault =>
      return if fault.meansAbsent then .ok false else .error (.failed fault path.toText)

/-- Makes a directory and keeps it for later whether that has worked. -/
def tryMake (path : Path) : FileWork m (Except FileFault Unit) :=
  ExceptT.lift (makeDirectory path.toText)

/-- Accepts that a directory could not be made if there is one already. -/
def settleFor (path : Path) (made : Except FileFault Unit) : FileWork m Unit :=
  match made with
  | .ok () => return
  | .error fault => do
    unless ← isDirectory path do
      throw (.failed fault path.toText)

/-- Makes a directory unless there is one already. -/
def ensure (path : Path) : FileWork m Unit := do
  settleFor path (← tryMake path)

/-- How often a run of the command can go back on a way. Each time takes a call in a call, and what
the calls that lead there have left of their greatest depth is enough for so many.
-/
def standardReach : Nat := 986

/-- Makes the directory that some names lead to, unless there is one, and before it the directories
on the way. The names are given last name first. Where the way would have to be gone back on once
more than the reach allows, the work ends, and nothing has been made then. (It is an idealization
that a directory that turns out to be there already is always told, for that takes a call as well.)
-/
def makeWay (anchor : Anchor) : List Text → Nat → FileWork m Unit
  | [], _ => ensure ⟨anchor, []⟩
  | name :: names, reach => do
    let path : Path := ⟨anchor, (name :: names).reverse⟩
    match ← tryMake path with
    | .error .notFound =>
      if reach = 0 then
        throw (.failed .outOfReach path.toText)
      else do
        makeWay anchor names (reach - 1)
        ensure path
    | made => settleFor path made

/-- Makes a directory and the directories on the way to it, as far as they are missing. -/
def makeDirectories (path : Path) : FileWork m Unit := do
  makeWay path.anchor path.parts.reverse (← ExceptT.lift reach)

end Storage

end OpcodeTables
