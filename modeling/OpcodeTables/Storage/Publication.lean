import OpcodeTables.Storage.Basic

/-!
Publication puts several files in their places together. All of them are staged beside their
targets before the first target is replaced, so an error on the way there leaves every target as
it was. The staging files that are left over are removed in any case.
-/

namespace OpcodeTables

/-- A file to be put in place, and the tag of its staging file. -/
structure Delivery where
  target : Path
  content : Bytes
  tag : Text
deriving DecidableEq, Repr

/-- The targets that have been replaced, in order, and how the publication has ended. -/
structure Publication where
  replaced : List Path
  outcome : Except FileError Unit

namespace Publication

variable {m : Type → Type} [Monad m] [Storage m]

/-- The staging file of a delivery. -/
def staging (delivery : Delivery) : Staging :=
  .ofTarget delivery.target delivery.tag

/-- Makes sure that no directory stands at a target and that the directory around it exists. -/
def prepare (target : Path) : FileWork m Unit := do
  if ← Storage.isDirectory target then
    throw (.directoryAtTarget target.toText)
  Storage.makeDirectories target.parent

/-- Moves staging files to their targets, up to the first that cannot be moved. -/
def replaceAll : List Delivery → m Publication
  | [] => return ⟨[], .ok ()⟩
  | delivery :: deliveries => do
    let staging := staging delivery
    let target := delivery.target.toText
    match ← Storage.move staging.path target with
    | .error fault => return ⟨[], .error (.unreplaced fault staging target)⟩
    | .ok () =>
      let rest ← replaceAll deliveries
      return { rest with replaced := delivery.target :: rest.replaced }

/-- Stages the deliveries, goes on, and removes the staging files that are still there. -/
def withStaged (next : m Publication) : List Delivery → m Publication
  | [] => next
  | delivery :: deliveries => do
    let staging := staging delivery
    match ← Storage.create staging.path delivery.content with
    | .error fault => return ⟨[], .error (.unstaged fault staging)⟩
    | .ok () =>
      let publication ← withStaged next deliveries
      Storage.remove staging.path
      return publication

/-- Puts the files in their places. -/
def publish (deliveries : List Delivery) : m Publication := do
  match ← (deliveries.forM (prepare ·.target) : FileWork m Unit).run with
  | .error error => return ⟨[], .error error⟩
  | .ok () => withStaged (replaceAll deliveries) deliveries

end Publication

end OpcodeTables
