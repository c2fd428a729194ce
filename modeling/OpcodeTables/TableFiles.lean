import OpcodeTables.Builtin
import OpcodeTables.Failure
import OpcodeTables.Settings
import OpcodeTables.Storage.Publication
import OpcodeTables.Tags
import OpcodeTables.Text.Line

/-!
Instruction tables in files, and the files that the output tables go to.
-/

namespace OpcodeTables

/-- The text of a file: its octets read as UTF-8, with each line ended by a newline. -/
def textOfBytes (octets : Bytes) : Except Utf8.Fault Text :=
  (Utf8.decode octets).map Text.unifyNewlines

variable {m : Type → Type} [Monad m] [Storage m]

def readText (path : Path) : m (Except Failure Text) := do
  match ← (Storage.attempt path.toText (Storage.read path.toText)).run with
  | .error error => return .error (.file error)
  | .ok octets => return (textOfBytes octets).mapError .undecodable

/-- Reads the rows of a table in a file. -/
def readRowsFile (path : Path) (order : RowOrder) : m (Traced Failure (List Row)) := do
  match ← readText path with
  | .error failure => return ⟨[], .error failure⟩
  | .ok text =>
    return (readRows path.toText order text).mapError fun error => .compile (.row error)

/-- Compiles a table in a file. The file goes by the name that it is asked for by. -/
def compileFile (check : Bool) (order : RowOrder) (name : Text) : m (Traced Failure Tables) := do
  let path := Path.ofText name
  match ← readText path with
  | .error failure => return ⟨[], .error failure⟩
  | .ok text => return (compileAs check name path.toText order text).mapError .compile

/-- The two files that the tables go to. -/
def Settings.deliveries (settings : Settings) (tags : Tags) (tables : Tables) : List Delivery := [
  ⟨settings.rulesPath, Utf8.encode tables.rules, tags.rules⟩,
  ⟨settings.assemblyPath, Utf8.encode tables.assembly, tags.assembly⟩
]

def writeTables (settings : Settings) (tags : Tags) (tables : Tables)
    : m (Traced FileError Unit) := do
  let publication ← Publication.publish (settings.deliveries tags tables)
  return ⟨publication.replaced.map fun path => .wrote path.toText, publication.outcome⟩

/-- Writes tables to their files if they have been compiled. -/
def writeCompiled (settings : Settings) (tags : Tags) (compiled : Traced Failure Tables)
    : m (Traced Failure Tables) := do
  match compiled.outcome with
  | .error _ => return compiled
  | .ok tables =>
    let written ← writeTables settings tags tables
    return {
      events := compiled.events ++ written.events
      outcome := (written.outcome.mapError .file).map fun _ => tables
    }

end OpcodeTables
