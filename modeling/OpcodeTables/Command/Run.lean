import OpcodeTables.Command.Response
import OpcodeTables.TableFiles

/-!
The command compiles one table and writes the two output tables. Options take precedence over the
environment, and the environment over the standard settings.
-/

namespace OpcodeTables.Command

variable {m : Type → Type} [Monad m] [Storage m]

/-- Tells what is wrong with the value of a parameter. A table has to be a file; a directory need
not exist, but no file may stand in its place.
-/
def valueError? (parameter : Parameter) (value : Text) : FileWork m (Option UsageError) := do
  match parameter with
  | .table =>
    match ← Storage.lookFor value with
    | some .file => return none
    | some .directory => return some (.fileIsDirectory value)
    | none => return some (.absentFile value)
  | .directory =>
    match ← Storage.lookFor value with
    | some .file => return some (.directoryIsFile value)
    | _ => return none
  | .rulesName | .assemblyName => return none

/-- The first thing that is wrong with the values of some parameters. -/
def firstValueError? (arguments : Arguments) : List Parameter → FileWork m (Option UsageError)
  | [] => return none
  | parameter :: parameters => do
    match arguments.value? parameter with
    | none => firstValueError? arguments parameters
    | some value =>
      match ← valueError? parameter value with
      | some error => return some error
      | none => firstValueError? arguments parameters

def settings (environment : Environment) (arguments : Arguments) : Settings :=
  let base := Settings.ofEnvironment environment
  { directory := (arguments.value? .directory).elim base.directory Path.ofText
    rulesName := (nonempty? (arguments.value? .rulesName)).getD base.rulesName
    assemblyName := (nonempty? (arguments.value? .assemblyName)).getD base.assemblyName
    checkCollisions := base.checkCollisions && !arguments.has .noCheck }

def rowOrder (arguments : Arguments) : RowOrder :=
  if arguments.has .ascending then .ascending else .displayed

/-- What the run says before it compiles. -/
def openingNotice (arguments : Arguments) : Notice :=
  (arguments.value? .table).elim .compilingBuiltin fun table => .compiling (.ofText table)

/-- Compiles the table that the arguments ask for. -/
def compileAsked (environment : Environment) (arguments : Arguments)
    : m (Traced Failure Tables) := do
  let check := (settings environment arguments).checkCollisions
  match arguments.value? .table with
  | none => return (Builtin.compile check).mapError .compile
  | some table => compileFile check (rowOrder arguments) (Path.ofText table).toText

/-- What the run says when it has written the tables. -/
def closingNotices (settings : Settings) (tables : Tables) : List Notice := [
  .wroteRules tables.rows.length settings.rulesPath,
  .wroteOpcodes tables.opcodeCount settings.assemblyPath
]

/-- What there is to tell about a run, once the tables are written or have failed to be. -/
def reportOf (environment : Environment) (arguments : Arguments) (written : Traced Failure Tables)
    : Report :=
  let events := Settings.environmentEvents environment ++ written.events
  let notices := [openingNotice arguments]
  match written.outcome with
  | .error failure => { events, notices, failure := some failure }
  | .ok tables =>
    let closing := closingNotices (settings environment arguments) tables
    { events, notices := notices ++ closing, failure := none }

/-- Compiles the table and writes the output tables. -/
def perform (environment : Environment) (tags : Tags) (arguments : Arguments) : m Report := do
  let compiled ← compileAsked environment arguments
  let written ← writeCompiled (settings environment arguments) tags compiled
  return reportOf environment arguments written

/-- Does what arguments that have been read ask for. Extra arguments are found last. -/
def answer (environment : Environment) (tags : Tags) (arguments : Arguments)
    : FileWork m Response := do
  match arguments.inquiry? with
  | some .version => return .versionShown
  | some _ => return .helpShown
  | none =>
    match ← firstValueError? arguments arguments.parameters with
    | some error => return .misused error
    | none =>
      if arguments.extra = [] then
        let report ← ExceptT.lift (perform environment tags arguments)
        return .ran (arguments.has .verbose) report
      else
        return .misused (.extraArguments arguments.extra)

/-- Runs the command. It has no answer if an argument has to name a file but holds a name that
cannot be looked for; nothing has been done then.
-/
def run (environment : Environment) (tags : Tags) (arguments : List Text) : FileWork m Response :=
  match Arguments.read arguments with
  | .error error => return .misused error
  | .ok arguments => answer environment tags arguments

end OpcodeTables.Command
