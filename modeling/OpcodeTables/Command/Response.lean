import OpcodeTables.Command.Arguments
import OpcodeTables.Failure
import OpcodeTables.Text.Styling

/-!
What the command answers: the text on its two output channels and its exit status. Events and
failures go to the error channel, and what has been done, if asked for, to the other one.
-/

namespace OpcodeTables.Command

def commandName : String := "isagen"

def version : String := "1.0.0"

/-- Something that a run says it does or has done. -/
inductive Notice where
  | compilingBuiltin
  | compiling (table : Path)
  | wroteRules (count : Nat) (path : Path)
  | wroteOpcodes (count : Nat) (path : Path)
deriving DecidableEq, Repr

/-- What there is to tell about a run. -/
structure Report where
  events : List Event
  notices : List Notice
  failure : Option Failure

/-- What the arguments lead to. -/
inductive Response where
  | misused (error : UsageError)
  | versionShown
  | helpShown
  | ran (verbose : Bool) (report : Report)

/-- The exit status and the texts on the two channels. -/
structure Output where
  code : Nat
  out : Text
  err : Text
deriving DecidableEq, Repr

/-- Lines, each of them ended by a newline. -/
def ended (lines : List Text) : Text :=
  lines.flatMap (· ++ ['\n'])

def Notice.message : Notice → String
  | compilingBuiltin => "Compiling built-in table..."
  | compiling table => s!"Compiling {String.ofList table.toText}..."
  | wroteRules count path => s!"Wrote {count} rules to {String.ofList path.toText}"
  | wroteOpcodes count path => s!"Wrote {count} opcodes to {String.ofList path.toText}"

/-- The line of an event. Details have lines in verbose runs only, and there every line tells the
severity.
-/
def eventLine? (verbose : Bool) (event : Event) : Option Text :=
  if verbose then some s!"{event.severity.word}: {event.message}".toList
  else if event.severity = .debug then none
  else some event.message.toList

/-- What stands before the message of a failure. The message of a table error says itself what it
is.
-/
def opening : ExitStatus → Text
  | .success | .tableError => []
  | .unusableFiles => "Error: ".toList
  | .internalError => "Internal error: ".toList

/-- The lines of a failure. In verbose runs, a line stands for the trace of an internal error. -/
def failureLines (verbose : Bool) (status : ExitStatus) (message : Text) : List Text :=
  let trace := if verbose ∧ status = .internalError then ["<traceback>".toList] else []
  Text.withoutStyling (opening status ++ message) :: trace

def Report.status (report : Report) : ExitStatus :=
  report.failure.elim .success Failure.status

/-- What a run ends with and what it tells on the two channels. Both are taken to accept every text:
whatever encoding they have, no character of a name or a path is kept from being written. That is an
idealization, since a channel may have an encoding in which some characters have no form.
-/
def Report.output (verbose : Bool) (report : Report) : Output :=
  let notices := report.notices.map fun notice => Text.withoutStyling notice.message.toList
  let failure := report.failure.elim [] fun failure =>
    failureLines verbose failure.status failure.message
  { code := report.status.code
    out := if verbose then ended notices else []
    err := ended (report.events.filterMap (eventLine? verbose) ++ failure) }

/-- The lines that help those who ask for it. -/
def helpLines : List String := [
  s!"Usage: {commandName} [OPTIONS]",
  "",
  "  Compile an instruction table into rule and assembly tables.",
  "",
  "Options:",
  "  -t, --table FILE            Instruction table file (default: built-in table)",
  "  --ascending                 Table rows are in ascending opcode order",
  "  -o, --output-dir DIRECTORY  Directory for the output files",
  "  --rules-name TEXT           Rule table file name",
  "  --assembly-name TEXT        Assembly table file name",
  "  --no-check                  Skip the check that no two opcodes have the same bits",
  "  -v, --verbose               Verbose output",
  "  --version                   Show the version and exit.",
  "  --help                      Show this message and exit."
]

def Response.output : Response → Output
  | misused error => ⟨2, [], ended [s!"Error: {error.message}".toList]⟩
  | versionShown => ⟨0, ended [s!"{commandName}, version {version}".toList], []⟩
  | helpShown => ⟨0, ended (helpLines.map String.toList), []⟩
  | ran verbose report => report.output verbose

end OpcodeTables.Command
