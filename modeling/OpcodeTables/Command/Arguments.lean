import OpcodeTables.Text.Quoted

/-!
The arguments of the command, read one after another. Long options are never shortened, and a
value may stand in the same argument as its option or in the next one. Several short options may
stand in one argument, where all but the last are switches. Two dashes alone end the options.
-/

namespace OpcodeTables.Command

--------------------------------------------------------------------------------
-- Options
--------------------------------------------------------------------------------

/-- Options that stand for themselves. -/
inductive Switch where
  | ascending
  | noCheck
  | verbose
  | version
  | help
deriving DecidableEq, Repr

/-- Options that have a value. -/
inductive Parameter where
  | table
  | directory
  | rulesName
  | assemblyName
deriving DecidableEq, Repr

/-- An option of either kind. -/
inductive Choice where
  | switch (switch : Switch)
  | parameter (parameter : Parameter)
deriving DecidableEq, Repr

/-- An option as it has been given. -/
inductive Given where
  | switch (switch : Switch)
  | value (parameter : Parameter) (value : Text)
deriving DecidableEq, Repr

def longNames : List (Text × Choice) := [
  ("--table".toList, .parameter .table),
  ("--ascending".toList, .switch .ascending),
  ("--output-dir".toList, .parameter .directory),
  ("--rules-name".toList, .parameter .rulesName),
  ("--assembly-name".toList, .parameter .assemblyName),
  ("--no-check".toList, .switch .noCheck),
  ("--verbose".toList, .switch .verbose),
  ("--version".toList, .switch .version),
  ("--help".toList, .switch .help)
]

def shortNames : List (Char × Choice) :=
  [('t', .parameter .table), ('o', .parameter .directory), ('v', .switch .verbose)]

--------------------------------------------------------------------------------
-- Errors
--------------------------------------------------------------------------------

/-- What is wrong with the arguments. -/
inductive UsageError where
  | unknownOption (name : Text)
  | missingValue (name : Text)
  | unexpectedValue (name : Text)
  | extraArguments (arguments : List Text)
  | absentFile (path : Text)
  | fileIsDirectory (path : Text)
  | directoryIsFile (path : Text)
deriving DecidableEq, Repr

def UsageError.message : UsageError → String
  | unknownOption name => s!"No such option: {String.ofList name}"
  | missingValue name => s!"Option {String.ofList (Text.quoted name)} requires an argument."
  | unexpectedValue name => s!"Option {String.ofList (Text.quoted name)} does not take a value."
  | extraArguments arguments =>
    let noun := if arguments.length = 1 then "argument" else "arguments"
    let listed := String.intercalate " " (arguments.map String.ofList)
    s!"Got unexpected extra {noun} ({listed})"
  | absentFile path => s!"File {String.ofList (Text.quoted path)} does not exist."
  | fileIsDirectory path => s!"File {String.ofList (Text.quoted path)} is a directory."
  | directoryIsFile path => s!"Directory {String.ofList (Text.quoted path)} is a file."

--------------------------------------------------------------------------------
-- One argument
--------------------------------------------------------------------------------

/-- The options in one argument, and the parameter whose value has to be the next argument, with
the name by which it has been given.
-/
structure Reading where
  given : List Given
  awaited : Option (Parameter × Text)
deriving DecidableEq, Repr

/-- Reads short options. What follows a parameter in the same argument is its value. -/
def readShort : Text → Except UsageError Reading
  | [] => .ok ⟨[], none⟩
  | letter :: rest =>
    match shortNames.lookup letter, rest with
    | none, _ => .error (.unknownOption ['-', letter])
    | some (.switch switch), _ =>
      (readShort rest).map fun reading => { reading with given := .switch switch :: reading.given }
    | some (.parameter parameter), [] => .ok ⟨[], some (parameter, ['-', letter])⟩
    | some (.parameter parameter), value => .ok ⟨[.value parameter value], none⟩

/-- The text before the first equals sign, and the text after it. -/
def splitValue (argument : Text) : Text × Option Text :=
  match argument.dropWhile (· ≠ '=') with
  | [] => (argument, none)
  | _ :: value => (argument.takeWhile (· ≠ '='), some value)

/-- Reads an argument that starts with a dash. One dash opens a long name as well as two do, but
only after one dash can there be short options.
-/
def readOptions (argument : Text) : Except UsageError Reading :=
  let (name, value?) := splitValue argument
  match longNames.lookup name, value? with
  | some (.switch switch), none => .ok ⟨[.switch switch], none⟩
  | some (.switch _), some _ => .error (.unexpectedValue name)
  | some (.parameter parameter), some value => .ok ⟨[.value parameter value], none⟩
  | some (.parameter parameter), none => .ok ⟨[], some (parameter, name)⟩
  | none, _ =>
    if ['-', '-'].isPrefixOf argument then .error (.unknownOption name)
    else readShort (argument.drop 1)

/-- An argument that holds options: a dash and something after it. -/
def holdsOptions (argument : Text) : Bool :=
  match argument with
  | '-' :: _ :: _ => true
  | _ => false

--------------------------------------------------------------------------------
-- All arguments
--------------------------------------------------------------------------------

/-- The options of a command line in the order in which they are given, and the arguments that
belong to no option.
-/
structure Arguments where
  given : List Given
  extra : List Text
deriving DecidableEq, Repr

/-- The arguments with some options in front. -/
def Arguments.after (given : List Given) (arguments : Arguments) : Arguments :=
  { arguments with given := given ++ arguments.given }

/-- Reads arguments. The first of them is the value of a parameter that waits for one. -/
def readFrom : Option (Parameter × Text) → List Text → Except UsageError Arguments
  | none, [] => .ok ⟨[], []⟩
  | some (_, name), [] => .error (.missingValue name)
  | some (parameter, _), value :: rest => (readFrom none rest).map (.after [.value parameter value])
  | none, argument :: rest =>
    if argument = ['-', '-'] then
      .ok ⟨[], rest⟩
    else if holdsOptions argument then
      match readOptions argument with
      | .error error => .error error
      | .ok reading => (readFrom reading.awaited rest).map (.after reading.given)
    else
      (readFrom none rest).map fun arguments =>
        { arguments with extra := argument :: arguments.extra }

namespace Arguments

def read (arguments : List Text) : Except UsageError Arguments :=
  readFrom none arguments

def has (arguments : Arguments) (switch : Switch) : Bool :=
  arguments.given.contains (.switch switch)

def values (arguments : Arguments) (parameter : Parameter) : List Text :=
  arguments.given.filterMap fun
    | .value other value => if other = parameter then some value else none
    | .switch _ => none

/-- The value of a parameter that counts, which is the last one. -/
def value? (arguments : Arguments) (parameter : Parameter) : Option Text :=
  (arguments.values parameter).getLast?

/-- The first switch that asks for information instead of a run. -/
def inquiry? (arguments : Arguments) : Option Switch :=
  arguments.given.findSome? fun
    | .switch .version => some .version
    | .switch .help => some .help
    | _ => none

/-- The parameters in the order in which they are first given. -/
def parameters (arguments : Arguments) : List Parameter :=
  (arguments.given.filterMap fun
    | .value parameter _ => some parameter
    | .switch _ => none).eraseDups

end Arguments

end OpcodeTables.Command
