import OpcodeTables.Event
import OpcodeTables.Storage.Path
import OpcodeTables.Text.Blank
import OpcodeTables.Text.Lowercase

/-!
Settings say where the output tables go and whether opcodes are checked for collisions. The
environment can change them; a variable that is empty counts as one that is not set.
-/

namespace OpcodeTables

/-- Where the output tables go, and whether opcodes are checked. -/
structure Settings where
  directory : Path
  rulesName : Text
  assemblyName : Text
  checkCollisions : Bool
deriving DecidableEq, Repr

/-- The variables of the environment that change settings, as far as they are set. -/
structure Environment where
  directory : Option Text
  rulesName : Option Text
  assemblyName : Option Text
  checkCollisions : Option Text
deriving DecidableEq, Repr

namespace Environment

/-- The variables by their names. -/
def ofVariables (values : List (String × Text)) : Environment where
  directory := values.lookup "ISAGEN_OUTPUT_DIR"
  rulesName := values.lookup "ISAGEN_RULES_FILE"
  assemblyName := values.lookup "ISAGEN_ASSEMBLY_FILE"
  checkCollisions := values.lookup "ISAGEN_CHECK_COLLISIONS"

def names : List String :=
  ["ISAGEN_OUTPUT_DIR", "ISAGEN_RULES_FILE", "ISAGEN_ASSEMBLY_FILE", "ISAGEN_CHECK_COLLISIONS"]

end Environment

/-- The text of a variable, unless it is empty. -/
def nonempty? : Option Text → Option Text
  | none | some [] => none
  | some text => some text

namespace Settings

/-- The settings that hold where nothing else is said. -/
def standard : Settings where
  directory := .ofText []
  rulesName := "instruction_rules.data".toList
  assemblyName := "assembly.data".toList
  checkCollisions := true

def rulesPath (settings : Settings) : Path :=
  settings.directory.join settings.rulesName

def assemblyPath (settings : Settings) : Path :=
  settings.directory.join settings.assemblyName

/-- The words that switch the check off. -/
def offWords : List Text :=
  ["0", "false", "no", "off"].map String.toList

/-- The words that switch the check on. -/
def onWords : List Text :=
  ["1", "true", "yes", "on"].map String.toList

/-- The meaning of a word for the check, in either case and with blanks around it. -/
def switch? (text : Text) : Option Bool :=
  let word := Text.lower (Text.trim text)
  if word ∈ offWords then some false
  else if word ∈ onWords then some true
  else none

/-- The standard settings with the changes that the environment asks for. -/
def ofEnvironment (environment : Environment) : Settings where
  directory := (nonempty? environment.directory).elim standard.directory Path.ofText
  rulesName := (nonempty? environment.rulesName).getD standard.rulesName
  assemblyName := (nonempty? environment.assemblyName).getD standard.assemblyName
  checkCollisions :=
    ((nonempty? environment.checkCollisions).bind switch?).getD standard.checkCollisions

/-- What there is to tell about the environment: a word for the check that has no meaning. -/
def environmentEvents (environment : Environment) : List Event :=
  match nonempty? environment.checkCollisions with
  | none => []
  | some text => if (switch? text).isNone then [.ignoredCheck text] else []

end Settings

end OpcodeTables
