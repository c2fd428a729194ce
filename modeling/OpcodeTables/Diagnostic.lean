import OpcodeTables.Text.Basic

/-!
Diagnostics tell the author of a table what is wrong with it and where.
-/

namespace OpcodeTables

/-- A line of a table. -/
structure Location where
  source : Text
  line : Int
deriving DecidableEq, Repr

/-- What is wrong, and as far as known the place, the row itself and how to mend it. -/
structure Diagnostic where
  message : Text
  location : Option Location
  hint : Option Text
  row : Option Text
deriving DecidableEq, Repr

/-- The location as it stands before a message. -/
def Location.render (location : Location) : Text :=
  location.source ++ ':' :: Text.decimal location.line

namespace Diagnostic

/-- The line with the message. -/
def headline (diagnostic : Diagnostic) : Text :=
  let message := "error: ".toList ++ diagnostic.message
  match diagnostic.location with
  | some location => location.render ++ ':' :: ' ' :: message
  | none => message

/-- The line with the row, which may be empty. -/
def rowLine (diagnostic : Diagnostic) : List Text :=
  match diagnostic.row with
  | some row => [[' ', ' ', ' ', ' '] ++ row]
  | none => []

/-- The line with the hint, unless the hint is empty. -/
def hintLine (diagnostic : Diagnostic) : List Text :=
  match diagnostic.hint with
  | none | some [] => []
  | some hint => ["hint: ".toList ++ hint]

/-- The diagnostic in one to three lines. -/
def render (diagnostic : Diagnostic) : Text :=
  Text.joinLines (diagnostic.headline :: diagnostic.rowLine ++ diagnostic.hintLine)

end Diagnostic

end OpcodeTables
