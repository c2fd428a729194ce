import OpcodeTables.Compilation

/-!
Edits build a table step by step. Rows are read, added, derived, expanded or removed; an edit that
does not work leaves the rows as they are.
-/

namespace OpcodeTables

/-- A step in the making of a table. Rows are counted from zero. -/
inductive Edit where
  /-- Starts again with the rows of a text. -/
  | read (source : Text) (order : RowOrder) (text : Text)
  /-- Adds the row in a line. -/
  | addLine (location : Option Location) (line : Text)
  /-- Adds a row that need not have a written form. -/
  | add (row : Row)
  /-- Removes a row. -/
  | remove (index : Nat)
  /-- Adds the form of a row in a mode. -/
  | derive (index : Nat) (mode : Mode)
  /-- Puts the expansion of a row in its place. -/
  | expandRow (index : Nat)
  /-- Expands the table. -/
  | expand
  /-- Writes the table and reads it again. -/
  | readBack (source : Text) (order : RowOrder)
deriving DecidableEq, Repr

/-- Why an edit does not work. -/
inductive EditError where
  /-- A row cannot be read. -/
  | row (error : RowError)
  /-- There is no row to work on. -/
  | noRow
  /-- There is no row to remove. -/
  | nothingToRemove
deriving DecidableEq, Repr

def EditError.message : EditError → Text
  | row error => error.diagnostic.render
  | noRow => "list index out of range".toList
  | nothingToRemove => "list assignment index out of range".toList

namespace Edit

/-- The row that an edit works on. -/
def rowAt (rows : List Row) (index : Nat) : Except EditError Row :=
  match rows[index]? with
  | some row => .ok row
  | none => .error .noRow

/-- The rows without one of them. -/
def removeAt (rows : List Row) (index : Nat) : Except EditError (List Row) :=
  if index < rows.length then .ok (rows.eraseIdx index) else .error .nothingToRemove

/-- The rows with one of them expanded in its place. -/
def expandAt (rows : List Row) (index : Nat) : Except EditError (List Row) :=
  (rowAt rows index).map fun row => rows.take index ++ row.expand ++ rows.drop (index + 1)

/-- The rows after an edit. -/
def apply (rows : List Row) : Edit → Traced EditError (List Row)
  | read source order text => (readRows source order text).mapError .row
  | addLine location line =>
    ⟨[], ((Row.parse location line).map fun row => rows ++ [row]).mapError .row⟩
  | add row => ⟨[], .ok (rows ++ [row])⟩
  | remove index => ⟨[], removeAt rows index⟩
  | derive index mode => ⟨[], (rowAt rows index).map fun row => rows ++ [row.derive mode]⟩
  | expandRow index => ⟨[], expandAt rows index⟩
  | expand => ⟨expansionEvents rows, .ok (expandTable rows)⟩
  | readBack source order => (readRows source order (RuleTable.render rows)).mapError .row

/-- The rows after an edit, or the rows as they are if it does not work. -/
def step (rows : List Row) (edit : Edit) : List Row :=
  match (edit.apply rows).outcome with
  | .ok next => next
  | .error _ => rows

/-- The rows after some edits. -/
def run (edits : List Edit) : List Row :=
  edits.foldl step []

end Edit

end OpcodeTables
