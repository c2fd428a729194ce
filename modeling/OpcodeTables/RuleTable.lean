import OpcodeTables.Row.Format
import OpcodeTables.Text.Line

/-!
Rule tables are rows written one to a line. Blank lines are skipped, but they count when the lines
are numbered. A table that people write lists its highest opcode first.
-/

namespace OpcodeTables

/-- The order in which a table lists its rows: the highest opcode first or the lowest. -/
inductive RowOrder where
  | displayed
  | ascending
deriving DecidableEq, Repr

/-- Brings rows in a given order into ascending order. -/
def RowOrder.ascend (order : RowOrder) (rows : List Row) : List Row :=
  match order with
  | displayed => rows.reverse
  | ascending => rows

namespace RuleTable

/-- Reads lines that are numbered from a given one on, up to the first one that is refused. -/
def rowsFrom (source : Text) (number : Nat) : List Text → Except RowError (List Row)
  | [] => .ok []
  | line :: lines =>
    if Text.trim line = [] then
      rowsFrom source (number + 1) lines
    else
      match Row.parse (some ⟨source, number⟩) line with
      | .error error => .error error
      | .ok row => (rowsFrom source (number + 1) lines).map (row :: ·)

/-- The rows of a table in ascending order. -/
def parse (source : Text) (order : RowOrder) (text : Text) : Except RowError (List Row) :=
  (rowsFrom source 1 (Text.lines text)).map order.ascend

/-- The table that lists rows in the order given. -/
def render (rows : List Row) : Text :=
  Text.joinLines (rows.map Row.render)

end RuleTable

end OpcodeTables
