import OpcodeTables.Event
import OpcodeTables.Policy

/-!
Expansion adds to each base row the immediate forms of its instruction. The immediate forms that a
table lists itself are dropped, since they come back behind their base rows; so it does no harm to
expand a table again.
-/

namespace OpcodeTables

namespace Row

/-- The form of an instruction in a mode. -/
def derive (row : Row) (mode : Mode) : Row :=
  { row with bits := mode.bits ++ row.baseBits, name := row.name ++ mode.tag }

/-- An immediate form, by its bits or by the tag of its name. -/
def isVariant (row : Row) : Bool :=
  !row.isWildcard && (row.modeBits != plainBits || (Mode.ofName? row.name).isSome)

/-- The row with its name in lowercase letters. -/
def lowered (row : Row) : Row :=
  { row with name := Text.lower row.name }

/-- The immediate forms that the policy of an instruction allows. -/
def variants (row : Row) : List Row :=
  (Policy.ofName row.name).modes.map row.derive

/-- A field as it is, or an instruction in lowercase letters with its immediate forms behind it. -/
def expand (row : Row) : List Row :=
  if row.isWildcard then [row] else row.lowered :: row.lowered.variants

/-- What a row of a table turns into. -/
def contribution (row : Row) : List Row :=
  if row.isVariant then [] else row.expand

/-- What there is to tell about a row of a table. -/
def expansionEvent? (row : Row) : Option Event :=
  if row.isVariant then
    if Mode.ofBits? row.modeBits = Mode.ofName? row.name then
      some (.regenerated row)
    else
      some (.mismatched row)
  else
    match row.expand with
    | base :: form :: forms => some (.expanded base.name ((form :: forms).map Row.name))
    | _ => none

end Row

/-- The rows of an expanded table. -/
def expandTable (rows : List Row) : List Row :=
  rows.flatMap Row.contribution

/-- What there is to tell about the expansion of a table. -/
def expansionEvents (rows : List Row) : List Event :=
  rows.filterMap Row.expansionEvent? ++
    [.expansion (expandTable rows).length (rows.countP Row.isVariant)]

end OpcodeTables
