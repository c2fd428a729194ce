import OpcodeTables.AssemblyTable
import OpcodeTables.Collision
import OpcodeTables.Expansion
import OpcodeTables.RuleTable
import OpcodeTables.Traced

/-!
Compilation makes the two output tables of an instruction table: the rule table, which decodes
opcodes, and the assembly table, which encodes them.
-/

namespace OpcodeTables

/-- The rows of an expanded table with their two written forms. -/
structure Tables where
  rows : List Row
  rules : Text
  assembly : Text
deriving DecidableEq, Repr

def Tables.opcodeCount (tables : Tables) : Nat :=
  tables.rows.countP (!·.isWildcard)

/-- Why a table cannot be compiled. -/
inductive CompileError where
  | row (error : RowError)
  | collision (found : Collision)
  | opcode (error : OpcodeError)
deriving DecidableEq, Repr

def readRows (source : Text) (order : RowOrder) (text : Text) : Traced RowError (List Row) :=
  match RuleTable.parse source order text with
  | .error error => ⟨[], .error error⟩
  | .ok rows => ⟨[.parsed rows.length source], .ok rows⟩

/-- The two tables of rows that are expanded already. -/
def Tables.ofRows (rows : List Row) : Except OpcodeError Tables :=
  (AssemblyTable.render rows).map fun assembly =>
    { rows, rules := RuleTable.render rows, assembly }

/-- Refuses rows that hold a collision, if they are to be checked. -/
def refuseCollision (check : Bool) (rows : List Row) : Except Collision Unit :=
  match check, Collision.find? rows with
  | true, some collision => .error collision
  | _, _ => .ok ()

/-- The tables of an expanded table that has passed the check. -/
def checkedTables (check : Bool) (rows : List Row) : Except CompileError Tables := do
  (refuseCollision check rows).mapError .collision
  (Tables.ofRows rows).mapError .opcode

/-- Compiles rows that have been read from a source. -/
def compileRows (check : Bool) (source : Text) (rows : List Row) : Traced CompileError Tables :=
  let expanded := expandTable rows
  let outcome := checkedTables check expanded
  let closing :=
    match outcome with
    | .error _ => []
    | .ok tables => [.compiled source rows.length expanded.length tables.opcodeCount]
  ⟨expansionEvents rows ++ closing, outcome⟩

/-- Compiles the text of a table. Events name the table, and so do the errors in its rows; the
two names differ if a table is asked for by one name and read by another.
-/
def compileAs (check : Bool) (name source : Text) (order : RowOrder) (text : Text)
    : Traced CompileError Tables :=
  let parsed := readRows source order text
  match parsed.outcome with
  | .error error => ⟨parsed.events, .error (.row error)⟩
  | .ok rows => (compileRows check name rows).after parsed.events

/-- Compiles the text of a table that has one name. -/
def compile (check : Bool) (source : Text) (order : RowOrder) (text : Text)
    : Traced CompileError Tables :=
  compileAs check source source order text

end OpcodeTables
