import OpcodeTables.Row
import OpcodeTables.Text.Quoted

/-!
Events are what a run tells about its progress. Details are for those who ask for them.
-/

namespace OpcodeTables

/-- How much attention an event deserves. -/
inductive Severity where
  | debug
  | info
  | warning
deriving DecidableEq, Repr

/-- A step of a run. -/
inductive Event where
  /-- A table has been read. -/
  | parsed (rows : Nat) (source : Text)
  /-- An immediate form whose name does not agree with its bits has been left out. -/
  | mismatched (row : Row)
  /-- An immediate form has been left out, because its base row brings it back. -/
  | regenerated (row : Row)
  /-- An instruction has been given its immediate forms. -/
  | expanded (name : Text) (forms : List Text)
  /-- A table has been expanded. -/
  | expansion (rows dropped : Nat)
  /-- A table has been compiled. -/
  | compiled (source : Text) (rows rules opcodes : Nat)
  /-- A file has been put in place. -/
  | wrote (path : Text)
  /-- A setting of the collision check has not been understood. -/
  | ignoredCheck (value : Text)
deriving DecidableEq, Repr

def Severity.word : Severity → String
  | .debug => "DEBUG"
  | .info => "INFO"
  | .warning => "WARNING"

namespace Event

def severity : Event → Severity
  | mismatched _ | ignoredCheck _ => .warning
  | compiled .. => .info
  | _ => .debug

/-- The tag that the bits of a row ask for. -/
def expectedTag (row : Row) : String :=
  match Mode.ofBits? row.modeBits with
  | some mode => s!"'{String.ofList mode.tag}'"
  | none => "none"

def message : Event → String
  | parsed rows source => s!"Parsed {rows} rows from {String.ofList source}"
  | mismatched row =>
    s!"Dropping '{String.ofList row.name}' ({String.ofList row.bits}): " ++
      s!"mode bits {String.ofList row.modeBits} expect suffix {expectedTag row}"
  | regenerated row => s!"Skipping pre-expanded row '{String.ofList row.name}'"
  | expanded name forms =>
    let shown := String.intercalate ", " (forms.map String.ofList)
    s!"Expanded '{String.ofList name}' into {shown}"
  | expansion rows dropped =>
    s!"Expansion produced {rows} rows ({dropped} pre-expanded rows dropped)"
  | compiled source rows rules opcodes =>
    s!"Compiled {String.ofList source}: {rows} rows -> {rules} rules, {opcodes} opcodes"
  | wrote path => s!"Wrote {String.ofList path}"
  | ignoredCheck value =>
    s!"Ignoring invalid ISAGEN_CHECK_COLLISIONS={String.ofList (Text.quoted value)}"

end Event

end OpcodeTables
