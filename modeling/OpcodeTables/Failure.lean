import OpcodeTables.Compilation
import OpcodeTables.Storage.FileError
import OpcodeTables.Utf8

/-!
Failures end a run. The exit status tells whose concern a failure is: the author of the table, who
has to mend it, the user, who named files that cannot be used, or the maker of the program.
-/

namespace OpcodeTables

/-- How a run has ended. -/
inductive ExitStatus where
  | success
  | tableError
  | unusableFiles
  | internalError
deriving DecidableEq, Repr

def ExitStatus.code : ExitStatus → Nat
  | success => 0
  | tableError => 1
  | unusableFiles => 2
  | internalError => 3

/-- Why a run has not produced its tables. -/
inductive Failure where
  | compile (error : CompileError)
  | undecodable (fault : Utf8.Fault)
  | file (error : FileError)
deriving DecidableEq, Repr

def CompileError.message : CompileError → Text
  | row error => error.diagnostic.render
  | collision found => found.diagnostic.render
  | opcode error => error.message.toList

/-- A wildcard is the table's concern; other bits that are no number should have been refused. -/
def CompileError.status : CompileError → ExitStatus
  | row _ | collision _ | opcode (.wildcard ..) => .tableError
  | opcode (.notBinary _) | opcode .tooManyDigits => .internalError

/-- Files are unusable for faults of the system only. A name with a null character is not one that a
user can give, and a way that is out of reach is told as an error of the run itself.
-/
def FileError.status (error : FileError) : ExitStatus :=
  if error.fault.ofSystem then .unusableFiles else .internalError

namespace Failure

def message : Failure → Text
  | compile error => error.message
  | undecodable fault => fault.message.toList
  | file error => error.message

def status : Failure → ExitStatus
  | compile error => error.status
  | undecodable _ => .internalError
  | file error => error.status

/-- The failure as it reads with another tag in the name of a staging file. -/
def withTag (tag : Text) : Failure → Failure
  | file error => file (error.withTag tag)
  | failure => failure

end Failure

end OpcodeTables
