import OpcodeTables.Proofs.Command.Runs
import OpcodeTables.Proofs.Storage.ClearNames
import OpcodeTables.Proofs.Storage.MissingWays
import OpcodeTables.Proofs.Storage.PublicationFrame

/-! The exit status of a run tells at which stage it has ended: while the table was read, while it was
compiled, or while the tables were written.
-/

namespace OpcodeTables

open FileTree

namespace Command

/-- The exit status that a run with a report ends with. -/
def exitCode (verbose : Bool) (report : Report) : Nat :=
  (Response.ran verbose report).output.code

theorem exitCode_of_failure {report : Report} {failure : Failure}
    (failed : report.failure = some failure) (verbose : Bool)
    : exitCode verbose report = failure.status.code := by
  change (report.failure.elim .success Failure.status).code = _
  rw [failed, Option.elim_some]

theorem status_ne_success (failure : Failure) : failure.status ≠ .success := by
  cases failure with
  | compile error =>
      cases error with
      | row error => simp [Failure.status, CompileError.status]
      | collision found => simp [Failure.status, CompileError.status]
      | opcode error => cases error <;> simp [Failure.status, CompileError.status]
  | undecodable fault => simp [Failure.status]
  | file error =>
      simp only [Failure.status, FileError.status]
      split <;> simp

/-- No failure has the exit status 0. -/
theorem exitCode_eq_zero_iff {report : Report} (verbose : Bool)
    : exitCode verbose report = 0 ↔ report.failure = none := by
  cases failed : report.failure with
  | none =>
      have code : exitCode verbose report = (report.failure.elim .success Failure.status).code := rfl
      simp [code, failed, ExitStatus.code]
  | some failure =>
      have notSuccess := status_ne_success failure
      rw [exitCode_of_failure failed]
      cases status : failure.status <;> simp_all [ExitStatus.code]

/-- An environment in which nothing is set. -/
def bareEnvironment : Environment :=
  .ofVariables []

/-- A table of one instruction. -/
def addTable : Text :=
  "0000000057add".toList

/-- A tree with a table of one instruction. -/
def addTree : FileTree where
  current := ["s".toList]
  nodes := [
    (["t".toList, "s".toList], .file (Utf8.encode addTable)),
    (["s".toList], .directory)
  ]

end Command

end OpcodeTables
