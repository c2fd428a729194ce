import OpcodeTables.Proofs.Command.Repetition
import OpcodeTables.Proofs.RetaggedWrites

/-! A run of the command ends as compiling and writing without it would, with the settings that the
arguments and the environment lead to. What it tells on the way has no part in that, and neither has
a variable whose setting the arguments give.
-/

namespace OpcodeTables

open FileTree

--------------------------------------------------------------------------------
-- Tables without the command
--------------------------------------------------------------------------------

namespace Command

--------------------------------------------------------------------------------
-- Settings
--------------------------------------------------------------------------------

/-- Two environments that agree but for variables whose settings the arguments give. -/
structure AgreeBut (arguments : Arguments) (environment other : Environment) : Prop where
  directory : arguments.value? .directory = none → other.directory = environment.directory
  rulesName
    : nonempty? (arguments.value? .rulesName) = none → other.rulesName = environment.rulesName
  assemblyName
    : nonempty? (arguments.value? .assemblyName) = none
      → other.assemblyName = environment.assemblyName
  checkCollisions
    : arguments.has .noCheck = false → other.checkCollisions = environment.checkCollisions

theorem AgreeBut.settings_eq {arguments : Arguments} {environment other : Environment}
    (agree : AgreeBut arguments environment other)
    : settings other arguments = settings environment arguments := by
  simp only [settings, Settings.ofEnvironment, Settings.mk.injEq]
  refine ⟨?_, ?_, ?_, ?_⟩
  · cases given : arguments.value? .directory with
    | none => rw [agree.directory given]
    | some value => rfl
  · cases given : nonempty? (arguments.value? .rulesName) with
    | none => rw [agree.rulesName given]
    | some name => rfl
  · cases given : nonempty? (arguments.value? .assemblyName) with
    | none => rw [agree.assemblyName given]
    | some name => rfl
  · cases given : arguments.has .noCheck with
    | false => rw [agree.checkCollisions given]
    | true => simp

--------------------------------------------------------------------------------
-- Verbosity
--------------------------------------------------------------------------------

/-- The arguments without the switch that asks for more to be told. -/
def silent (arguments : Arguments) : Arguments :=
  { arguments with given := arguments.given.filter (· ≠ .switch .verbose) }

/-- How a run of the command has ended: with an exit status and with the files of a tree. -/
structure EndsAs (ran : Except FileError Response × FileTree) (status : ExitStatus)
    (tree : FileTree) : Prop where
  response
    : ∃ verbose report,
        ran.1 = .ok (.ran verbose report) ∧ exitCode verbose report = status.code
  current : ran.2.current = tree.current
  node : ∀ place, ran.2.node? place = tree.node? place

theorem EndsAs.of_same {ran : Except FileError Response × FileTree} {status : ExitStatus}
    {tree next : FileTree} (ends : EndsAs ran status tree) (same : next.SameOutside [] tree)
    : EndsAs ran status next where
  response := ends.response
  current := ends.current.trans same.directories.current
  node place := (ends.node place).trans (same.node place List.not_mem_nil)

end Command

end OpcodeTables
