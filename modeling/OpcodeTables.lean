import OpcodeTables.AssemblyTable
import OpcodeTables.Builtin
import OpcodeTables.Collision
import OpcodeTables.Command.Arguments
import OpcodeTables.Command.Response
import OpcodeTables.Command.Run
import OpcodeTables.Compilation
import OpcodeTables.Detail
import OpcodeTables.Diagnostic
import OpcodeTables.Edit
import OpcodeTables.Event
import OpcodeTables.Expansion
import OpcodeTables.Failure
import OpcodeTables.Main
import OpcodeTables.Mode
import OpcodeTables.Opcode
import OpcodeTables.Policy
import OpcodeTables.Proofs.AssemblyAgreement
import OpcodeTables.Proofs.CollisionSearch
import OpcodeTables.Proofs.Command.ExitStatuses
import OpcodeTables.Proofs.Command.Refinement
import OpcodeTables.Proofs.Command.Repetition
import OpcodeTables.Proofs.Command.Runs
import OpcodeTables.Proofs.CompilationOutcome
import OpcodeTables.Proofs.DeliveredWrites
import OpcodeTables.Proofs.DerivedForms
import OpcodeTables.Proofs.DisplayedTables
import OpcodeTables.Proofs.DroppedRows
import OpcodeTables.Proofs.ExpandedTables
import OpcodeTables.Proofs.ExpansionEvents
import OpcodeTables.Proofs.FileReading
import OpcodeTables.Proofs.FirstRefusals
import OpcodeTables.Proofs.GatheredRows
import OpcodeTables.Proofs.InstructionCollisions
import OpcodeTables.Proofs.JoinedTables
import OpcodeTables.Proofs.ModeTags
import OpcodeTables.Proofs.NormalizedTables
import OpcodeTables.Proofs.OpcodeMap
import OpcodeTables.Proofs.OpcodeNames
import OpcodeTables.Proofs.OpcodeValues
import OpcodeTables.Proofs.RefusedRows
import OpcodeTables.Proofs.Regeneration
import OpcodeTables.Proofs.RepeatedWrites
import OpcodeTables.Proofs.RowFormat
import OpcodeTables.Proofs.RuleTableReading
import OpcodeTables.Proofs.Storage.ClearNames
import OpcodeTables.Proofs.Storage.DirectTargets
import OpcodeTables.Proofs.Storage.GivenPaths
import OpcodeTables.Proofs.Storage.Operations
import OpcodeTables.Proofs.Storage.PathText
import OpcodeTables.Proofs.Storage.Preparation
import OpcodeTables.Proofs.Storage.PublicationEffect
import OpcodeTables.Proofs.Storage.PublicationFrame
import OpcodeTables.Proofs.Storage.RootedTrees
import OpcodeTables.Proofs.TableEntries
import OpcodeTables.Proofs.TableShape
import OpcodeTables.Proofs.Text.LineBreaks
import OpcodeTables.Proofs.Text.Lines
import OpcodeTables.Proofs.Text.Lowercase
import OpcodeTables.Proofs.TornWrites
import OpcodeTables.Proofs.Utf8Reading
import OpcodeTables.Proofs.WriteFrame
import OpcodeTables.Row
import OpcodeTables.Row.Format
import OpcodeTables.RuleTable
import OpcodeTables.Settings
import OpcodeTables.Storage.Basic
import OpcodeTables.Storage.FileError
import OpcodeTables.Storage.FileTree
import OpcodeTables.Storage.Listing
import OpcodeTables.Storage.Path
import OpcodeTables.Storage.Publication
import OpcodeTables.Storage.Staging
import OpcodeTables.TableFiles
import OpcodeTables.Tags
import OpcodeTables.Text.Basic
import OpcodeTables.Text.Binary
import OpcodeTables.Text.Blank
import OpcodeTables.Text.Digit
import OpcodeTables.Text.Line
import OpcodeTables.Text.Lowercase
import OpcodeTables.Text.Lowercase.CaseRun
import OpcodeTables.Text.Lowercase.SigmaContext
import OpcodeTables.Text.Printable
import OpcodeTables.Text.Quoted
import OpcodeTables.Text.Span
import OpcodeTables.Text.Styling
import OpcodeTables.Traced
import OpcodeTables.Utf8
