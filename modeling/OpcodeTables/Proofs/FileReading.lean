import OpcodeTables.Proofs.Text.Lines
import OpcodeTables.Proofs.Utf8Reading
import OpcodeTables.Storage.FileTree
import OpcodeTables.TableFiles

/-! Reading a table from a file is reading the text that the file is written for. Only a file has its
newlines unified before it is cut into lines, and that changes neither the lines nor their numbers.
-/

namespace OpcodeTables

theorem readRows_unifyNewlines (source : Text) (order : RowOrder) (text : Text)
    : readRows source order (Text.unifyNewlines text) = readRows source order text := by
  unfold readRows RuleTable.parse
  rw [Text.lines_unifyNewlines]

theorem compileAs_unifyNewlines (check : Bool) (name source : Text) (order : RowOrder) (text : Text)
    : compileAs check name source order (Text.unifyNewlines text)
      = compileAs check name source order text := by
  unfold compileAs
  rw [readRows_unifyNewlines]

/-- What a file holds as a text, before its newlines are unified. -/
def FileTree.text? (tree : FileTree) (path : Text) : Except Failure Text :=
  match tree.read path with
  | .error fault => .error (.file (.failed fault path))
  | .ok octets => (Utf8.decode octets).mapError .undecodable

theorem FileTree.text?_of_read {tree : FileTree} {path : Text} {octets : Bytes}
    (read : tree.read path = .ok octets)
    : tree.text? path = (Utf8.decode octets).mapError .undecodable := by
  rw [text?, read]

/-- Reading leaves the files alone. -/
theorem readText_run (path : Path) (tree : FileTree)
    : (readText path : StateM FileTree (Except Failure Text)) tree
      = ((tree.text? path.toText).map Text.unifyNewlines, tree) := by
  have run : (Storage.attempt path.toText (Storage.read path.toText)
      : FileWork (StateM FileTree) Bytes).run tree
      = ((tree.read path.toText).mapError (.failed · path.toText), tree) := rfl
  simp only [readText, FileTree.text?, textOfBytes, bind, StateT.bind, run]
  cases tree.read path.toText with
  | error fault => rfl
  | ok octets => cases decoded : Utf8.decode octets <;> simp [decoded] <;> rfl

/-- A file is compiled as the text that it holds, if it holds one. -/
theorem compileFile_run (check : Bool) (order : RowOrder) (name : Text) (tree : FileTree)
    : (compileFile check order name : StateM FileTree (Traced Failure Tables)) tree =
      (match tree.text? (Path.ofText name).toText with
        | .error failure => ⟨[], .error failure⟩
        | .ok text =>
          (compileAs check name (Path.ofText name).toText order text).mapError .compile, tree) := by
  have run := readText_run (Path.ofText name) tree
  simp only [compileFile, bind, StateT.bind]
  rw [run]
  cases tree.text? (Path.ofText name).toText with
  | error failure => rfl
  | ok text =>
      have same := compileAs_unifyNewlines check name (Path.ofText name).toText order text
      exact congrArg (fun compiled => (Traced.mapError Failure.compile compiled, tree)) same

theorem readRowsFile_run (path : Path) (order : RowOrder) (tree : FileTree)
    : (readRowsFile path order : StateM FileTree (Traced Failure (List Row))) tree =
      (match tree.text? path.toText with
        | .error failure => ⟨[], .error failure⟩
        | .ok text =>
          (readRows path.toText order text).mapError fun error => .compile (.row error), tree) := by
  have run := readText_run path tree
  simp only [readRowsFile, bind, StateT.bind]
  rw [run]
  cases tree.text? path.toText with
  | error failure => rfl
  | ok text =>
      have same := readRows_unifyNewlines path.toText order text
      exact congrArg (fun rows => (Traced.mapError (Failure.compile ∘ .row) rows, tree)) same

/-- A table in a file is compiled and read like the text that the file is written for: with the same
events, and to the same tables or the same error, which tells the same line of the same table. The
name of the file has to be the text of a path, since rows are told by that and tables by the name.
-/
theorem file_agrees_with_text {tree : FileTree} {name text : Text}
    (normal : (Path.ofText name).toText = name) (file : tree.read name = .ok (Utf8.encode text))
    (check : Bool) (order : RowOrder)
    : (compileFile check order name : StateM FileTree (Traced Failure Tables)) tree
        = ((compile check name order text).mapError .compile, tree)
      ∧ (readRowsFile (Path.ofText name) order : StateM FileTree (Traced Failure (List Row))) tree
        = ((readRows name order text).mapError fun error => .compile (.row error), tree) := by
  have held : tree.text? (Path.ofText name).toText = .ok text := by
    rw [normal, FileTree.text?_of_read file, Utf8.decode_eq_ok_iff.mpr rfl]
    rfl
  constructor
  · rw [compileFile_run, held, normal]
    rfl
  · rw [readRowsFile_run, held, normal]

/-- A row, a break of two characters behind one of a single character, one line that ends with a
newline in front of a carriage return, and a line that is no row.
-/
def brokenTable : Text :=
  "0000000057add\r\r\n\n\r000 bad\r".toList

def brokenTree : FileTree where
  current := []
  nodes := [(["t".toList], .file (Utf8.encode brokenTable))]

/-- The line that is no row is the fifth one, whether it is read from the file or from the text. -/
theorem brokenTree_agrees
    : (Path.ofText ['t']).toText = ['t']
      ∧ brokenTree.read ['t'] = .ok (Utf8.encode brokenTable)
      ∧ ((compileFile true .displayed ['t'] : StateM FileTree (Traced Failure Tables))
          brokenTree).1.outcome
        = .error (.compile (.row ⟨.tooShort 7, "000 bad".toList, some ⟨['t'], 5⟩⟩)) := by
  have normal : (Path.ofText ['t']).toText = ['t'] := by decide
  have file : brokenTree.read ['t'] = .ok (Utf8.encode brokenTable) := by rfl
  refine ⟨normal, file, ?_⟩
  rw [(file_agrees_with_text normal file true .displayed).1]
  rfl

end OpcodeTables
