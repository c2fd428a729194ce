import OpcodeTables.Command.Run
import OpcodeTables.Proofs.CompilationOutcome
import OpcodeTables.Proofs.FileReading
import OpcodeTables.Proofs.Storage.GivenPaths
import OpcodeTables.Proofs.TornWrites

/-! Which arguments lead to a run, and what a run does: it compiles the table that the arguments name,
which leaves the files alone, and writes what has been compiled.
-/

namespace OpcodeTables.Command

open FileTree

--------------------------------------------------------------------------------
-- Arguments that lead to a run
--------------------------------------------------------------------------------

/-- A value that a parameter can have: a table has to be a file, and no file may stand in the place
of a directory.
-/
def Accepts (tree : FileTree) (parameter : Parameter) (value : Text) : Prop :=
  match parameter with
  | .table => tree.kind value = .ok .file
  | .directory => tree.kind value ≠ .ok .file ∧ tree.kind value ≠ .error .nullInName
  | .rulesName | .assemblyName => True

/-- Arguments that lead to a run in a tree. -/
structure Admitted (tree : FileTree) (arguments : Arguments) : Prop where
  noInquiry : arguments.inquiry? = none
  noExtra : arguments.extra = []
  accepted
    : ∀ parameter value,
        arguments.value? parameter = some value → Accepts tree parameter value

/-- What stands at a path, if anything does and the path can be looked for. -/
def lookedFor (tree : FileTree) (path : Text) : Except FileError (Option FileKind) :=
  match tree.kind path with
  | .ok found => .ok (some found)
  | .error .nullInName => .error (.failed .nullInName path)
  | .error _ => .ok none

theorem run_lookFor (tree : FileTree) (path : Text)
    : (Storage.lookFor path : Work (Option FileKind)).run tree = (lookedFor tree path, tree) := by
  change (match tree.kind path with
    | .ok found => pure (.ok (some found))
    | .error .nullInName => pure (.error (.failed .nullInName path))
    | .error _ => pure (.ok none)
      : StateM FileTree (Except FileError (Option FileKind))) tree = _
  unfold lookedFor
  cases tree.kind path with
  | ok found => rfl
  | error fault => cases fault <;> rfl

theorem lookedFor_eq_file_iff {tree : FileTree} {path : Text}
    : lookedFor tree path = .ok (some .file) ↔ tree.kind path = .ok .file := by
  unfold lookedFor
  cases tree.kind path with
  | ok found => simp
  | error fault => cases fault <;> simp

/-- Nothing is wrong with a value exactly if the parameter accepts it. Looking changes nothing. -/
theorem run_valueError? (tree : FileTree) (parameter : Parameter) (value : Text)
    : let run := (valueError? parameter value : Work (Option UsageError)).run tree
      run.2 = tree ∧ (run.1 = .ok none ↔ Accepts tree parameter value) := by
  cases parameter with
  | table =>
      rw [valueError?, run_bind, run_lookFor]
      unfold Accepts
      rw [← lookedFor_eq_file_iff]
      rcases lookedFor tree value with error | _ | _ | _ <;> simp
  | directory =>
      rw [valueError?, run_bind, run_lookFor]
      unfold Accepts lookedFor
      rcases tree.kind value with fault | _ | _
      · cases fault <;> simp
      · simp
      · simp
  | rulesName => simp [valueError?, Accepts]
  | assemblyName => simp [valueError?, Accepts]

/-- Nothing is wrong with some parameters exactly if each of them accepts the value that it has, by
induction over the parameters.
-/
theorem run_firstValueError? (tree : FileTree) (arguments : Arguments) (parameters : List Parameter)
    : let run := (firstValueError? arguments parameters : Work (Option UsageError)).run tree
      run.2 = tree
      ∧ (run.1 = .ok none
        ↔ ∀ parameter ∈ parameters, ∀ value,
            arguments.value? parameter = some value → Accepts tree parameter value) := by
  induction parameters with
  | nil => simp [firstValueError?]
  | cons parameter parameters ih =>
      rw [firstValueError?]
      cases given : arguments.value? parameter with
      | none => simpa [given] using ih
      | some value =>
          obtain ⟨left, accepted⟩ := run_valueError? tree parameter value
          rw [run_bind]
          rcases ran : (valueError? parameter value : Work (Option UsageError)).run tree
            with ⟨error | _ | error, next⟩
          · simp_all
          · rw [ran] at left accepted
            obtain rfl : next = tree := left
            simpa [given, accepted.mp rfl] using ih
          · simp_all

--------------------------------------------------------------------------------
-- Runs
--------------------------------------------------------------------------------

theorem mem_parameters {arguments : Arguments} {parameter : Parameter} {value : Text}
    (given : arguments.value? parameter = some value)
    : parameter ∈ arguments.parameters := by
  have member := List.mem_of_getLast? given
  obtain ⟨option, known, same⟩ := List.mem_filterMap.mp member
  cases option with
  | switch switch => cases same
  | value other text =>
      have named : other = parameter := by
        by_contra different
        simp [different] at same
      rw [Arguments.parameters, List.mem_eraseDups]
      exact List.mem_filterMap.mpr ⟨_, known, congrArg some named⟩

/-- Arguments that are admitted lead to a run. -/
theorem run_answer {environment : Environment} {tags : Tags} {arguments : Arguments}
    {tree : FileTree} (admitted : Admitted tree arguments)
    : let run := (perform environment tags arguments : StateM FileTree Report) tree
      (answer environment tags arguments : Work Response).run tree
        = (.ok (.ran (arguments.has .verbose) run.1), run.2) := by
  obtain ⟨left, accepted⟩ := run_firstValueError? tree arguments arguments.parameters
  unfold answer
  rw [admitted.noInquiry, run_bind]
  rcases ran : (firstValueError? arguments arguments.parameters : Work (Option UsageError)).run tree
    with ⟨outcome, next⟩
  rw [ran] at left accepted
  obtain rfl : next = tree := left
  obtain rfl : outcome = .ok none :=
    accepted.mpr fun parameter _ value => admitted.accepted parameter value
  rw [if_pos admitted.noExtra]
  rfl

/-- Arguments that ask for information get it. -/
theorem answer_of_inquiry (environment : Environment) (tags : Tags) {arguments : Arguments}
    {switch : Switch} (asked : arguments.inquiry? = some switch) (tree : FileTree)
    : ∃ response,
        (answer environment tags arguments : Work Response).run tree = (.ok response, tree)
        ∧ response.output.code = 0
        ∧ ∀ verbose report, response ≠ .ran verbose report := by
  unfold answer
  rw [asked]
  cases switch <;> exact ⟨_, rfl, rfl, nofun⟩

/-- Other arguments that are not admitted are refused. -/
theorem answer_of_refused (environment : Environment) (tags : Tags) {arguments : Arguments}
    {tree : FileTree} (noInquiry : arguments.inquiry? = none) (refused : ¬Admitted tree arguments)
    : let run := (answer environment tags arguments : Work Response).run tree
      run.2 = tree ∧ ∀ response, run.1 = .ok response → ∃ error, response = .misused error := by
  obtain ⟨left, accepted⟩ := run_firstValueError? tree arguments arguments.parameters
  unfold answer
  rw [noInquiry, run_bind]
  rcases ran : (firstValueError? arguments arguments.parameters : Work (Option UsageError)).run tree
    with ⟨error | _ | error, next⟩
  · rw [ran] at left
    exact ⟨left, nofun⟩
  · rw [ran] at left accepted
    by_cases extra : arguments.extra = []
    · apply absurd _ refused
      refine ⟨noInquiry, extra, ?_⟩
      intro parameter value given
      exact accepted.mp rfl parameter (mem_parameters given) value given
    · rw [if_neg extra]
      exact ⟨left, fun _ same => ⟨_, (Except.ok.inj same).symm⟩⟩
  · rw [ran] at left
    exact ⟨left, fun _ same => ⟨_, (Except.ok.inj same).symm⟩⟩

/-- The name of the table that the arguments ask for. -/
def tableName (arguments : Arguments) : Text :=
  (arguments.value? .table).elim Builtin.source fun table => (Path.ofText table).toText

/-- The order in which that table lists its rows. The built-in table has one of its own. -/
def tableOrder (arguments : Arguments) : RowOrder :=
  (arguments.value? .table).elim .displayed fun _ => rowOrder arguments

/-- What that table is written as. -/
def tableOctets (tree : FileTree) (arguments : Arguments) : Except FileFault Bytes :=
  (arguments.value? .table).elim (.ok (Utf8.encode Builtin.text)) tree.read

theorem Admitted.exists_tableOctets {tree : FileTree} {arguments : Arguments}
    (admitted : Admitted tree arguments)
    : ∃ octets, tableOctets tree arguments = .ok octets := by
  unfold tableOctets
  cases given : arguments.value? .table with
  | none => exact ⟨_, rfl⟩
  | some table => exact kind_eq_file_iff.mp (admitted.accepted .table table given)

/-- The outcome of compiling a table that is written as some octets. -/
def outcomeOf (check : Bool) (name : Text) (order : RowOrder) (octets : Bytes)
    : Except Failure Tables :=
  match Utf8.decode octets with
  | .error fault => .error (.undecodable fault)
  | .ok text => (compile check name order text).outcome.mapError .compile

theorem outcomeOf_refused {check : Bool} {name text : Text} {order : RowOrder} {error : CompileError}
    (refused : (compile check name order text).outcome = .error error)
    : outcomeOf check name order (Utf8.encode text) = .error (.compile error) := by
  simp only [outcomeOf, Utf8.decode_eq_ok_iff.mpr rfl, refused]
  rfl

theorem outcomeOf_eq_ok_iff {check : Bool} {name : Text} {order : RowOrder} {octets : Bytes}
    {tables : Tables}
    : outcomeOf check name order octets = .ok tables
      ↔ ∃ text,
          Utf8.encode text = octets ∧ (compile check name order text).outcome = .ok tables := by
  simp only [← Utf8.decode_eq_ok_iff]
  unfold outcomeOf
  cases Utf8.decode octets with
  | error fault => simp
  | ok text =>
      simp only [Except.ok.injEq, exists_eq_left']
      cases (compile check name order text).outcome <;> simp

/-- A run compiles the octets of the table that is asked for, and leaves the files alone. -/
theorem run_compileAsked (environment : Environment) {arguments : Arguments} {tree : FileTree}
    {octets : Bytes} (held : tableOctets tree arguments = .ok octets)
    : let run := (compileAsked environment arguments : StateM FileTree (Traced Failure Tables)) tree
      run.1.outcome
        = outcomeOf (settings environment arguments).checkCollisions (tableName arguments)
            (tableOrder arguments) octets
      ∧ run.2 = tree := by
  unfold tableOctets at held
  unfold compileAsked tableName tableOrder outcomeOf
  cases given : arguments.value? .table with
  | none =>
      rw [given] at held
      obtain rfl : Utf8.encode Builtin.text = octets := Except.ok.inj held
      rw [Utf8.decode_eq_ok_iff.mpr rfl]
      exact ⟨rfl, rfl⟩
  | some table =>
      rw [given] at held
      have normal : (Path.ofText (Path.ofText table).toText).toText = (Path.ofText table).toText := by
        rw [Path.ofText_toText (Path.ofText_normal table)]
      have read : tree.read (Path.ofText (Path.ofText table).toText).toText = .ok octets := by
        rw [normal]
        exact read_ofText held
      simp only [Option.elim_some]
      rw [compileFile_run, FileTree.text?_of_read read, normal]
      cases Utf8.decode octets <;> exact ⟨rfl, rfl⟩

--------------------------------------------------------------------------------
-- Performance
--------------------------------------------------------------------------------

/-- Tables are written if they have been compiled, and else the files are left alone. -/
theorem run_writeCompiled (settings : Settings) (tags : Tags) (compiled : Traced Failure Tables)
    (tree : FileTree)
    : let run := (writeCompiled settings tags compiled : StateM FileTree (Traced Failure Tables)) tree
      match compiled.outcome with
      | .error failure => run.1.outcome = .error failure ∧ run.2 = tree
      | .ok tables =>
        let written := written settings tags tables tree
        run.1.outcome = (written.1.outcome.mapError .file).map (fun _ => tables)
        ∧ run.2 = written.2 := by
  obtain ⟨events, outcome⟩ := compiled
  cases outcome <;> exact ⟨rfl, rfl⟩

/-- A run writes what it has compiled, in the tree in which that has been done. -/
theorem perform_run (environment : Environment) (tags : Tags) (arguments : Arguments)
    (tree : FileTree)
    : (perform environment tags arguments : StateM FileTree Report) tree =
      let compiled := (compileAsked environment arguments : StateM FileTree _) tree
      let finished := (writeCompiled (settings environment arguments) tags compiled.1
        : StateM FileTree _) compiled.2
      (reportOf environment arguments finished.1, finished.2) :=
  rfl

/-- A run compiles the table in the tree that it finds, and reports on what comes of writing it. -/
theorem exists_perform_eq (environment : Environment) (tags : Tags) {arguments : Arguments}
    {tree : FileTree} {octets : Bytes} (held : tableOctets tree arguments = .ok octets)
    : ∃ compiled : Traced Failure Tables,
        compiled.outcome
          = outcomeOf (settings environment arguments).checkCollisions (tableName arguments)
              (tableOrder arguments) octets
        ∧ let finished := (writeCompiled (settings environment arguments) tags compiled
            : StateM FileTree (Traced Failure Tables)) tree
          (perform environment tags arguments : StateM FileTree Report) tree
            = (reportOf environment arguments finished.1, finished.2) := by
  obtain ⟨outcome, left⟩ := run_compileAsked environment held
  have whole := perform_run environment tags arguments tree
  simp only [left] at whole
  exact ⟨_, outcome, whole⟩

/-- A run whose table is not compiled fails for that reason, and leaves the files alone. -/
theorem perform_of_error (environment : Environment) (tags : Tags) {arguments : Arguments}
    {tree : FileTree} {octets : Bytes} (held : tableOctets tree arguments = .ok octets)
    {failure : Failure}
    (refused
      : outcomeOf (settings environment arguments).checkCollisions (tableName arguments)
          (tableOrder arguments) octets = .error failure)
    : let run := (perform environment tags arguments : StateM FileTree Report) tree
      run.1.failure = some failure ∧ run.2 = tree := by
  obtain ⟨compiled, outcome, whole⟩ := exists_perform_eq environment tags held
  have finished := run_writeCompiled (settings environment arguments) tags compiled tree
  rw [outcome, refused] at finished
  rw [whole]
  exact ⟨by simp only [reportOf, finished.1], finished.2⟩

/-- A run whose table is compiled ends as the write of the tables does. -/
theorem perform_of_ok (environment : Environment) (tags : Tags) {arguments : Arguments}
    {tree : FileTree} {octets : Bytes} (held : tableOctets tree arguments = .ok octets)
    {tables : Tables}
    (made
      : outcomeOf (settings environment arguments).checkCollisions (tableName arguments)
          (tableOrder arguments) octets = .ok tables)
    : let run := (perform environment tags arguments : StateM FileTree Report) tree
      let written := written (settings environment arguments) tags tables tree
      (∀ error, run.1.failure = some (.file error) ↔ written.1.outcome = .error error)
      ∧ (run.1.failure = none ↔ written.1.outcome = .ok ())
      ∧ run.2 = written.2 := by
  obtain ⟨compiled, outcome, whole⟩ := exists_perform_eq environment tags held
  have finished := run_writeCompiled (settings environment arguments) tags compiled tree
  rw [outcome, made] at finished
  rw [whole]
  simp only [reportOf, finished]
  cases (written (settings environment arguments) tags tables tree).1.outcome <;>
    simp [Except.map]

end OpcodeTables.Command
