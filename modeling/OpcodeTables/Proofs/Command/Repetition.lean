import OpcodeTables.Proofs.Command.ExitStatuses
import OpcodeTables.Proofs.RepeatedWrites

/-! A run on the rule table of the run before it. It finds the tables where that run has written them,
compiles the same ones and puts them in the same places.
-/

namespace OpcodeTables

open FileTree

namespace Command

--------------------------------------------------------------------------------
-- The run before
--------------------------------------------------------------------------------

/-- Settings have a directory in normal form, wherever it comes from. -/
theorem settings_normal (environment : Environment) (arguments : Arguments)
    : (settings environment arguments).directory.Normal := by
  unfold settings Settings.ofEnvironment Settings.standard
  cases arguments.value? .directory with
  | some value => exact Path.ofText_normal value
  | none => cases nonempty? environment.directory <;> exact Path.ofText_normal _

/-- A run that ends well has compiled some text and has written the tables. -/
theorem exists_written {environment : Environment} {tags : Tags} {arguments : Arguments}
    {tree after : FileTree} {report : Report} (admitted : Admitted tree arguments)
    (performed
      : (perform environment tags arguments : StateM FileTree Report) tree = (report, after))
    (ended : report.failure = none)
    : let settings := settings environment arguments
      ∃ text tables,
        (compile settings.checkCollisions (tableName arguments) (tableOrder arguments) text).outcome
          = .ok tables
        ∧ (written settings tags tables tree).1.outcome = .ok ()
        ∧ (written settings tags tables tree).2 = after := by
  intro settings
  obtain ⟨octets, held⟩ := admitted.exists_tableOctets
  cases outcome : outcomeOf settings.checkCollisions (tableName arguments) (tableOrder arguments)
      octets with
  | error failure =>
      have failed := (perform_of_error environment tags held outcome).1
      rw [performed, ended] at failed
      cases failed
  | ok tables =>
      obtain ⟨text, _, compiled⟩ := outcomeOf_eq_ok_iff.mp outcome
      obtain ⟨_, finished, left⟩ := perform_of_ok environment tags held outcome
      rw [performed] at finished left
      exact ⟨text, tables, compiled, finished.mp ended, left.symm⟩

--------------------------------------------------------------------------------
-- The run after it
--------------------------------------------------------------------------------

/-- Arguments that ask for the same as some others, but for the rule table that these lead to. -/
structure Regenerates (environment : Environment) (first second : Arguments) : Prop where
  inquiry : second.inquiry? = first.inquiry?
  extra : second.extra = first.extra
  values
    : ∀ parameter, parameter ≠ .table → second.value? parameter = first.value? parameter
  noCheck : second.has .noCheck = first.has .noCheck
  table : second.value? .table = some (settings environment first).rulesPath.toText
  ascending : second.has .ascending = true

theorem Regenerates.settings_eq {environment : Environment} {first second : Arguments}
    (same : Regenerates environment first second)
    : settings environment second = settings environment first := by
  unfold settings
  rw [same.values .directory nofun, same.values .rulesName nofun, same.values .assemblyName nofun,
    same.noCheck]

theorem Regenerates.tableOrder_eq {environment : Environment} {first second : Arguments}
    (same : Regenerates environment first second)
    : tableOrder second = .ascending := by
  rw [tableOrder, same.table, Option.elim_some, rowOrder, if_pos same.ascending]

/-- The table is what the run before has left where the rule table belongs. -/
theorem Regenerates.tableOctets_eq {environment : Environment} {first second : Arguments}
    (same : Regenerates environment first second) {tables : Tables} {tree : FileTree}
    {goal other : Place} (holds : Holds (settings environment first) tables tree goal other)
    : tableOctets tree second
      = .ok (Utf8.encode (if goal = other then tables.assembly else tables.rules)) := by
  have located := (receives?_eq_some_iff.mp holds.rulesReceived).1
  rw [tableOctets, same.table, Option.elim_some]
  exact read_of_locate located holds.rules

/-- The arguments are admitted again, unless a file has been written in the place of the directory
that they name.
-/
theorem Regenerates.admitted {environment : Environment} {first second : Arguments}
    (same : Regenerates environment first second) {tree after : FileTree}
    (admitted : Admitted tree first)
    (held : after.kind (settings environment first).rulesPath.toText = .ok .file)
    (away
      : ∀ value, first.value? .directory = some value → after.kind value ≠ .ok .file)
    : Admitted after second := by
  refine ⟨same.inquiry.trans admitted.noInquiry, same.extra.trans admitted.noExtra, ?_⟩
  intro parameter value given
  cases parameter with
  | table =>
      rw [same.table] at given
      exact Option.some.inj given ▸ held
  | directory =>
      rw [same.values .directory nofun] at given
      have accepted := (admitted.accepted .directory value given).2
      refine ⟨away value given, ?_⟩
      rwa [ne_eq, kind_eq_nullInName_iff] at accepted ⊢
  | rulesName => trivial
  | assemblyName => trivial

/-- The rule table is compiled to the tables that it belongs to. -/
theorem outcomeOf_rules {check : Bool} {source text : Text} {order : RowOrder} {tables : Tables}
    (compiled : (compile check source order text).outcome = .ok tables) (name : Text)
    : outcomeOf check name .ascending (Utf8.encode tables.rules) = .ok tables := by
  obtain ⟨read, made⟩ := parse_rules compiled name
  refine outcomeOf_eq_ok_iff.mpr ⟨tables.rules, rfl, ?_⟩
  rw [compile_outcome, read]
  exact made

/-- The assembly table is not compiled. -/
theorem outcomeOf_assembly {check : Bool} {source text : Text} {order : RowOrder} {tables : Tables}
    (compiled : (compile check source order text).outcome = .ok tables) (name : Text)
    : ∃ failure,
        outcomeOf check name .ascending (Utf8.encode tables.assembly) = .error failure := by
  obtain ⟨error, refused⟩ :=
    (RuleTable.exists_parse_eq_error_iff name .ascending _).mpr (assembly_malformed compiled)
  refine ⟨.compile (.row error), outcomeOf_refused ?_⟩
  rw [compile_outcome, refused]

/-- What the second run does where the tables stand. It changes nothing, and it ends well if the tables
stand in different places and can be written there again.
-/
theorem Regenerates.perform_again {environment : Environment} {first second : Arguments}
    (same : Regenerates environment first second) {tables : Tables} {tree : FileTree}
    {goal other : Place} (holds : Holds (settings environment first) tables tree goal other)
    {source text : Text} {order : RowOrder}
    (compiled
      : (compile (settings environment first).checkCollisions source order text).outcome
        = .ok tables)
    {tags : Tags} (fresh : tags.FreshFor (settings environment first))
    : let run := (perform environment tags second : StateM FileTree Report) tree
      tree.SameOutside [] run.2
      ∧ (goal ≠ other
        → (written (settings environment first) tags tables tree).1.outcome = .ok ()
        → run.1.failure = none) := by
  intro run
  have normal := settings_normal environment first
  have held := same.tableOctets_eq holds
  by_cases merged : goal = other
  · -- The assembly table stands in the place of the rule table.
    obtain ⟨failure, refused⟩ := outcomeOf_assembly compiled (tableName second)
    rw [if_pos merged] at held
    rw [← same.settings_eq, ← same.tableOrder_eq] at refused
    have left := (perform_of_error environment tags held refused).2
    exact ⟨left ▸ .refl [] tree, fun apart => absurd merged apart⟩
  · have made := outcomeOf_rules compiled (tableName second)
    rw [if_neg merged] at held
    rw [← same.settings_eq, ← same.tableOrder_eq] at made
    obtain ⟨_, ended, left⟩ := perform_of_ok environment tags held made
    rw [same.settings_eq] at ended left
    refine ⟨?_, fun _ => ended.mpr⟩
    rw [left]
    exact holds.rewritten_same merged normal (fresh.deliveries normal tables)

/-- What the second answer is where the tables stand, whether its arguments are admitted or not. -/
theorem Regenerates.answer_again {environment : Environment} {first second : Arguments}
    (same : Regenerates environment first second) {tables : Tables} {before tree : FileTree}
    (admitted : Admitted before first) {goal other : Place}
    (holds : Holds (settings environment first) tables tree goal other) {source text : Text}
    {order : RowOrder}
    (compiled
      : (compile (settings environment first).checkCollisions source order text).outcome
        = .ok tables)
    {tags : Tags} (fresh : tags.FreshFor (settings environment first))
    : let run := (answer environment tags second : Work Response).run tree
      tree.SameOutside [] run.2
      ∧ (goal ≠ other
        → (∀ value, first.value? .directory = some value → tree.kind value ≠ .ok .file)
        → (written (settings environment first) tags tables tree).1.outcome = .ok ()
        → ∃ response, run.1 = .ok response ∧ response.output.code = 0) := by
  obtain ⟨kept, endsWell⟩ := same.perform_again holds compiled fresh
  have located := (receives?_eq_some_iff.mp holds.rulesReceived).1
  have held := kind_eq_file_iff.mpr ⟨_, read_of_locate located holds.rules⟩
  by_cases accepted : Admitted tree second
  · rw [run_answer accepted]
    refine ⟨kept, ?_⟩
    intro apart _ finished
    exact ⟨_, rfl, (exitCode_eq_zero_iff _).mpr (endsWell apart finished)⟩
  · have noInquiry := same.inquiry.trans admitted.noInquiry
    have left := (answer_of_refused environment tags noInquiry accepted).1
    refine ⟨?_, ?_⟩
    · rw [left]
      exact .refl [] tree
    · intro _ away _
      exact absurd (same.admitted admitted held away) accepted

/-- After a run that ends with 0, a run on its rule table leaves everything as it is. It ends with 0 as
well if the two tables have been written to different places and the directory that the arguments
name, if they do, is not one of them.
-/
theorem rerun_unchanged {environment : Environment} {tags again : Tags}
    {given regiven : List Text} {first second : Arguments} {tree after : FileTree}
    {response : Response} (read : Arguments.read given = .ok first)
    (ran : (run environment tags given : Work Response).run tree = (.ok response, after))
    (ended : response.output.code = 0) (reread : Arguments.read regiven = .ok second)
    (same : Regenerates environment first second)
    (fresh : tags.FreshFor (settings environment first))
    (freshAgain : again.FreshFor (settings environment first))
    : let settings := settings environment first
      let rerun := (run environment again regiven : Work Response).run after
      (rerun.2.current = after.current ∧ ∀ place, rerun.2.node? place = after.node? place)
      ∧ (after.locate settings.rulesPath.toText ≠ after.locate settings.assemblyPath.toText
        → (∀ value, first.value? .directory = some value → after.kind value ≠ .ok .file)
        → (∀ tag ∈ [tags.rules, tags.assembly, again.rules, again.assembly], Tags.Drawn tag)
        → again.UnusedIn settings after
        → ∃ response, rerun.1 = .ok response ∧ response.output.code = 0) := by
  intro settings rerun
  have rerunEq : rerun = (answer environment again second : Work Response).run after := by
    simp only [rerun, run, reread]
  rw [run, read] at ran
  rw [rerunEq]
  cases asked : first.inquiry? with
  | some switch =>
      obtain ⟨shown, answered, code, _⟩ :=
        answer_of_inquiry environment again (same.inquiry.trans asked) after
      rw [answered]
      exact ⟨⟨rfl, fun _ => rfl⟩, fun _ _ _ _ => ⟨shown, rfl, code⟩⟩
  | none =>
      by_cases admitted : Admitted tree first
      · rcases performed : (perform environment tags first : StateM FileTree Report) tree
          with ⟨report, next⟩
        rw [run_answer admitted, performed] at ran
        cases ran
        have finished := (exitCode_eq_zero_iff _).mp ended
        obtain ⟨text, tables, compiled, written, left⟩ := exists_written admitted performed finished
        have normal := settings_normal environment first
        obtain ⟨goal, other, holds, located⟩ :=
          exists_holds_of_written (fresh.deliveries normal tables) written
        rw [left] at holds located
        obtain ⟨kept, endsWell⟩ := same.answer_again admitted holds compiled freshAgain
        refine ⟨⟨kept.directories.current, fun place => kept.node place List.not_mem_nil⟩, ?_⟩
        intro apart away drawn unused
        have places : goal ≠ other := by
          rintro rfl
          rw [(receives?_eq_some_iff.mp holds.rulesReceived).1,
            (receives?_eq_some_iff.mp holds.assemblyReceived).1] at apart
          exact apart rfl
        exact endsWell places away (holds.rewritten_ok normal freshAgain drawn located unused)
      · have told := (answer_of_refused environment tags asked admitted).2
        rw [ran] at told
        obtain ⟨error, rfl⟩ := told response rfl
        cases ended

--------------------------------------------------------------------------------
-- One instruction compiled twice
--------------------------------------------------------------------------------

/-- Arguments with a table, a directory and the names of the files for the tables. -/
def placedGiven (table directory rulesName assemblyName : Text) : List Text :=
  ["-t".toList, table, "-o".toList, directory, "--rules-name".toList, rulesName,
    "--assembly-name".toList, assemblyName]

def placed (table directory rulesName assemblyName : Text) : Arguments where
  given := [.value .table table, .value .directory directory, .value .rulesName rulesName,
    .value .assemblyName assemblyName]
  extra := []

theorem read_placedGiven (table directory rulesName assemblyName : Text)
    : Arguments.read (placedGiven table directory rulesName assemblyName)
      = .ok (placed table directory rulesName assemblyName) :=
  rfl

theorem read_ascending_placedGiven (table directory rulesName assemblyName : Text)
    : Arguments.read ("--ascending".toList :: placedGiven table directory rulesName assemblyName)
      = .ok ((placed table directory rulesName assemblyName).after [.switch .ascending]) :=
  rfl

theorem regenerates_placed {environment : Environment}
    {table directory rulesName assemblyName path : Text}
    (leads
      : (settings environment (placed table directory rulesName assemblyName)).rulesPath.toText
        = path)
    : Regenerates environment (placed table directory rulesName assemblyName)
        ((placed path directory rulesName assemblyName).after [.switch .ascending]) where
  inquiry := rfl
  extra := rfl
  values parameter other := by
    cases parameter with
    | table => exact absurd rfl other
    | directory | rulesName | assemblyName => rfl
  noCheck := rfl
  table := congrArg some leads.symm
  ascending := rfl

def laterTags : Tags :=
  ⟨Tags.numbered 2, Tags.numbered 3⟩

/-- A run that compiles the table of one instruction to these places. -/
def addRun (directory rulesName assemblyName : Text) : Except FileError Response × FileTree :=
  (run bareEnvironment firstTags (placedGiven "t".toList directory rulesName assemblyName)
    : Work Response).run addTree

/-- A run after it on a rule table, to the same places. -/
def addRerun (path directory rulesName assemblyName : Text)
    : Except FileError Response × FileTree :=
  (run bareEnvironment laterTags
      ("--ascending".toList :: placedGiven path directory rulesName assemblyName)
    : Work Response).run (addRun directory rulesName assemblyName).2

/-- The code that an answer ends with. -/
def code? (answer : Except FileError Response) : Option Nat :=
  answer.toOption.map (·.output.code)

theorem code?_eq_some_iff {answer : Except FileError Response} {code : Nat}
    : code? answer = some code ↔ ∃ response, answer = .ok response ∧ response.output.code = code := by
  cases answer with
  | error => simp [code?, Except.toOption]
  | ok response => simp [code?, Except.toOption]

/-- The table of one instruction is compiled to a new directory, and its rule table is compiled to the
same two files.
-/
theorem rerun_unchanged_add
    : let settings := settings bareEnvironment (placed "t".toList ['x'] ['r'] ['a'])
      let ran := addRun ['x'] ['r'] ['a']
      let rerun := addRerun "x/r".toList ['x'] ['r'] ['a']
      code? ran.1 = some 0
      ∧ firstTags.FreshFor settings ∧ laterTags.FreshFor settings
      ∧ Regenerates bareEnvironment (placed "t".toList ['x'] ['r'] ['a'])
          ((placed "x/r".toList ['x'] ['r'] ['a']).after [.switch .ascending])
      ∧ ran.2.locate settings.rulesPath.toText ≠ ran.2.locate settings.assemblyPath.toText
      ∧ ran.2.kind ['x'] ≠ .ok .file
      ∧ laterTags.UnusedIn settings ran.2
      ∧ (rerun.2.current = ran.2.current ∧ ∀ place, rerun.2.node? place = ran.2.node? place)
      ∧ code? rerun.1 = some 0 := by
  intro settings ran rerun
  have ended : code? ran.1 = some 0 := by decide +kernel
  have fresh : firstTags.FreshFor settings := ⟨by decide, by decide, by decide, by decide⟩
  have freshAgain : laterTags.FreshFor settings := ⟨by decide, by decide, by decide, by decide⟩
  have apart
      : ran.2.locate settings.rulesPath.toText ≠ ran.2.locate settings.assemblyPath.toText := by
    decide +kernel
  have away : ran.2.kind ['x'] ≠ .ok .file := by decide +kernel
  have short : ∀ entry ∈ ran.2.nodes, (entry.1.headD []).length < 6 := by decide +kernel
  have unused : laterTags.UnusedIn settings ran.2 :=
    .of_shortNames (settings_normal _ _) (by decide) (by decide) (by decide) short
  have drawn
      : ∀ tag ∈ [firstTags.rules, firstTags.assembly, laterTags.rules, laterTags.assembly],
          Tags.Drawn tag := by
    simp only [List.forall_mem_cons, List.not_mem_nil, false_imp_iff, implies_true, and_true]
    decide
  obtain ⟨response, made, code⟩ := code?_eq_some_iff.mp ended
  have same
      : Regenerates bareEnvironment (placed "t".toList ['x'] ['r'] ['a'])
          ((placed "x/r".toList ['x'] ['r'] ['a']).after [.switch .ascending]) :=
    regenerates_placed rfl
  have first : ran = (.ok response, ran.2) := by rw [← made]
  have named
      : ∀ value, (placed "t".toList ['x'] ['r'] ['a']).value? .directory = some value
        → ran.2.kind value ≠ .ok .file := by
    intro value given
    obtain rfl := Option.some.inj given
    exact away
  have second
      : (run bareEnvironment laterTags
            ("--ascending".toList :: placedGiven "x/r".toList ['x'] ['r'] ['a'])
          : Work Response).run ran.2
        = rerun :=
    rfl
  obtain ⟨kept, endsWell⟩ := rerun_unchanged (read_placedGiven _ _ _ _) first code
    (read_ascending_placedGiven _ _ _ _) same fresh freshAgain
  have again := endsWell apart named drawn unused
  -- Rewritten by hand: comparing the two trees would run the command.
  rw [second] at kept again
  exact ⟨ended, fresh, freshAgain, same, apart, away, unused, kept, code?_eq_some_iff.mpr again⟩

/-- A file that the first run has written in the place of the directory that its arguments name
keeps the second run from being admitted, although the tables are in different places.
-/
theorem rerun_refused
    : let settings := settings bareEnvironment (placed "t".toList ['x'] ['.'] "/a".toList)
      let ran := addRun ['x'] ['.'] "/a".toList
      code? ran.1 = some 0
      ∧ firstTags.FreshFor settings ∧ laterTags.FreshFor settings
      ∧ Regenerates bareEnvironment (placed "t".toList ['x'] ['.'] "/a".toList)
          ((placed ['x'] ['x'] ['.'] "/a".toList).after [.switch .ascending])
      ∧ ran.2.locate settings.rulesPath.toText ≠ ran.2.locate settings.assemblyPath.toText
      ∧ ran.2.kind ['x'] = .ok .file
      ∧ code? (addRerun ['x'] ['x'] ['.'] "/a".toList).1 = some 2 := by
  intro settings ran
  have ended : code? ran.1 = some 0 := by decide +kernel
  have fresh : firstTags.FreshFor settings := ⟨by decide, by decide, by decide, by decide⟩
  have freshAgain : laterTags.FreshFor settings := ⟨by decide, by decide, by decide, by decide⟩
  have apart
      : ran.2.locate settings.rulesPath.toText ≠ ran.2.locate settings.assemblyPath.toText := by
    decide +kernel
  have taken : ran.2.kind ['x'] = .ok .file := by decide +kernel
  have refused : code? (addRerun ['x'] ['x'] ['.'] "/a".toList).1 = some 2 := by decide +kernel
  exact ⟨ended, fresh, freshAgain, regenerates_placed rfl, apart, taken, refused⟩

end Command

end OpcodeTables
