import OpcodeTables.Proofs.OpcodeValues
import OpcodeTables.Proofs.Regeneration

/-! The two output tables agree: the assembly table can be told from the lines of the rule
table, and both can be read again, whatever the names of the instructions are.
-/

namespace OpcodeTables

--------------------------------------------------------------------------------
-- Lines of the two tables
--------------------------------------------------------------------------------

/-- The pieces of a text between newlines. An empty text has none. -/
def Text.newlinePieces (text : Text) : List Text :=
  if text = [] then [] else text.splitOn '\n'

/-- Lines with a newline after each of them. -/
def Text.endLines (lines : List Text) : Text :=
  lines.flatMap (· ++ ['\n'])

/-- A line of a rule table is that of an opcode if there is no wildcard among its first eight
characters.
-/
def RuleTable.isOpcodeLine (line : Text) : Bool :=
  !(line.take 8).contains '2'

namespace AssemblyTable

/-- The line of the assembly table that belongs to a line of the rule table: what stands
behind the first ten characters, and the decimal digits of the number that the first eight
write in binary.
-/
def lineOfRule (rule : Text) : Text :=
  rule.drop 10 ++ ' ' :: Nat.toDigits 10 (Text.binaryValue (rule.take 8))

/-- The lines before the constants. Without opcodes there is an empty one. -/
def openingLines (rules : List Text) : List Text :=
  if rules = [] then [[]] else rules.map lineOfRule

/-- Reads a name and a value on the two sides of the last space in a line. -/
def readLine? (line : Text) : Option (Text × Nat) :=
  match line.reverse.dropWhile (· ≠ ' ') with
  | [] => none
  | _ :: name =>
    some (name.reverse, Nat.ofDigitChars 10 (line.reverse.takeWhile (· ≠ ' ')).reverse 0)

theorem space_not_mem_toDigits (n : Nat) : ' ' ∉ Nat.toDigits 10 n := by
  intro member
  exact absurd (Nat.isDigit_of_mem_toDigits (by decide) (by decide) member) (by decide)

/-- A name and a value are read from their line, whatever spaces are in the name: behind the last
space stand the digits.
-/
theorem readLine?_line (name : Text) (value : Nat)
    : readLine? (line name (Nat.toDigits 10 value)) = some (name, value) := by
  have digits : ∀ c ∈ (Nat.toDigits 10 value).reverse, (decide (c ≠ ' ')) = true := by
    intro c member
    simp only [decide_eq_true_eq]
    rintro rfl
    exact space_not_mem_toDigits value (List.mem_reverse.mp member)
  -- Read from the end, the line is the digits up to a space and then the name.
  have reversed : (line name (Nat.toDigits 10 value)).reverse
      = (Nat.toDigits 10 value).reverse ++ ' ' :: name.reverse := by
    simp [line]
  rw [readLine?, reversed, List.dropWhile_append_of_pos digits, List.takeWhile_append_of_pos digits]
  simp

/-- The first eight characters of a written row are its bits, and its name follows the tenth. -/
theorem render_fields {row : Row} (framed : row.Framed)
    : row.render.take 8 = row.bits ∧ row.render.drop 10 = row.name := by
  obtain ⟨first, last, _, _, written⟩ := framed.render_eq
  have width : row.bits.length = 8 := framed.width
  rw [written]
  constructor
  · simp [width]
  · simp [List.drop_append, width]

theorem lineOfRule_render {row : Row} (framed : row.Framed)
    : lineOfRule row.render = line row.name (Nat.toDigits 10 (Text.binaryValue row.bits)) := by
  obtain ⟨bits, name⟩ := render_fields framed
  rw [lineOfRule, bits, name, line]

theorem isOpcodeLine_render {row : Row} (framed : row.Framed)
    : RuleTable.isOpcodeLine row.render = !row.isWildcard := by
  rw [RuleTable.isOpcodeLine, (render_fields framed).1]
  rfl

/-- The lines of opcodes in a rule table are the written forms of the rows that are opcodes. -/
theorem filter_isOpcodeLine {rows : List Row} (framed : ∀ row ∈ rows, row.Framed)
    : (rows.map Row.render).filter RuleTable.isOpcodeLine
      = (rows.filter (!·.isWildcard)).map Row.render := by
  rw [List.filter_map]
  refine congrArg (List.map Row.render) (List.filter_congr ?_)
  exact fun row member => isOpcodeLine_render (framed row member)

/-- The assembly lines of opcodes can all be made, by induction over the rows. -/
theorem mapM_opcodeLine {rows : List Row} (framed : ∀ row ∈ rows, row.Framed)
    (concrete : ∀ row ∈ rows, row.isWildcard = false)
    : rows.mapM opcodeLine = .ok ((rows.map Row.render).map lineOfRule) := by
  induction rows with
  | nil => rfl
  | cons row rows ih =>
      have here := framed row (by simp)
      have made : opcodeLine row = .ok (lineOfRule row.render) := by
        rw [opcodeLine, here.writtenOpcode_eq (concrete row (by simp)), lineOfRule_render here]
        rfl
      have others := ih (fun other member => framed other (by simp [member]))
        (fun other member => concrete other (by simp [member]))
      simp only [List.mapM_cons, made, others, List.map_cons]
      rfl

--------------------------------------------------------------------------------
-- Whole tables
--------------------------------------------------------------------------------

/-- Joined lines and a newline are lines with a newline after each, by induction over the
lines.
-/
theorem joinLines_newline {lines : List Text} (nonempty : lines ≠ [])
    : Text.joinLines lines ++ ['\n'] = Text.endLines lines := by
  induction lines with
  | nil => exact absurd rfl nonempty
  | cons line lines ih =>
      cases lines with
      | nil => simp [Text.joinLines, Text.endLines]
      | cons next lines =>
          rw [Text.joinLines_cons_cons, Text.endLines, List.flatMap_cons, List.append_assoc,
            List.cons_append, ih (by simp), Text.endLines]
          simp

/-- The assembly table of framed rows is made of the lines that their rules tell, and of those
of the constants.
-/
theorem render_eq_ok {rows : List Row} (framed : ∀ row ∈ rows, row.Framed)
    : render rows
      = .ok (Text.endLines
          (openingLines ((rows.map Row.render).filter RuleTable.isOpcodeLine)
            ++ constantLines)) := by
  have concrete : ∀ row ∈ rows.filter (!·.isWildcard), row.isWildcard = false := by
    intro row member
    simpa using (List.mem_filter.mp member).2
  have opcodes := mapM_opcodeLine
    (fun row member => framed row (List.mem_filter.mp member).1) concrete
  rw [filter_isOpcodeLine framed]
  generalize (rows.filter (!·.isWildcard)).map Row.render = rules at opcodes
  have opening : Text.joinLines (rules.map lineOfRule) ++ ['\n']
      = Text.endLines (openingLines rules) := by
    unfold openingLines
    split
    · next empty => simp [empty, Text.joinLines, Text.endLines]
    · next some => exact joinLines_newline (by simpa using some)
  have closing : Text.joinLines constantLines ++ ['\n'] = Text.endLines constantLines :=
    joinLines_newline (by decide)
  have whole : Text.endLines (openingLines rules ++ constantLines)
      = Text.joinLines (rules.map lineOfRule)
        ++ '\n' :: Text.joinLines constantLines ++ ['\n'] := by
    rw [Text.endLines, List.flatMap_append, ← Text.endLines, ← Text.endLines, ← opening, ← closing]
    simp
  rw [render, opcodes, whole]
  rfl

end AssemblyTable

/-- The pieces of a rule table are the written forms of its rows. -/
theorem newlinePieces_render {rows : List Row} (lasting : ∀ row ∈ rows, row.Lasting)
    : Text.newlinePieces (RuleTable.render rows) = rows.map Row.render := by
  have plain : ∀ line ∈ rows.map Row.render, '\n' ∉ line := by
    intro line member broken
    obtain ⟨row, inside, rfl⟩ := List.mem_map.mp member
    exact absurd ((lasting row inside).render_unbroken '\n' broken) (by decide)
  cases rows with
  | nil => rfl
  | cons row rows =>
      have solid := (lasting row (by simp)).render_ne_nil
      have nonempty : RuleTable.render (row :: rows) ≠ [] := by
        cases rows with
        | nil => simpa [RuleTable.render, Text.joinLines] using solid
        | cons next rows => simp [RuleTable.render, Text.joinLines_cons_cons]
      rw [Text.newlinePieces, if_neg nonempty, RuleTable.render, Text.joinLines,
        List.splitOn_intercalate '\n' plain (by simp)]

--------------------------------------------------------------------------------
-- Reading the assembly table
--------------------------------------------------------------------------------

/-- Lines without breaks are found again if each of them ends with a newline, even empty ones. -/
theorem lines_endLines {rest : List Text} (unbroken : ∀ line ∈ rest, Text.Unbroken line)
    : Text.lines (Text.endLines rest) = rest := by
  induction rest with
  | nil => rfl
  | cons line rest ih =>
      have others := ih (fun other member => unbroken other (by simp [member]))
      rw [Text.endLines, List.flatMap_cons, List.append_assoc, List.singleton_append,
        Text.lines_append_newline (unbroken line (by simp)), ← Text.endLines, others]

/-- The line of an opcode has no break, since the name of its row has none. -/
theorem lineOfRule_unbroken {row : Row} (lasting : row.Lasting)
    : Text.Unbroken (AssemblyTable.lineOfRule row.render) := by
  intro c member
  rw [AssemblyTable.lineOfRule_render lasting.toFramed, AssemblyTable.line, List.mem_append,
    List.mem_cons] at member
  rcases member with name | rfl | digit
  · exact lasting.unbroken c name
  · decide
  · have isDigit := Nat.isDigit_of_mem_toDigits (by decide) (by decide) digit
    have bounds := Char.isDigit_iff_toNat.mp isDigit
    simp only [Char.reduceToNat] at bounds
    simp only [Text.isLineBreak, Text.lineBreakSpans, Text.inSpans, List.any_cons, List.any_nil,
      Bool.or_eq_false_iff, Bool.and_eq_false_iff, decide_eq_false_iff_not, and_true]
    omega

theorem openingLines_unbroken {rows : List Row} (lasting : ∀ row ∈ rows, row.Lasting)
    : ∀ line ∈ AssemblyTable.openingLines
        ((rows.map Row.render).filter RuleTable.isOpcodeLine), Text.Unbroken line := by
  intro line member
  unfold AssemblyTable.openingLines at member
  split at member
  · rw [List.mem_singleton.mp member]
    decide
  · obtain ⟨rule, inside, rfl⟩ := List.mem_map.mp member
    obtain ⟨row, rowMember, rfl⟩ := List.mem_map.mp (List.mem_filter.mp inside).1
    exact lineOfRule_unbroken (lasting row rowMember)

theorem constantLines_unbroken : ∀ line ∈ AssemblyTable.constantLines, Text.Unbroken line := by
  decide

/-- The two tables of a compilation agree. The assembly table consists of the lines that the
opcode lines of the rule table tell, or an empty one, and of the lines of the ten constants.
Cut into lines it gives these lines again, each opcode line is read as its name and value, and
there are as many opcodes as opcode lines. Witness: the rows are lasting, so no name breaks a
line or shifts a field.
-/
theorem assembly_told_by_rules {check : Bool} {source text : Text} {order : RowOrder}
    {tables : Tables} (compiled : (compile check source order text).outcome = .ok tables)
    : let rules := (Text.newlinePieces tables.rules).filter RuleTable.isOpcodeLine
      let lines := AssemblyTable.openingLines rules ++ AssemblyTable.constantLines
      tables.assembly = Text.endLines lines
      ∧ Text.lines tables.assembly = lines
      ∧ AssemblyTable.constantLines
          = ["R0 0", "R1 1", "R2 2", "R3 3", "R4 4", "R5 5", "COUNTER 6", "INPUT 7", "OUTPUT 7",
              "_ 0"].map String.toList
      ∧ (∀ rule ∈ rules,
          AssemblyTable.readLine? (AssemblyTable.lineOfRule rule)
            = some (rule.drop 10, Text.binaryValue (rule.take 8)))
      ∧ tables.opcodeCount = rules.length := by
  obtain ⟨rows, _, lasting, made⟩ := compile_eq_ok compiled
  have expanded := expandTable_lasting lasting
  have framed : ∀ row ∈ expandTable rows, row.Framed := fun row member =>
    (expanded row member).toFramed
  obtain ⟨rowsEq, rulesEq, assemblyEq⟩ := checkedTables_eq_ok made
  have table : tables.assembly = Text.endLines
      (AssemblyTable.openingLines
        (((expandTable rows).map Row.render).filter RuleTable.isOpcodeLine)
          ++ AssemblyTable.constantLines) :=
    Except.ok.inj (assemblyEq.symm.trans (AssemblyTable.render_eq_ok framed))
  have unbroken : ∀ line ∈ AssemblyTable.openingLines
      (((expandTable rows).map Row.render).filter RuleTable.isOpcodeLine)
        ++ AssemblyTable.constantLines, Text.Unbroken line := by
    intro line member
    rcases List.mem_append.mp member with opening | constant
    · exact openingLines_unbroken expanded line opening
    · exact constantLines_unbroken line constant
  rw [rulesEq, newlinePieces_render expanded]
  refine ⟨table, ?_, by decide, ?_, ?_⟩
  · rw [table, lines_endLines unbroken]
  · exact fun rule _ => AssemblyTable.readLine?_line _ _
  · rw [Tables.opcodeCount, rowsEq, AssemblyTable.filter_isOpcodeLine framed, List.length_map,
      List.countP_eq_length_filter]

theorem assembly_told_by_rules_mixed
    : ∃ tables,
        (compile true [] .displayed mixedTable).outcome = .ok tables
        ∧ tables.assembly
          = Text.endLines
              (AssemblyTable.openingLines
                  ((Text.newlinePieces tables.rules).filter RuleTable.isOpcodeLine)
                ++ AssemblyTable.constantLines) := by
  obtain ⟨tables, compiled, _⟩ := compile_mixedTable
  exact ⟨tables, compiled, (assembly_told_by_rules compiled).1⟩

end OpcodeTables
