import OpcodeTables.Text.Blank
import OpcodeTables.Text.Line

/-! Cutting text into lines undoes joining lines, as long as no line is empty or holds a break.
Trimming leaves alone what neither starts nor ends with a blank, and unifying newlines leaves all
lines as they are.
-/

namespace OpcodeTables.Text

/-- The text has no line break in it. -/
def Unbroken (text : Text) : Prop :=
  ∀ c ∈ text, isLineBreak c = false

instance (text : Text) : Decidable (Unbroken text) :=
  List.decidableBAll (isLineBreak · = false) text

/-- A line break is blank, since each interval of breaks lies within one of blanks. -/
theorem isBlank_of_isLineBreak {c : Char} (broken : isLineBreak c) : isBlank c := by
  simp only [isLineBreak, lineBreakSpans, isBlank, blankSpans, inSpans, List.any_cons, List.any_nil,
    Bool.or_eq_true, Bool.and_eq_true, decide_eq_true_eq, Bool.false_eq_true, or_false] at *
  omega

/-- A character that is no break belongs to the first line. -/
theorem lines_cons {c : Char} (plain : isLineBreak c = false) (rest : Text)
    : lines (c :: rest) = extendFirst c (lines rest) := by
  have notReturn : c ≠ '\r' := by
    rintro rfl
    exact absurd plain (by decide)
  rw [lines]
  · simp [plain]
  · intro after same
    exact absurd same notReturn

/-- Text in front of a break is the first line, by induction over the text. -/
theorem lines_append_of_unbroken {line rest : Text} {later : List Text} (unbroken : Unbroken line)
    (ended : lines rest = [] :: later)
    : lines (line ++ rest) = line :: later := by
  induction line with
  | nil => exact ended
  | cons c line ih =>
      obtain ⟨plain, others⟩ := List.forall_mem_cons.mp unbroken
      rw [List.cons_append, lines_cons plain, ih others, extendFirst]

/-- A first line ends at a newline. -/
theorem lines_append_newline {line : Text} (unbroken : Unbroken line) (rest : Text)
    : lines (line ++ '\n' :: rest) = line :: lines rest :=
  lines_append_of_unbroken unbroken (by simp [lines, show isLineBreak '\n' from by decide])

/-- Text without a break is one line, unless it is empty. -/
theorem lines_of_unbroken {line : Text} (unbroken : Unbroken line) (nonempty : line ≠ [])
    : lines line = [line] := by
  induction line with
  | nil => exact absurd rfl nonempty
  | cons c line ih =>
      rw [lines_cons (unbroken c (by simp))]
      by_cases last : line = []
      · simp [last, lines, extendFirst]
      · rw [ih (fun d inside => unbroken d (by simp [inside])) last, extendFirst]

theorem joinLines_cons_cons (line next : Text) (rest : List Text)
    : joinLines (line :: next :: rest) = line ++ '\n' :: joinLines (next :: rest) := by
  simp [joinLines, List.intercalate_cons_cons]

/-- Cutting the joined lines gives the lines again, by induction over them. -/
theorem lines_joinLines {rest : List Text} (unbroken : ∀ line ∈ rest, Unbroken line)
    (nonempty : ∀ line ∈ rest, line ≠ [])
    : lines (joinLines rest) = rest := by
  induction rest with
  | nil => rfl
  | cons line rest ih =>
      have others := ih (fun other member => unbroken other (by simp [member]))
        (fun other member => nonempty other (by simp [member]))
      cases rest with
      | nil =>
          have only := lines_of_unbroken (unbroken line (by simp)) (nonempty line (by simp))
          simpa only [joinLines, List.intercalate_singleton] using only
      | cons next rest =>
          rw [joinLines_cons_cons, lines_append_newline (unbroken line (by simp)), others]

/-- The text neither starts nor ends with a blank. -/
structure Trimmed (text : Text) : Prop where
  head : ∀ c ∈ text.head?, isBlank c = false
  last : ∀ c ∈ text.getLast?, isBlank c = false

theorem dropWhile_isBlank_eq_self {text : Text} (head : ∀ c ∈ text.head?, isBlank c = false)
    : text.dropWhile isBlank = text := by
  cases text with
  | nil => rfl
  | cons c rest => simp [head c (by simp)]

theorem Trimmed.trim_eq {text : Text} (trimmed : Trimmed text) : trim text = text := by
  rw [trim, dropWhile_isBlank_eq_self trimmed.head, trimEnd, dropWhile_isBlank_eq_self]
  · exact List.reverse_reverse text
  · simpa using trimmed.last

/-- A text does not start with a blank once the blanks at its start are dropped. -/
theorem head_dropWhile_isBlank (text : Text)
    : ∀ c ∈ (text.dropWhile isBlank).head?, isBlank c = false := by
  intro c first
  have clear := List.head?_dropWhile_not isBlank text
  rw [Option.mem_def.mp first] at clear
  simpa using clear

theorem trimEnd_isPrefix (text : Text) : trimEnd text <+: text := by
  rw [trimEnd, ← List.reverse_suffix, List.reverse_reverse]
  exact List.dropWhile_suffix isBlank

theorem trim_infix (text : Text) : trim text <:+: text :=
  (trimEnd_isPrefix _).isInfix.trans (List.dropWhile_suffix isBlank).isInfix

/-- Trimmed text neither starts nor ends with a blank. The blanks at its end were dropped
last, and what is left starts as before.
-/
theorem trim_trimmed (text : Text) : Trimmed (trim text) where
  head := by
    intro c first
    have inner := head_dropWhile_isBlank text
    obtain ⟨cut, whole⟩ := trimEnd_isPrefix (text.dropWhile isBlank)
    refine inner c ?_
    rw [← whole]
    simp only [trim] at first
    simp [List.head?_append, Option.mem_def.mp first]
  last := by
    intro c final
    refine head_dropWhile_isBlank (text.dropWhile isBlank).reverse c ?_
    simpa [trim, trimEnd] using final

--------------------------------------------------------------------------------
-- Newlines
--------------------------------------------------------------------------------

/-- A break ends a line, unless it is the first half of one. -/
theorem lines_cons_of_isLineBreak {c : Char} {rest : Text} (broken : isLineBreak c)
    (whole : c = '\r' → rest.head? ≠ some '\n')
    : lines (c :: rest) = [] :: lines rest := by
  rw [lines]
  · simp [broken]
  · intro later carriage newline
    simp [newline] at whole
    exact whole carriage

/-- A carriage return that is no half of a break has no newline behind it. -/
theorem head?_ne_newline {c : Char} {rest : Text}
    (single : ∀ later, c = '\r' → rest = '\n' :: later → False)
    : c = '\r' → rest.head? ≠ some '\n' := by
  intro carriage first
  obtain ⟨later, split⟩ := List.head?_eq_some_iff.mp first
  exact single later carriage split

/-- Unified newlines stand where the breaks have been, so the lines stay the same, by induction over
the carriage returns.
-/
theorem lines_unifyNewlines (text : Text) : lines (unifyNewlines text) = lines text := by
  have newline : isLineBreak '\n' := by decide
  induction text using unifyNewlines.induct with
  | case1 => rfl
  | case2 rest ih =>
      rw [unifyNewlines, lines_cons_of_isLineBreak newline (by simp), ih, lines]
  | case3 c rest single ih =>
      have whole := head?_ne_newline single
      rw [unifyNewlines]
      · by_cases carriage : c = '\r'
        · have broken : isLineBreak c := by
            rw [carriage]
            decide
          rw [if_pos carriage, lines_cons_of_isLineBreak newline (by simp), ih,
            lines_cons_of_isLineBreak broken whole]
        · rw [if_neg carriage]
          cases broken : isLineBreak c with
          | true =>
              rw [lines_cons_of_isLineBreak broken (absurd · carriage), ih,
                lines_cons_of_isLineBreak broken (absurd · carriage)]
          | false => rw [lines_cons broken, ih, lines_cons broken]
      · exact single

end OpcodeTables.Text
