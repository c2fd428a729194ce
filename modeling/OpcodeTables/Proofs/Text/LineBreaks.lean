import OpcodeTables.Proofs.Text.Lines

/-! The lines of a text are what its breaks leave of it. A break has one of eleven forms. Texts can
be put together behind a break: the lines of the whole are those of the first text and then those of
the second.
-/

namespace OpcodeTables.Text

/-- The forms of a line break. -/
def breakForms : List Text := [
  ['\n'], ['\r'], ['\r', '\n'], ['\x0B'], ['\x0C'], ['\x1C'], ['\x1D'], ['\x1E'], ['\u0085'],
  ['\u2028'], ['\u2029']
]

/-- A text is cut into lines at its breaks. A carriage return in front of a newline is no break of
its own, and what stands behind the last break is a line unless it is empty.
-/
inductive CutInto : Text → List Text → Prop
  | nothing : CutInto [] []
  | last {line : Text} (unbroken : Unbroken line) (nonempty : line ≠ []) : CutInto line [line]
  | next {line ending rest : Text} {lines : List Text} (unbroken : Unbroken line)
    (form : ending ∈ breakForms) (whole : ending = ['\r'] → rest.head? ≠ some '\n')
    (cut : CutInto rest lines)
    : CutInto (line ++ ending ++ rest) (line :: lines)

--------------------------------------------------------------------------------
-- Cutting a text
--------------------------------------------------------------------------------

/-- Ten of the forms are a single character, which is one that breaks a line. -/
theorem singleton_mem_breakForms_iff {c : Char} : [c] ∈ breakForms ↔ isLineBreak c := by
  simp only [breakForms, isLineBreak, lineBreakSpans, inSpans, List.mem_cons, List.cons.injEq,
    List.not_mem_nil, and_true, or_false, List.any_cons, List.any_nil, Bool.or_eq_true,
    Bool.and_eq_true, decide_eq_true_eq, Bool.false_eq_true, ← Char.toNat_inj, Char.reduceToNat,
    reduceCtorEq, and_false, false_or]
  omega

/-- The eleventh form is a carriage return and a newline. -/
theorem breakForms_cases {ending : Text} (form : ending ∈ breakForms)
    : ending = ['\r', '\n'] ∨ ∃ c, ending = [c] ∧ isLineBreak c := by
  match ending with
  | [] => simp [breakForms] at form
  | [c] => exact Or.inr ⟨c, rfl, singleton_mem_breakForms_iff.mp form⟩
  | c :: d :: rest => exact Or.inl (by simpa [breakForms] using form)

theorem unbroken_nil : Unbroken [] := by
  simp [Unbroken]

theorem newline_mem_breakForms : ['\n'] ∈ breakForms := by
  simp [breakForms]

theorem fused_mem_breakForms : ['\r', '\n'] ∈ breakForms := by
  simp [breakForms]

/-- A break at the start of a text ends an empty line. -/
theorem CutInto.break {ending rest : Text} {lines : List Text} (form : ending ∈ breakForms)
    (whole : ending = ['\r'] → rest.head? ≠ some '\n') (cut : CutInto rest lines)
    : CutInto (ending ++ rest) ([] :: lines) :=
  .next unbroken_nil form whole cut

/-- A character that is no break belongs to the first line of what it stands in front of. -/
theorem CutInto.cons {c : Char} {rest : Text} {lines : List Text} (cut : CutInto rest lines)
    (plain : isLineBreak c = false)
    : CutInto (c :: rest) (extendFirst c lines) := by
  have unbroken {line : Text} (others : Unbroken line) : Unbroken (c :: line) :=
    List.forall_mem_cons.mpr ⟨plain, others⟩
  cases cut with
  | nothing => exact .last (unbroken unbroken_nil) (by simp)
  | last others _ => exact .last (unbroken others) (by simp)
  | next others form whole cut => exact .next (unbroken others) form whole cut

/-- A text is cut into its lines, by induction over its characters. -/
theorem cutInto_lines (text : Text) : CutInto text (lines text) := by
  induction text using lines.induct with
  | case1 => exact .nothing
  | case2 rest ih => exact .break fused_mem_breakForms (by simp) ih
  | case3 c rest single broken ih =>
      have whole := head?_ne_newline single
      rw [lines_cons_of_isLineBreak broken whole]
      exact .break (singleton_mem_breakForms_iff.mpr broken) (by simpa using whole) ih
  | case4 c rest _ plain ih =>
      have plain : isLineBreak c = false := by simpa using plain
      rw [lines_cons plain]
      exact ih.cons plain

/-- A break at the start of a text is a line of its own, which is empty. -/
theorem lines_break_append {ending rest : Text} (form : ending ∈ breakForms)
    (whole : ending = ['\r'] → rest.head? ≠ some '\n')
    : lines (ending ++ rest) = [] :: lines rest := by
  rcases breakForms_cases form with rfl | ⟨c, rfl, broken⟩
  · rfl
  · exact lines_cons_of_isLineBreak broken (by simpa using whole)

/-- There is one way to cut a text at its breaks, which gives its lines. -/
theorem cutInto_iff {text : Text} {cut : List Text} : CutInto text cut ↔ lines text = cut := by
  constructor
  · intro cuts
    induction cuts with
    | nothing => rfl
    | last unbroken nonempty => exact lines_of_unbroken unbroken nonempty
    | next unbroken form whole _ ih =>
        rw [List.append_assoc]
        exact lines_append_of_unbroken unbroken (ih ▸ lines_break_append form whole)
  · rintro rfl
    exact cutInto_lines text

/-- No line holds a break, by induction over the cuts. -/
theorem CutInto.unbroken {text : Text} {lines : List Text} (cut : CutInto text lines)
    : ∀ line ∈ lines, Unbroken line := by
  induction cut with
  | nothing => exact nofun
  | last unbroken _ => exact List.forall_mem_singleton.mpr unbroken
  | next unbroken _ _ _ ih => exact List.forall_mem_cons.mpr ⟨unbroken, ih⟩

theorem mem_lines_unbroken {text line : Text} (member : line ∈ lines text) : Unbroken line :=
  (cutInto_lines text).unbroken line member

--------------------------------------------------------------------------------
-- Texts behind one another
--------------------------------------------------------------------------------

/-- The text behind one that is empty or ends with a break is cut on its own, unless the two meet in
the middle of a break. By induction over the cuts of the first text.
-/
theorem CutInto.append {first second : Text} {lines others : List Text} (cut : CutInto first lines)
    (behind : CutInto second others) (ended : ∀ c ∈ first.getLast?, isLineBreak c)
    (apart : first.getLast? = some '\r' → second.head? ≠ some '\n')
    : CutInto (first ++ second) (lines ++ others) := by
  induction cut with
  | nothing => exact behind
  | @last line unbroken nonempty =>
      have final := List.getLast?_eq_some_getLast nonempty
      have plain := unbroken _ (List.getLast_mem nonempty)
      simp [ended _ final] at plain
  | @next line ending rest lines unbroken form whole _ ih =>
      have final {c : Char} (last : rest.getLast? = some c)
          : (line ++ ending ++ rest).getLast? = some c := by
        simp [List.getLast?_append, last]
      -- With nothing behind the break, the second text is what must not complete it.
      have joined : ending = ['\r'] → (rest ++ second).head? ≠ some '\n' := by
        intro carriage
        cases rest with
        | nil => exact apart (by simp [carriage])
        | cons c rest => exact whole carriage
      have tail := ih (fun c member => ended c (final member)) fun last => apart (final last)
      rw [List.append_assoc]
      exact .next unbroken form joined tail

/-- A newline behind a text ends its last line, or it completes its last break, or it adds an empty
line. By induction over the cuts of the text.
-/
theorem CutInto.concat_newline {text : Text} {lines : List Text} (cut : CutInto text lines)
    : CutInto (text ++ ['\n']) lines ∨ CutInto (text ++ ['\n']) (lines ++ [[]]) := by
  induction cut with
  | nothing =>
      have ends := CutInto.break newline_mem_breakForms (by simp) .nothing
      exact Or.inr (by simpa using ends)
  | last unbroken nonempty =>
      have ends := CutInto.next unbroken newline_mem_breakForms (by simp) .nothing
      exact Or.inl (by simpa using ends)
  | @next line ending rest lines unbroken form whole cut ih =>
      -- A carriage return at the end of the text and the newline are one break.
      by_cases fused : ending = ['\r'] ∧ rest = []
      · obtain ⟨rfl, rfl⟩ := fused
        obtain rfl : [] = lines := cutInto_iff.mp cut
        have ends := CutInto.next unbroken fused_mem_breakForms (by simp) .nothing
        exact Or.inl (by simpa using ends)
      · have joined : ending = ['\r'] → (rest ++ ['\n']).head? ≠ some '\n' := by
          intro carriage
          cases rest with
          | nil => exact absurd ⟨carriage, rfl⟩ fused
          | cons c rest => exact whole carriage
        rw [List.append_assoc]
        exact ih.imp (.next unbroken form joined) (.next unbroken form joined)

/-- The lines of two texts with a newline between them are those of the first text with the newline
and those of the second one.
-/
theorem lines_append_newline_append (first second : Text)
    : lines (first ++ '\n' :: second) = lines (first ++ ['\n']) ++ lines second := by
  have broken : isLineBreak '\n' := by decide
  have behind := (cutInto_lines (first ++ ['\n'])).append (cutInto_lines second)
    (by simp [broken]) (by simp)
  simpa using cutInto_iff.mp behind

theorem lines_concat_newline (text : Text)
    : lines (text ++ ['\n']) = lines text ∨ lines (text ++ ['\n']) = lines text ++ [[]] :=
  (cutInto_lines text).concat_newline.imp cutInto_iff.mp cutInto_iff.mp

end OpcodeTables.Text
