import OpcodeTables.Proofs.Text.Lines
import OpcodeTables.Row.Format

/-! Reading a row accepts exactly what writing a framed row produces. A row that is written on
a line of its own can be read again if in addition its name has no break and no blank at its
end.
-/

namespace OpcodeTables.Row

/-- A digit is the written form of an index from zero to nine, and of no other number. -/
theorem index?_eq_some_iff {c : Char} {n : Int}
    : index? c = some n ↔ (0 ≤ n ∧ n ≤ 9) ∧ Text.decimal n = [c] := by
  unfold index?
  constructor
  · intro read
    split at read
    · next digit =>
        have bounds := Char.isDigit_iff_toNat.mp digit
        obtain rfl := Option.some.inj read
        have low : c.toNat - '0'.toNat < 10 := by
          simp only [Char.reduceToNat] at bounds ⊢
          omega
        refine ⟨by omega, ?_⟩
        simp only [Text.decimal, Nat.toDigits_of_lt_base low, List.cons.injEq, and_true]
        rw [← Char.toNat_inj, Nat.toNat_digitChar_of_lt_ten low]
        simp only [Char.reduceToNat] at bounds ⊢
        omega
    · cases read
  · rintro ⟨⟨low, high⟩, written⟩
    obtain ⟨k, rfl⟩ := Int.eq_ofNat_of_zero_le low
    have small : k < 10 := by omega
    simp only [Text.decimal, Nat.toDigits_of_lt_base small, List.cons.injEq, and_true] at written
    subst written
    simp [small, Nat.toNat_digitChar_sub_48_of_lt_ten small]

/-- The fields make a row if the bits are bits and both indices are digits. -/
theorem ofFields_eq_ok_iff {bits name : Text} {first last : Char} {row : Row}
    : ofFields bits first last name = .ok row
      ↔ (∀ c ∈ bits, isBit c)
        ∧ index? first = some row.nameStart
        ∧ index? last = some row.nameEnd
        ∧ row.bits = bits
        ∧ row.name = name := by
  rw [← List.all_eq_true, ofFields]
  split
  · next clear =>
      split
      · next start finish =>
          simp only [clear, start, finish, Except.ok.injEq, Option.some.injEq, true_and]
          constructor
          · rintro rfl
            exact ⟨rfl, rfl, rfl, rfl⟩
          · rintro ⟨rfl, rfl, rfl, rfl⟩
            rfl
      · next finish => simp [finish]
      · next start => simp [start]
  · next foreign => simp [foreign]

/-- The fields before the name have their widths: eight bits and two digits. -/
structure Framed (row : Row) : Prop where
  width : row.bits.length = bitCount
  bits : ∀ c ∈ row.bits, isBit c
  start : 0 ≤ row.nameStart ∧ row.nameStart ≤ 9
  finish : 0 ≤ row.nameEnd ∧ row.nameEnd ≤ 9

theorem exists_index? {n : Int} (bounds : 0 ≤ n ∧ n ≤ 9)
    : ∃ c, index? c = some n ∧ Text.decimal n = [c] := by
  obtain ⟨k, rfl⟩ := Int.eq_ofNat_of_zero_le bounds.1
  have written : Text.decimal k = [k.digitChar] := Nat.toDigits_of_lt_base (by omega)
  exact ⟨k.digitChar, index?_eq_some_iff.mpr ⟨bounds, written⟩, written⟩

/-- The written form of a framed row is its bits, a digit for each index, and its name. -/
theorem Framed.render_eq {row : Row} (framed : row.Framed)
    : ∃ first last,
        index? first = some row.nameStart
        ∧ index? last = some row.nameEnd
        ∧ row.render = row.bits ++ first :: last :: row.name := by
  obtain ⟨first, firstRead, firstWritten⟩ := exists_index? framed.start
  obtain ⟨last, lastRead, lastWritten⟩ := exists_index? framed.finish
  refine ⟨first, last, firstRead, lastRead, ?_⟩
  simp only [render, firstWritten, lastWritten, List.append_assoc, List.cons_append,
    List.nil_append]

/-- Reading accepts exactly the written forms of framed rows, and gives each of them its row. -/
theorem ofText_eq_ok_iff {text : Text} {row : Row}
    : ofText text = .ok row ↔ row.Framed ∧ row.render = text := by
  constructor
  · intro read
    unfold ofText at read
    split at read
    · next first last name cut =>
        obtain ⟨bits, start, finish, bitsEq, nameEq⟩ := ofFields_eq_ok_iff.mp read
        have whole := List.take_append_drop bitCount text
        have startIndex := index?_eq_some_iff.mp start
        have finishIndex := index?_eq_some_iff.mp finish
        refine ⟨⟨?_, bitsEq ▸ bits, startIndex.1, finishIndex.1⟩, ?_⟩
        · have long := congrArg List.length cut
          simp only [List.length_drop, List.length_cons] at long
          rw [bitsEq, List.length_take]
          omega
        · rw [cut] at whole
          rw [render, startIndex.2, finishIndex.2, bitsEq, nameEq]
          simpa using whole
    · cases read
  · rintro ⟨framed, rfl⟩
    obtain ⟨first, last, start, finish, written⟩ := framed.render_eq
    rw [ofText, written, ← framed.width, List.drop_left, List.take_left]
    exact ofFields_eq_ok_iff.mpr ⟨framed.bits, start, finish, rfl, rfl⟩

/-- The form that a written row has to have: eight bits, two digits and any name. -/
def Shaped (text : Text) : Prop :=
  ∃ bits first last name,
    text = bits ++ first :: last :: name
    ∧ bits.length = 8
    ∧ (∀ c ∈ bits, c = '0' ∨ c = '1' ∨ c = '2')
    ∧ first.isDigit
    ∧ last.isDigit

theorem isBit_iff {c : Char} : isBit c ↔ c = '0' ∨ c = '1' ∨ c = '2' := by
  simp only [isBit, Bool.or_eq_true, decide_eq_true_eq, or_assoc]
  rfl

theorem exists_index?_eq_some_iff {c : Char} : (∃ n, index? c = some n) ↔ c.isDigit := by
  unfold index?
  split
  · next digit => simp [digit]
  · next other => simp [other]

/-- A text is read as some row exactly if it has the form of a row. -/
theorem exists_ofText_eq_ok_iff {text : Text} : (∃ row, ofText text = .ok row) ↔ Shaped text := by
  constructor
  · intro ⟨row, read⟩
    obtain ⟨framed, rfl⟩ := ofText_eq_ok_iff.mp read
    obtain ⟨first, last, start, finish, written⟩ := framed.render_eq
    refine ⟨row.bits, first, last, row.name, written, framed.width, ?_, ?_, ?_⟩
    · exact fun c member => isBit_iff.mp (framed.bits c member)
    · exact exists_index?_eq_some_iff.mp ⟨_, start⟩
    · exact exists_index?_eq_some_iff.mp ⟨_, finish⟩
  · intro ⟨bits, first, last, name, whole, width, isBits, firstDigit, lastDigit⟩
    obtain ⟨nameStart, start⟩ := exists_index?_eq_some_iff.mpr firstDigit
    obtain ⟨nameEnd, finish⟩ := exists_index?_eq_some_iff.mpr lastDigit
    refine ⟨⟨bits, nameStart, nameEnd, name⟩, ?_⟩
    rw [ofText, whole, bitCount, ← width, List.drop_left, List.take_left]
    refine ofFields_eq_ok_iff.mpr ⟨?_, start, finish, rfl, rfl⟩
    exact fun c member => isBit_iff.mpr (isBits c member)

/-- A line is read as a row if without the blanks around it it is the written form of the row. -/
theorem parse_eq_ok_iff {location : Option Location} {line : Text} {row : Row}
    : parse location line = .ok row ↔ row.Framed ∧ row.render = Text.trim line := by
  rw [← ofText_eq_ok_iff, parse]
  cases ofText (Text.trim line) with
  | error fault => exact ⟨nofun, nofun⟩
  | ok found =>
      constructor
      · intro read
        cases read
        rfl
      · intro read
        cases read
        rfl

/-- A line is read as some row exactly if without the blanks around it it has the form of a row. -/
theorem exists_parse_eq_ok_iff (location : Option Location) (line : Text)
    : (∃ row, parse location line = .ok row) ↔ Shaped (Text.trim line) := by
  simp only [parse_eq_ok_iff, ← ofText_eq_ok_iff, exists_ofText_eq_ok_iff]

/-- A line is refused exactly if without the blanks around it it has not the form of a row, wherever
it stands.
-/
theorem exists_parse_eq_error_iff (location : Option Location) (line : Text)
    : (∃ error, parse location line = .error error) ↔ ¬Shaped (Text.trim line) := by
  rw [← exists_parse_eq_ok_iff location line]
  cases parse location line <;> simp

/-- The row can be read again from its written form: no blank is lost at the end of its name. -/
structure Legible (row : Row) : Prop extends row.Framed where
  last : ∀ c ∈ row.name.getLast?, Text.isBlank c = false

/-- The row can be written on a line and read again: no break cuts its name in two, and no
blank is lost at the end of it.
-/
structure Lasting (row : Row) : Prop extends row.Framed where
  unbroken : Text.Unbroken row.name
  last : ∀ c ∈ row.name.getLast?, Text.isBlank c = false

theorem Lasting.legible {row : Row} (lasting : row.Lasting) : row.Legible :=
  { lasting.toFramed with last := lasting.last }

theorem isBlank_of_isBit {c : Char} (bit : isBit c) : Text.isBlank c = false := by
  rcases isBit_iff.mp bit with rfl | rfl | rfl <;> decide

/-- A digit is not blank, because the digits lie between the intervals of blanks. -/
theorem isBlank_of_index? {c : Char} {n : Int} (read : index? c = some n)
    : Text.isBlank c = false := by
  unfold index? at read
  split at read
  · next digit =>
      have bounds := Char.isDigit_iff_toNat.mp digit
      simp only [Char.reduceToNat] at bounds
      simp only [Text.isBlank, Text.blankSpans, Text.inSpans, List.any_cons, List.any_nil,
        Bool.or_eq_false_iff, Bool.and_eq_false_iff, decide_eq_false_iff_not, and_true]
      omega
  · cases read

/-- Before the name of a framed row stands nothing blank. -/
theorem Framed.render_split {row : Row} (framed : row.Framed)
    : ∃ front final,
        row.render = front ++ final :: row.name
        ∧ ∀ c ∈ front ++ [final], Text.isBlank c = false := by
  obtain ⟨first, last, start, finish, written⟩ := framed.render_eq
  refine ⟨row.bits ++ [first], last, by simp [written], ?_⟩
  intro c member
  simp only [List.append_assoc, List.mem_append, List.mem_singleton] at member
  rcases member with bit | rfl | rfl
  · exact isBlank_of_isBit (framed.bits c bit)
  · exact isBlank_of_index? start
  · exact isBlank_of_index? finish

/-- A framed row is legible if its written form has no blank at its end. -/
theorem Framed.legible {row : Row} (framed : row.Framed) (trimmed : Text.Trimmed row.render)
    : row.Legible := by
  obtain ⟨front, final, written, _⟩ := framed.render_split
  refine { framed with last := ?_ }
  intro c member
  refine trimmed.last c ?_
  simp [written, List.getLast?_append, List.getLast?_cons, Option.mem_def.mp member]

/-- A framed row is lasting if its written form has no break and no blank at its end. -/
theorem Framed.lasting {row : Row} (framed : row.Framed)
    (unbroken : Text.Unbroken row.render) (trimmed : Text.Trimmed row.render)
    : row.Lasting := by
  obtain ⟨front, final, written, _⟩ := framed.render_split
  refine { framed with unbroken := ?_, last := (framed.legible trimmed).last }
  intro c member
  exact unbroken c (by simp [written, member])

theorem Framed.render_ne_nil {row : Row} (framed : row.Framed) : row.render ≠ [] := by
  obtain ⟨front, final, written, _⟩ := framed.render_split
  simp [written]

/-- A line that is read as a row is not blank. -/
theorem trim_ne_nil_of_parse {location : Option Location} {line : Text} {row : Row}
    (read : parse location line = .ok row)
    : Text.trim line ≠ [] := by
  obtain ⟨framed, written⟩ := parse_eq_ok_iff.mp read
  exact written ▸ framed.render_ne_nil

theorem Lasting.render_unbroken {row : Row} (lasting : row.Lasting)
    : Text.Unbroken row.render := by
  obtain ⟨front, final, written, solid⟩ := lasting.toFramed.render_split
  intro c member
  rw [written, List.append_cons] at member
  rcases List.mem_append.mp member with before | name
  · cases broken : Text.isLineBreak c with
    | false => rfl
    | true =>
        have notBlank := solid c before
        rw [Text.isBlank_of_isLineBreak broken] at notBlank
        cases notBlank
  · exact lasting.unbroken c name

theorem Legible.render_trimmed {row : Row} (legible : row.Legible)
    : Text.Trimmed row.render := by
  obtain ⟨front, final, written, solid⟩ := legible.toFramed.render_split
  constructor
  · intro c member
    refine solid c (List.mem_of_mem_head? ?_)
    rw [written] at member
    cases front <;> simpa using member
  · intro c member
    rw [written, List.append_cons, List.getLast?_append] at member
    cases name : row.name.getLast? with
    | none => exact solid c (List.mem_of_getLast? (by simpa [name] using member))
    | some d => exact legible.last c (by simpa [name] using member)

/-- A legible row is read from its written form. -/
theorem Legible.parse_render {row : Row} (legible : row.Legible) (location : Option Location)
    : parse location row.render = .ok row :=
  parse_eq_ok_iff.mpr ⟨legible.toFramed, legible.render_trimmed.trim_eq.symm⟩

/-- A row that is read from a line is legible, since the line is trimmed before. -/
theorem parse_legible {location : Option Location} {line : Text} {row : Row}
    (read : parse location line = .ok row)
    : row.Legible := by
  obtain ⟨framed, written⟩ := parse_eq_ok_iff.mp read
  exact framed.legible (written ▸ Text.trim_trimmed line)

end OpcodeTables.Row
