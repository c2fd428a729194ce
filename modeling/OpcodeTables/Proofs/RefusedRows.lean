import Mathlib.Data.List.Sort
import OpcodeTables.Proofs.RowFormat
import OpcodeTables.Traced

/-! A line that is no row is refused for its first fault. The length is checked first, then the bits,
then the digit for the start of the name, and last the one for its end.
-/

namespace OpcodeTables

namespace Row

/-- The first eight characters are bits. -/
def BitsFirst (text : Text) : Prop :=
  ∀ c ∈ text.take 8, c = '0' ∨ c = '1' ∨ c = '2'

/-- At an index stands a plain digit. -/
def DigitAt (text : Text) (index : Nat) : Prop :=
  ∃ c, text[index]? = some c ∧ c.isDigit

/-- The first flaw of a text that is no row. Each kind of flaw counts only where the ones before it
are absent.
-/
inductive FirstFlaw (text : Text) : RowFlaw → Prop
  | tooShort (short : text.length < 10)
    : FirstFlaw text (.tooShort text.length)
  | foreignBits {foreign : List Char} (long : 10 ≤ text.length) (nonempty : foreign ≠ [])
    (ascending : foreign.Pairwise (· < ·))
    (listed : ∀ c, c ∈ foreign ↔ c ∈ text.take 8 ∧ ¬(c = '0' ∨ c = '1' ∨ c = '2'))
    : FirstFlaw text (.foreignBits (text.take 8) foreign)
  | badStart {found : Char} (long : 10 ≤ text.length) (bits : BitsFirst text)
    (stands : text[8]? = some found) (noDigit : ¬found.isDigit)
    : FirstFlaw text (.badIndex .first found)
  | badEnd {found : Char} (long : 10 ≤ text.length) (bits : BitsFirst text)
    (start : DigitAt text 8) (stands : text[9]? = some found) (noDigit : ¬found.isDigit)
    : FirstFlaw text (.badIndex .last found)

--------------------------------------------------------------------------------
-- The fields of a text
--------------------------------------------------------------------------------

theorem ofText_of_short {text : Text} (short : text.length < 10)
    : ofText text = .error (.tooShort text.length) := by
  have rest : (text.drop bitCount).length = text.length - 8 := List.length_drop
  unfold ofText
  split
  · next first last name cut =>
      simp only [cut, List.length_cons] at rest
      omega
  · rfl

/-- A text that is long enough is read by its fields. -/
theorem exists_ofText_eq_ofFields {text : Text} (long : 10 ≤ text.length)
    : ∃ first last name,
        text[8]? = some first
        ∧ text[9]? = some last
        ∧ ofText text = ofFields (text.take 8) first last name := by
  have rest : (text.drop 8).length = text.length - 8 := List.length_drop
  have first : (text.drop 8)[0]? = text[8]? := List.getElem?_drop
  have second : (text.drop 8)[1]? = text[9]? := List.getElem?_drop
  unfold ofText bitCount
  match cut : text.drop 8 with
  | [] =>
      simp only [cut, List.length_nil] at rest
      omega
  | [_] =>
      simp only [cut, List.length_singleton] at rest
      omega
  | c :: d :: name =>
      rw [cut] at first second
      exact ⟨c, d, name, first.symm, second.symm, rfl⟩

theorem bitsFirst_iff {text : Text} : BitsFirst text ↔ (text.take 8).all isBit := by
  simp only [BitsFirst, List.all_eq_true, isBit_iff]

theorem foreignTo_ne_nil_iff {text : Text} : foreignTo (text.take 8) ≠ [] ↔ ¬BitsFirst text := by
  rw [bitsFirst_iff, List.all_eq_true, ne_eq, List.eq_nil_iff_forall_not_mem]
  simp only [foreignTo, Text.mem_distinct, List.mem_filter, not_and, Bool.not_eq_true',
    Bool.not_eq_false]

theorem digitAt_iff {text : Text} {index : Nat} {c : Char} (stands : text[index]? = some c)
    : DigitAt text index ↔ c.isDigit := by
  simp [DigitAt, stands]

--------------------------------------------------------------------------------
-- Flaws
--------------------------------------------------------------------------------

/-- The foreign characters are listed once each and in order, and no other list does that. -/
theorem eq_foreignTo_iff {bits : Text} {foreign : List Char}
    : foreign = foreignTo bits
      ↔ foreign.Pairwise (· < ·)
        ∧ ∀ c, c ∈ foreign ↔ c ∈ bits ∧ ¬(c = '0' ∨ c = '1' ∨ c = '2') := by
  have ascending : (foreignTo bits).Pairwise (· < ·) := Text.distinct_ascending _
  have listed (c : Char) : c ∈ foreignTo bits ↔ c ∈ bits ∧ ¬(c = '0' ∨ c = '1' ∨ c = '2') := by
    rw [foreignTo, Text.mem_distinct, List.mem_filter, Bool.not_eq_true', ← isBit_iff,
      Bool.not_eq_true]
  constructor
  · rintro rfl
    exact ⟨ascending, listed⟩
  · rintro ⟨sorted, same⟩
    exact sorted.eq_of_mem_iff ascending fun c => (same c).trans (listed c).symm

/-- Fields make no row because of the first of them that is flawed. -/
theorem ofFields_eq_error_iff {bits name : Text} {first last : Char} {flaw : RowFlaw}
    : ofFields bits first last name = .error flaw
      ↔ (¬bits.all isBit ∧ flaw = .foreignBits bits (foreignTo bits))
        ∨ (bits.all isBit ∧ ¬first.isDigit ∧ flaw = .badIndex .first first)
        ∨ (bits.all isBit ∧ first.isDigit ∧ ¬last.isDigit ∧ flaw = .badIndex .last last) := by
  rw [← exists_index?_eq_some_iff, ← exists_index?_eq_some_iff, ofFields]
  cases bits.all isBit with
  | false => simp [eq_comm]
  | true =>
      cases index? first with
      | none => simp [eq_comm]
      | some nameStart => cases index? last <;> simp [eq_comm]

/-- A text is refused for its first flaw. -/
theorem ofText_eq_error_iff {text : Text} {flaw : RowFlaw}
    : ofText text = .error flaw ↔ FirstFlaw text flaw := by
  by_cases short : text.length < 10
  · rw [ofText_of_short short]
    constructor
    · intro refused
      cases refused
      exact .tooShort short
    · intro flawed
      cases flawed with
      | tooShort _ => rfl
      | foreignBits long | badStart long | badEnd long => omega
  · have long : 10 ≤ text.length := Nat.not_lt.mp short
    obtain ⟨first, last, name, start, finish, fields⟩ := exists_ofText_eq_ofFields long
    rw [fields, ofFields_eq_error_iff, ← bitsFirst_iff]
    constructor
    · rintro (⟨notBits, rfl⟩ | ⟨bits, noDigit, rfl⟩ | ⟨bits, digit, noDigit, rfl⟩)
      · obtain ⟨ascending, listed⟩ := eq_foreignTo_iff.mp rfl
        exact .foreignBits long (foreignTo_ne_nil_iff.mpr notBits) ascending listed
      · exact .badStart long bits start noDigit
      · exact .badEnd long bits ((digitAt_iff start).mpr digit) finish noDigit
    · intro flawed
      cases flawed with
      | tooShort => omega
      | foreignBits _ nonempty ascending listed =>
          obtain rfl := eq_foreignTo_iff.mpr ⟨ascending, listed⟩
          exact Or.inl ⟨foreignTo_ne_nil_iff.mp nonempty, rfl⟩
      | badStart _ bits stands noDigit =>
          obtain rfl := Option.some.inj (start.symm.trans stands)
          exact Or.inr (Or.inl ⟨bits, noDigit, rfl⟩)
      | badEnd _ bits digit stands noDigit =>
          obtain rfl := Option.some.inj (finish.symm.trans stands)
          exact Or.inr (Or.inr ⟨bits, (digitAt_iff start).mp digit, noDigit, rfl⟩)

--------------------------------------------------------------------------------
-- Lines
--------------------------------------------------------------------------------

theorem exists_ofFields_eq_ok_iff {bits name : Text} {first last : Char}
    : (∃ row, ofFields bits first last name = .ok row)
      ↔ bits.all isBit ∧ first.isDigit ∧ last.isDigit := by
  rw [← exists_index?_eq_some_iff, ← exists_index?_eq_some_iff, ofFields]
  cases bits.all isBit with
  | false => simp
  | true =>
      cases index? first with
      | none => simp
      | some nameStart => cases index? last <;> simp

/-- A text has the form of a row if it is long enough and its first ten characters are eight bits and
two digits.
-/
theorem shaped_iff {text : Text}
    : Shaped text ↔ 10 ≤ text.length ∧ BitsFirst text ∧ DigitAt text 8 ∧ DigitAt text 9 := by
  rw [← exists_ofText_eq_ok_iff]
  by_cases short : text.length < 10
  · simp [ofText_of_short short, Nat.not_le.mpr short]
  · have long : 10 ≤ text.length := Nat.not_lt.mp short
    obtain ⟨first, last, name, start, finish, fields⟩ := exists_ofText_eq_ofFields long
    rw [fields, exists_ofFields_eq_ok_iff, ← bitsFirst_iff, digitAt_iff start, digitAt_iff finish]
    simp [long]

theorem parse_eq_error_iff {location : Option Location} {line : Text} {error : RowError}
    : parse location line = .error error
      ↔ ∃ flaw, FirstFlaw (Text.trim line) flaw ∧ error = ⟨flaw, Text.trim line, location⟩ := by
  simp only [← ofText_eq_error_iff, parse]
  cases ofText (Text.trim line) <;> simp [eq_comm]

/-- The message about foreign characters lists them as they are quoted. -/
theorem foreignBits_message (bits : Text) (foreign : List Char)
    : (RowFlaw.foreignBits bits foreign).message.toList
      = "invalid opcode bits '".toList ++ bits ++ "' (unexpected ".toList
        ++ ", ".toList.intercalate (foreign.map fun c => Text.quoted [c]) ++ [')'] := by
  have parts : (RowFlaw.foreignBits bits foreign).message
      = "invalid opcode bits '" ++ String.ofList bits ++ "' (unexpected "
        ++ String.intercalate ", " (foreign.map fun c => String.ofList (Text.quoted [c]))
        ++ ")" :=
    rfl
  have quoted : (foreign.map fun c => String.ofList (Text.quoted [c])).map String.toList
      = foreign.map fun c => Text.quoted [c] := by
    rw [List.map_map]
    exact List.map_congr_left fun c _ => String.toList_ofList
  rw [parts]
  simp only [String.toList_append, String.toList_intercalate, String.toList_ofList, quoted]
  rfl

/-- A line is read exactly if without the blanks around it it has eight bits, two digits and
anything behind them; and writing the row gives that text back. Otherwise it is refused for its
first flaw, with the text as its row and with a location if a number is given. The foreign
characters among the bits are named once each, in the order of their code points.
-/
theorem parse_outcome (line : Text) (number : Option Int) (source : Text)
    : let text := Text.trim line
      let location := number.map (Location.mk source)
      let outcome := parse location line
      ((∃ row, outcome = .ok row)
        ↔ 10 ≤ text.length ∧ BitsFirst text ∧ DigitAt text 8 ∧ DigitAt text 9)
      ∧ (∀ row, outcome = .ok row → row.render = text)
      ∧ (∀ error,
          outcome = .error error
          ↔ FirstFlaw text error.flaw
            ∧ error.diagnostic.row = some text
            ∧ error.diagnostic.location = location)
      ∧ (∀ error,
          outcome = .error error → (error.diagnostic.location.isSome ↔ number.isSome))
      ∧ ∀ error bits foreign,
          outcome = .error error
          → error.flaw = .foreignBits bits foreign
          → error.diagnostic.message
            = "invalid opcode bits '".toList ++ bits ++ "' (unexpected ".toList
              ++ ", ".toList.intercalate (foreign.map fun c => Text.quoted [c]) ++ [')'] := by
  intro text location outcome
  refine ⟨?_, ?_, ?_, ?_, ?_⟩
  · exact (exists_parse_eq_ok_iff location line).trans shaped_iff
  · exact fun row read => (parse_eq_ok_iff.mp read).2
  · intro ⟨flaw, row, place⟩
    rw [parse_eq_error_iff]
    simp [RowError.diagnostic, text]
  · intro error refused
    obtain ⟨flaw, _, rfl⟩ := parse_eq_error_iff.mp refused
    rw [RowError.diagnostic, Option.isSome_map]
  · intro error bits foreign _ flaw
    rw [RowError.diagnostic, flaw]
    exact foreignBits_message bits foreign

/-- Of the two foreign bits and the two letters in the place of digits, only the bits are told. -/
example
    : parse none " 0b0a0b00xyadd ".toList
      = .error ⟨.foreignBits "0b0a0b00".toList ['a', 'b'], "0b0a0b00xyadd".toList, none⟩ := by
  cbv

end Row

end OpcodeTables
