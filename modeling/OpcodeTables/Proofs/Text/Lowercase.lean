import OpcodeTables.Text.Blank
import OpcodeTables.Text.Lowercase

/-! Lowercase text is stable: no lowercase form has a further one, and a form differs from its
letter only where neither of them is blank.
-/

namespace OpcodeTables.Text

--------------------------------------------------------------------------------
-- Runs of partners
--------------------------------------------------------------------------------

/-- The partner of the last member of a run. -/
def CaseRun.lastPartner (run : CaseRun) : Nat :=
  run.partner + (run.last - run.first)

/-- No partner of the run lies in an interval. -/
def CaseRun.avoids (run : CaseRun) (span : Span) : Bool :=
  run.lastPartner.blt span.1 || span.2.blt run.partner

/-- No partner of the run is a member of another one: the intervals are apart, or the members and
the partners alternate.
-/
def CaseRun.leaves (run other : CaseRun) : Bool :=
  run.avoids (other.first, other.last)
    || (other.stride == 2 && (run.stride == 2 || run.first == run.last)
      && (run.partner + other.first) % 2 == 1)

/-- The partners lie between those of the first and the last member. -/
theorem CaseRun.partner?_bounds {run : CaseRun} {code partner : Nat}
    (found : run.partner? code = some partner)
    : run.partner ≤ partner ∧ partner ≤ run.lastPartner := by
  unfold CaseRun.partner? at found
  split at found
  · simp only [Option.some.injEq] at found
    simp only [CaseRun.lastPartner]
    omega
  · cases found

theorem CaseRun.avoids_partner {run : CaseRun} {span : Span} {code partner : Nat}
    (avoided : run.avoids span) (found : run.partner? code = some partner)
    : partner < span.1 ∨ span.2 < partner := by
  have bounds := CaseRun.partner?_bounds found
  simp only [CaseRun.avoids, Bool.or_eq_true, Nat.blt_eq] at avoided
  omega

/-- A run that another one leaves gives none of its partners a further partner. Where the
intervals meet, the distance of a partner from the first member is odd.
-/
theorem CaseRun.leaves_partner {run other : CaseRun} {code partner : Nat}
    (left : run.leaves other) (found : run.partner? code = some partner)
    : other.partner? partner = none := by
  unfold CaseRun.partner?
  refine if_neg ?_
  rintro ⟨low, high, member⟩
  simp only [CaseRun.leaves, Bool.or_eq_true, Bool.and_eq_true, beq_iff_eq] at left
  rcases left with apart | ⟨⟨stride, single⟩, odd⟩
  · have := CaseRun.avoids_partner apart found
    simp only at this
    omega
  · unfold CaseRun.partner? at found
    split at found
    · next held =>
        simp only [Option.some.injEq] at found
        rw [stride] at member
        rcases single with two | one
        · rw [two] at held
          omega
        · omega
    · cases found

/-- The runs leave each other, checked pair by pair. -/
theorem caseRuns_leave : (caseRuns.all fun run => caseRuns.all run.leaves) = true := by
  decide +kernel

/-- What no partner is: a surrogate, a number too large for a character, one of the two letters
outside the table, or a blank.
-/
def exceptedSpans : List Span :=
  (0xD800, 0xDFFF) :: (0x03A3, 0x03A3) :: (0x0130, 0x0130) :: blankSpans

/-- The runs avoid what no partner is, and stay in the range of characters. -/
theorem caseRuns_avoid
    : (caseRuns.all fun run =>
        run.lastPartner.blt 0x110000 && exceptedSpans.all run.avoids) = true := by
  decide +kernel

/-- The partner in a run is none of the exceptions, by the check of the runs. -/
theorem partner_avoids {run : CaseRun} (member : run ∈ caseRuns) {code partner : Nat}
    (held : run.partner? code = some partner) (span : Span) (excepted : span ∈ exceptedSpans)
    : partner < span.1 ∨ span.2 < partner := by
  have clear := List.all_eq_true.mp caseRuns_avoid run member
  rw [Bool.and_eq_true] at clear
  exact CaseRun.avoids_partner (List.all_eq_true.mp clear.2 span excepted) held

/-- The partner in a run is a character, because no run meets the surrogates or leaves the
range.
-/
theorem toNat_ofNat_partner {run : CaseRun} (member : run ∈ caseRuns) {code partner : Nat}
    (held : run.partner? code = some partner)
    : (Char.ofNat partner).toNat = partner := by
  have bounds := CaseRun.partner?_bounds held
  have apart := partner_avoids member held (0xD800, 0xDFFF) (by simp [exceptedSpans])
  have clear := List.all_eq_true.mp caseRuns_avoid run member
  simp only [Bool.and_eq_true, Nat.blt_eq] at clear
  have valid : partner.isValidChar := by
    simp only [Nat.isValidChar] at *
    omega
  rw [Char.ofNat, dif_pos valid]
  rfl

--------------------------------------------------------------------------------
-- Letters
--------------------------------------------------------------------------------

/-- A character that is its own lowercase form. -/
structure IsLowered (c : Char) : Prop where
  notSigma : c ≠ 'Σ'
  notDotted : c ≠ 'İ'
  own : lowerLetter c = c

/-- A letter stays as it is, or its lowercase form is its partner in a run. -/
theorem lowerLetter_cases (c : Char)
    : lowerLetter c = c
      ∨ ∃ run ∈ caseRuns, run.partner? c.toNat = some (lowerLetter c).toNat := by
  unfold lowerLetter
  cases found : caseRuns.findSome? (·.partner? c.toNat) with
  | none => exact Or.inl rfl
  | some partner =>
      obtain ⟨run, member, held⟩ := List.exists_of_findSome?_eq_some found
      exact Or.inr ⟨run, member, held.trans (congrArg some (toNat_ofNat_partner member held).symm)⟩

/-- The lowercase form of a letter has no further one. A partner is neither of the two letters
outside the table, and no run holds it.
-/
theorem lowerLetter_isLowered {c : Char} (notSigma : c ≠ 'Σ') (notDotted : c ≠ 'İ')
    : IsLowered (lowerLetter c) := by
  rcases lowerLetter_cases c with own | ⟨run, member, held⟩
  · exact own.symm ▸ ⟨notSigma, notDotted, own⟩
  · refine ⟨?_, ?_, ?_⟩
    · intro same
      have apart := partner_avoids member held (0x03A3, 0x03A3) (by simp [exceptedSpans])
      rw [same] at apart
      exact absurd apart (by decide)
    · intro same
      have apart := partner_avoids member held (0x0130, 0x0130) (by simp [exceptedSpans])
      rw [same] at apart
      exact absurd apart (by decide)
    · rcases lowerLetter_cases (lowerLetter c) with own | ⟨other, otherMember, again⟩
      · exact own
      · have left := List.all_eq_true.mp (List.all_eq_true.mp caseRuns_leave run member) other
          otherMember
        rw [CaseRun.leaves_partner left held] at again
        cases again

/-- A blank comes from nothing but itself, because no partner is blank. -/
theorem eq_lowerLetter_of_isBlank {c : Char} (blank : isBlank (lowerLetter c))
    : lowerLetter c = c := by
  rcases lowerLetter_cases c with own | ⟨run, member, held⟩
  · exact own
  · obtain ⟨span, known, inside⟩ := List.any_eq_true.mp blank
    have apart := partner_avoids member held span (by simp [exceptedSpans, known])
    simp only [Bool.and_eq_true, decide_eq_true_eq] at inside
    omega

--------------------------------------------------------------------------------
-- Text
--------------------------------------------------------------------------------

/-- What a character turns into is lowercase, whatever its neighbours are. -/
theorem lowerAt_isLowered {before after : Text} {c d : Char} (member : d ∈ lowerAt before c after)
    : IsLowered d := by
  unfold lowerAt at member
  split at member
  · split at member <;>
      · rw [List.mem_singleton.mp member]
        exact ⟨by decide, by decide, by decide +kernel⟩
  · next notSigma =>
      split at member
      · simp only [List.mem_cons, List.not_mem_nil, or_false] at member
        rcases member with rfl | rfl <;>
          exact ⟨by decide, by decide, by decide +kernel⟩
      · next notDotted =>
          rw [List.mem_singleton.mp member]
          exact lowerLetter_isLowered notSigma notDotted

/-- A blank in the lowercase form of a character is the character. -/
theorem eq_of_mem_lowerAt_of_isBlank {before after : Text} {c d : Char}
    (member : d ∈ lowerAt before c after) (blank : isBlank d)
    : d = c := by
  unfold lowerAt at member
  split at member
  · split at member <;>
      · rw [List.mem_singleton.mp member] at blank
        exact absurd blank (by decide)
  · split at member
    · simp only [List.mem_cons, List.not_mem_nil, or_false] at member
      rcases member with rfl | rfl <;> exact absurd blank (by decide)
    · have same := List.mem_singleton.mp member
      exact same.trans (eq_lowerLetter_of_isBlank (same ▸ blank))

/-- Every character of lowercase text comes from one of the text, by induction over the text. -/
theorem mem_lowerFrom {before text : Text} {d : Char} (member : d ∈ lowerFrom before text)
    : ∃ c ∈ text, ∃ near far, d ∈ lowerAt near c far := by
  induction text generalizing before with
  | nil => cases member
  | cons c after ih =>
      rcases List.mem_append.mp member with here | later
      · exact ⟨c, by simp, before, after, here⟩
      · obtain ⟨e, inside, near, far, from_⟩ := ih later
        exact ⟨e, by simp [inside], near, far, from_⟩

theorem mem_lower_isLowered {text : Text} {d : Char} (member : d ∈ lower text) : IsLowered d := by
  obtain ⟨_, _, _, _, found⟩ := mem_lowerFrom member
  exact lowerAt_isLowered found

/-- The blanks in lowercase text are those of the text. -/
theorem mem_of_mem_lower_of_isBlank {text : Text} {d : Char} (member : d ∈ lower text)
    (blank : isBlank d)
    : d ∈ text := by
  obtain ⟨c, inside, _, _, found⟩ := mem_lowerFrom member
  exact eq_of_mem_lowerAt_of_isBlank found blank ▸ inside

/-- Text of lowercase characters stays as it is, by induction over the text. -/
theorem lowerFrom_eq_self {before text : Text} (lowered : ∀ c ∈ text, IsLowered c)
    : lowerFrom before text = text := by
  induction text generalizing before with
  | nil => rfl
  | cons c after ih =>
      have here := lowered c (by simp)
      have same : lowerAt before c after = [c] := by
        simp only [lowerAt, if_neg here.notSigma, if_neg here.notDotted, here.own]
      simp only [lowerFrom, same, List.singleton_append,
        ih (fun d member => lowered d (by simp [member]))]

/-- Lowercasing twice is lowercasing once. -/
theorem lower_lower (text : Text) : lower (lower text) = lower text :=
  lowerFrom_eq_self fun _ => mem_lower_isLowered

/-- Lowercase text ends with what the end of the text turns into, by induction over the text
before that end. The context of the earlier characters changes with it, so their forms are left
open.
-/
theorem lowerFrom_append (before text tail : Text)
    : ∃ start, lowerFrom before (text ++ tail) = start ++ lowerFrom (text.reverse ++ before) tail := by
  induction text generalizing before with
  | nil => exact ⟨[], rfl⟩
  | cons d rest ih =>
      obtain ⟨start, split⟩ := ih (d :: before)
      refine ⟨lowerAt before d (rest ++ tail) ++ start, ?_⟩
      simp only [List.cons_append, lowerFrom, split, List.append_assoc, List.reverse_cons,
        List.nil_append]

/-- What is lowercase already is found at the end of lowercase text as it was appended. -/
theorem exists_lower_append {tail : Text} (lowered : ∀ c ∈ tail, IsLowered c) (text : Text)
    : ∃ start, lower (text ++ tail) = start ++ tail := by
  obtain ⟨start, split⟩ := lowerFrom_append [] text tail
  exact ⟨start, by rw [lower, split, lowerFrom_eq_self lowered]⟩

theorem lowerAt_ne_nil (before : Text) (c : Char) (after : Text) : lowerAt before c after ≠ [] := by
  unfold lowerAt
  split
  · simp
  · split <;> simp

/-- Lowercase text ends with a blank only if the text does. -/
theorem getLast?_lower_not_blank {text : Text} (last : ∀ c ∈ text.getLast?, isBlank c = false)
    : ∀ c ∈ (lower text).getLast?, isBlank c = false := by
  intro c member
  rcases List.eq_nil_or_concat text with rfl | ⟨rest, d, rfl⟩
  · cases member
  · obtain ⟨start, split⟩ := lowerFrom_append [] rest [d]
    rw [List.concat_eq_append] at *
    simp only [lowerFrom, List.append_nil] at split
    have some_ := List.getLast?_eq_some_getLast (lowerAt_ne_nil rest.reverse d [])
    rw [lower, split, List.getLast?_append, some_, Option.some_or, ← some_] at member
    cases blank : isBlank c with
    | false => rfl
    | true =>
        have same := eq_of_mem_lowerAt_of_isBlank (List.mem_of_getLast? member) blank
        rw [← blank, same]
        exact last d (by simp)

end OpcodeTables.Text
