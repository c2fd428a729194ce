import Mathlib.Data.List.Pairwise
import OpcodeTables.Collision

/-! The search for a collision keeps the opcodes that it has passed. It finds nothing exactly
if all opcodes are apart, and otherwise it stops at the first opcode that has the bits of an
earlier one. Fields make no difference to it, and the order of the rows makes none to whether a
collision is found.
-/

namespace OpcodeTables

--------------------------------------------------------------------------------
-- Pairs of positions
--------------------------------------------------------------------------------

/-- A position cuts a list into the front, the element there and the rest. -/
theorem cut_at_position {α : Type} {elements : List α} {j : Nat} {a : α}
    (found : elements[j]? = some a)
    : elements = elements.take j ++ a :: elements.drop (j + 1) := by
  obtain ⟨inside, here⟩ := List.getElem?_eq_some_iff.mp found
  rw [← here, ← List.drop_eq_getElem_cons inside, List.take_append_drop]

theorem mem_take_of_position {α : Type} {elements : List α} {i j : Nat} {a : α} (before : i < j)
    (found : elements[i]? = some a)
    : a ∈ elements.take j := by
  refine List.mem_of_getElem? (i := i) ?_
  simpa [before] using found

/-- All elements of a list are related to the later ones exactly if those at two positions are. -/
theorem pairwise_iff_positions {α : Type} {r : α → α → Prop} {elements : List α}
    : elements.Pairwise r
      ↔ ∀ (i j : Nat) (a b : α),
          i < j → elements[i]? = some a → elements[j]? = some b → r a b := by
  rw [List.pairwise_iff_getElem]
  constructor
  · intro related i j a b before atI atJ
    obtain ⟨inI, rfl⟩ := List.getElem?_eq_some_iff.mp atI
    obtain ⟨inJ, rfl⟩ := List.getElem?_eq_some_iff.mp atJ
    exact related i j inI inJ before
  · intro related i j inI inJ before
    exact related i j _ _ before (List.getElem?_eq_getElem inI) (List.getElem?_eq_getElem inJ)

/-- The front of a list is related if the pairs of positions that end before its end are. -/
theorem pairwise_take {α : Type} {r : α → α → Prop} {elements : List α} {count : Nat}
    (related
      : ∀ (i j : Nat) (a b : α),
          i < j → j < count → elements[i]? = some a → elements[j]? = some b → r a b)
    : (elements.take count).Pairwise r := by
  refine pairwise_iff_positions.mpr ?_
  intro i j a b before atI atJ
  have inside : j < count := by
    obtain ⟨short, _⟩ := List.getElem?_eq_some_iff.mp atJ
    rw [List.length_take] at short
    omega
  refine related i j a b before inside ?_ ?_
  · simpa [Nat.lt_trans before inside] using atI
  · simpa [inside] using atJ

--------------------------------------------------------------------------------
-- The rows that are passed
--------------------------------------------------------------------------------

/-- Two rows do not collide: they have different bits, or one of them is a field. -/
def Row.Apart (a b : Row) : Prop :=
  a.isWildcard = false → b.isWildcard = false → a.bits ≠ b.bits

instance : Std.Symm Row.Apart :=
  ⟨fun _ _ apart concrete other same => apart other concrete same.symm⟩

namespace Collision

/-- Nothing is found if the rows are apart and none of their opcodes has bits that are seen
already, by induction over the rows.
-/
theorem findFrom_eq_none_iff {seen rows : List Row}
    : findFrom seen rows = none
      ↔ rows.Pairwise Row.Apart
        ∧ ∀ row ∈ rows, row.isWildcard = false → ∀ other ∈ seen, other.bits ≠ row.bits := by
  induction rows generalizing seen with
  | nil => simp [findFrom]
  | cons row rows ih =>
      rw [findFrom, List.pairwise_cons, List.forall_mem_cons]
      by_cases wild : row.isWildcard
      · simp only [wild, if_true, ih, Row.Apart, Bool.true_eq_false, false_implies, implies_true,
          true_and]
      · simp only [Bool.not_eq_true] at wild
        simp only [wild, Bool.false_eq_true, if_false, Row.Apart, true_implies]
        cases found : seen.find? (·.bits == row.bits) with
        | some other =>
            have known := List.mem_of_find?_eq_some found
            have same : other.bits = row.bits := by simpa using List.find?_some found
            simp only [reduceCtorEq, false_iff]
            exact fun ⟨_, clear, _⟩ => clear other known same
        | none =>
            have clear : ∀ other ∈ seen, other.bits ≠ row.bits := by
              simpa using List.find?_eq_none.mp found
            simp only [ih, List.forall_mem_cons]
            constructor
            · rintro ⟨apart, others⟩
              exact ⟨⟨fun next member concrete => (others next member concrete).1, apart⟩, clear,
                fun next member concrete => (others next member concrete).2⟩
            · rintro ⟨⟨here, apart⟩, _, others⟩
              exact ⟨apart, fun next member concrete =>
                ⟨here next member concrete, others next member concrete⟩⟩

/-- No collision is found exactly if the rows are apart. -/
theorem find?_eq_none_iff {rows : List Row} : find? rows = none ↔ rows.Pairwise Row.Apart := by
  simp [find?, findFrom_eq_none_iff]

/-- Rows in which nothing is found are passed, and their opcodes have been seen then. -/
theorem findFrom_append {seen before : List Row} (clear : findFrom seen before = none)
    (rest : List Row)
    : findFrom seen (before ++ rest)
      = findFrom ((before.filter (!·.isWildcard)).reverse ++ seen) rest := by
  induction before generalizing seen with
  | nil => rfl
  | cons row rows ih =>
      rw [findFrom] at clear
      rw [List.cons_append, findFrom]
      by_cases wild : row.isWildcard
      · simp only [wild, if_true] at clear ⊢
        simpa [wild] using ih clear
      · simp only [Bool.not_eq_true] at wild
        simp only [wild, Bool.false_eq_true, if_false] at clear ⊢
        cases found : seen.find? (·.bits == row.bits) with
        | some other => simp [found] at clear
        | none => simpa [found, wild] using ih (by simpa [found] using clear)

/-- The collision is that of the first opcode with the bits of an earlier one, which is the only
earlier one with these bits.
-/
theorem find?_append_cons {before : List Row} (apart : before.Pairwise Row.Apart)
    {earlier row : Row} (member : earlier ∈ before) (earlierConcrete : earlier.isWildcard = false)
    (concrete : row.isWildcard = false) (same : earlier.bits = row.bits) (after : List Row)
    : find? (before ++ row :: after) = some ⟨earlier.name, row.name, row.bits⟩ := by
  rw [find?, findFrom_append (find?_eq_none_iff.mpr apart), List.append_nil, findFrom]
  simp only [concrete, Bool.false_eq_true, if_false]
  cases found : (before.filter (!·.isWildcard)).reverse.find? (·.bits == row.bits) with
  | none =>
      have absent := List.find?_eq_none.mp found earlier (by simp [member, earlierConcrete])
      simp [same] at absent
  | some other =>
      have known := List.mem_of_find?_eq_some found
      have sameBits : other.bits = row.bits := by simpa using List.find?_some found
      simp only [List.mem_reverse, List.mem_filter, Bool.not_eq_true'] at known
      have unique : other = earlier := by
        by_contra different
        exact apart.forall known.1 member different known.2 earlierConcrete
          (sameBits.trans same.symm)
      rw [unique]

/-- Fields are passed without a trace, whatever has been seen. By induction over the rows. -/
theorem findFrom_filter (seen rows : List Row)
    : findFrom seen (rows.filter (!·.isWildcard)) = findFrom seen rows := by
  induction rows generalizing seen with
  | nil => rfl
  | cons row rows ih =>
      by_cases wild : row.isWildcard
      · rw [List.filter_cons_of_neg (by simp [wild]), ih, findFrom, if_pos wild]
      · rw [List.filter_cons_of_pos (by simp [wild]), findFrom, findFrom, ih, ih]

/-- The same rows in another order are apart as well, so that no collision is found either. -/
theorem find?_eq_none_iff_of_perm {rows other : List Row} (order : other.Perm rows)
    : find? other = none ↔ find? rows = none := by
  rw [find?_eq_none_iff, find?_eq_none_iff]
  exact order.pairwise_iff fun apart => symm apart

--------------------------------------------------------------------------------
-- The first repetition
--------------------------------------------------------------------------------

/-- Two opcodes with the same bits stand at two positions, one before the other. -/
structure RepeatAt (rows : List Row) (i j : Nat) (earlier later : Row) : Prop where
  before : i < j
  earlierAt : rows[i]? = some earlier
  laterAt : rows[j]? = some later
  earlierConcrete : Row.wildcard ∉ earlier.bits
  laterConcrete : Row.wildcard ∉ later.bits
  same : earlier.bits = later.bits

/-- A repetition at the least later position that there is. It repeats one earlier opcode only. -/
structure FirstRepeat (rows : List Row) (i j : Nat) (earlier later : Row) : Prop
    extends RepeatAt rows i j earlier later where
  least : ∀ k l a b, RepeatAt rows k l a b → j ≤ l
  only : ∀ k a, RepeatAt rows k j a later → k = i

theorem RepeatAt.not_apart {rows : List Row} {i j : Nat} {earlier later : Row}
    (repeats : RepeatAt rows i j earlier later)
    : ¬earlier.Apart later :=
  fun apart => apart (Row.isWildcard_eq_false_iff.mpr repeats.earlierConcrete)
    (Row.isWildcard_eq_false_iff.mpr repeats.laterConcrete) repeats.same

/-- Two rows at two positions are apart unless they are a repetition. -/
theorem apart_of_not_repeatAt {rows : List Row} {i j : Nat} {earlier later : Row} (before : i < j)
    (earlierAt : rows[i]? = some earlier) (laterAt : rows[j]? = some later)
    (clear : ¬RepeatAt rows i j earlier later)
    : earlier.Apart later := by
  intro earlierConcrete laterConcrete same
  exact clear ⟨before, earlierAt, laterAt, Row.isWildcard_eq_false_iff.mp earlierConcrete,
    Row.isWildcard_eq_false_iff.mp laterConcrete, same⟩

/-- A collision is found exactly if there is a repetition. -/
theorem isSome_find?_iff {rows : List Row}
    : (find? rows).isSome ↔ ∃ i j earlier later, RepeatAt rows i j earlier later := by
  have none_iff : find? rows = none ↔ ∀ i j earlier later, ¬RepeatAt rows i j earlier later := by
    rw [find?_eq_none_iff, pairwise_iff_positions]
    constructor
    · intro apart i j earlier later repeats
      exact repeats.not_apart
        (apart i j earlier later repeats.before repeats.earlierAt repeats.laterAt)
    · intro clear i j earlier later before earlierAt laterAt
      exact apart_of_not_repeatAt before earlierAt laterAt (clear i j earlier later)
  rw [Option.isSome_iff_ne_none, Ne, none_iff]
  simp only [not_forall, not_not]

/-- The least later position determines the earlier one: of two earlier opcodes with the same bits,
the second would be a later position itself.
-/
theorem RepeatAt.eq_of_least {rows : List Row} {i j k : Nat} {earlier other later : Row}
    (repeats : RepeatAt rows i j earlier later)
    (least : ∀ k l a b, RepeatAt rows k l a b → j ≤ l) (again : RepeatAt rows k j other later)
    : k = i := by
  have inOrder {m n : Nat} {a b : Row} (first : RepeatAt rows m j a later)
      (second : RepeatAt rows n j b later)
      : n ≤ m := by
    refine Nat.le_of_not_lt ?_
    intro before
    have far := least m n a b ⟨before, first.earlierAt, second.earlierAt, first.earlierConcrete,
      second.earlierConcrete, first.same.trans second.same.symm⟩
    exact Nat.not_lt.mpr far second.before
  exact Nat.le_antisymm (inOrder repeats again) (inOrder again repeats)

/-- Where there is a repetition there is a first one, by strong induction on the later position. -/
theorem RepeatAt.exists_first {rows : List Row} {i j : Nat} {earlier later : Row}
    (repeats : RepeatAt rows i j earlier later)
    : ∃ i j earlier later, FirstRepeat rows i j earlier later := by
  induction j using Nat.strongRecOn generalizing i earlier later with
  | ind j ih =>
      by_cases least : ∀ k l a b, RepeatAt rows k l a b → j ≤ l
      · exact ⟨i, j, earlier, later, repeats, least, fun _ _ => repeats.eq_of_least least⟩
      · simp only [not_forall, Nat.not_le] at least
        obtain ⟨k, l, a, b, sooner, before⟩ := least
        exact ih l before sooner

/-- The search ends at the first repetition: the rows in front of it are apart. -/
theorem FirstRepeat.find?_eq {rows : List Row} {i j : Nat} {earlier later : Row}
    (first : FirstRepeat rows i j earlier later)
    : find? rows = some ⟨earlier.name, later.name, later.bits⟩ := by
  have apart : (rows.take j).Pairwise Row.Apart := by
    refine pairwise_take ?_
    intro k l a b before inside atK atL
    refine apart_of_not_repeatAt before atK atL ?_
    exact fun sooner => Nat.not_lt.mpr (first.least k l a b sooner) inside
  have member := mem_take_of_position first.before first.earlierAt
  rw [cut_at_position first.laterAt]
  exact find?_append_cons apart member (Row.isWildcard_eq_false_iff.mpr first.earlierConcrete)
    (Row.isWildcard_eq_false_iff.mpr first.laterConcrete) first.same _

/-- A collision is found exactly if two opcodes at different positions have the same bits. It is the
collision of the least position where the bits of an earlier opcode come back: it names the only
earlier opcode with these bits, then the later one, and shows the bits. Whether a collision is found
depends neither on the order of the rows nor on the fields, which have no part in the collision.
-/
theorem find?_first_repeat (rows : List Row)
    : ((find? rows).isSome ↔ ∃ i j earlier later, RepeatAt rows i j earlier later)
      ∧ (∀ collision,
          find? rows = some collision
          ↔ ∃ i j earlier later,
              FirstRepeat rows i j earlier later
              ∧ collision = ⟨earlier.name, later.name, later.bits⟩)
      ∧ (∀ other, other.Perm rows → (find? other).isSome = (find? rows).isSome)
      ∧ ∀ other,
          other.filter (!·.isWildcard) = rows.filter (!·.isWildcard) → find? other = find? rows := by
  refine ⟨isSome_find?_iff, ?_, ?_, ?_⟩
  · intro collision
    constructor
    · intro found
      obtain ⟨_, _, _, _, repeats⟩ := isSome_find?_iff.mp (Option.isSome_of_eq_some found)
      obtain ⟨i, j, earlier, later, first⟩ := repeats.exists_first
      exact ⟨i, j, earlier, later, first, Option.some.inj (found.symm.trans first.find?_eq)⟩
    · rintro ⟨i, j, earlier, later, first, rfl⟩
      exact first.find?_eq
  · intro other order
    have same := find?_eq_none_iff_of_perm order
    rw [Bool.eq_iff_iff, Option.isSome_iff_ne_none, Option.isSome_iff_ne_none, Ne, Ne, same]
  · intro other same
    calc find? other = findFrom [] (other.filter (!·.isWildcard)) := (findFrom_filter [] other).symm
      _ = findFrom [] (rows.filter (!·.isWildcard)) := by rw [same]
      _ = find? rows := findFrom_filter [] rows

/-- The first of two instructions has no name and a field stands between them. -/
theorem find?_unnamed_repeat
    : let unnamed : Row := ⟨"01".toList, 0, 0, []⟩
      let field : Row := ⟨"2".toList, 0, 0, "f".toList⟩
      let named : Row := ⟨"01".toList, 5, 7, "b".toList⟩
      let rows := [unnamed, field, named]
      FirstRepeat rows 0 2 unnamed named
      ∧ find? rows = some ⟨[], "b".toList, "01".toList⟩
      ∧ find? [unnamed, named] = find? rows
      ∧ (find? [named, unnamed, field]).isSome = (find? rows).isSome := by
  intro unnamed field named rows
  obtain ⟨_, found, ordered, filtered⟩ := find?_first_repeat rows
  have repeats : RepeatAt rows 0 2 unnamed named :=
    ⟨by decide, rfl, rfl, by decide, by decide, rfl⟩
  have least : ∀ k l a b, RepeatAt rows k l a b → 2 ≤ l := by
    intro k l a b other
    rcases l with _ | _ | l
    · exact absurd other.before (Nat.not_lt_zero k)
    · obtain rfl : field = b := Option.some.inj other.laterAt
      exact absurd (by decide) other.laterConcrete
    · exact Nat.le_add_left 2 l
  have first : FirstRepeat rows 0 2 unnamed named :=
    ⟨repeats, least, fun _ _ => repeats.eq_of_least least⟩
  refine ⟨first, (found _).mpr ⟨0, 2, unnamed, named, first, rfl⟩, ?_, ?_⟩
  · exact filtered [unnamed, named] rfl
  · exact ordered [named, unnamed, field] (by decide)

end Collision

end OpcodeTables
