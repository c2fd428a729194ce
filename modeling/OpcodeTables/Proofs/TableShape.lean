import OpcodeTables.Proofs.InstructionCollisions
import OpcodeTables.Proofs.ModeTags

/-! The shape of an expanded table. It lists the fields and the instructions of the table in their
order, and each instruction has behind it the forms that its policy allows, in the order of the
modes. No form stands anywhere else, and the name of every opcode agrees with its bits.
-/

namespace OpcodeTables

namespace Row

/-- An opcode whose first two bits are not both zero. -/
def isForm (row : Row) : Bool :=
  !row.isWildcard && row.modeBits != plainBits

/-- An opcode whose first two bits are zeros. -/
def isPlain (row : Row) : Bool :=
  !row.isWildcard && row.modeBits == plainBits

/-- A field or an instruction as an expanded table lists it. -/
def entry (row : Row) : Row :=
  if row.isWildcard then row else row.lowered

instance (row : Row) : Decidable row.Kept :=
  decidable_of_iff
    (row.isWildcard = false ∧ row.modeBits = plainBits ∧ Mode.ofName? row.name = none)
    ⟨fun ⟨concrete, plain, untagged⟩ => kept_iff_base.mpr ⟨concrete, plain, untagged⟩,
      fun kept =>
        have base := kept_iff_base.mp kept
        ⟨base.concrete, base.plain, base.untagged⟩⟩

theorem isForm_iff {row : Row} : row.isForm ↔ row.isWildcard = false ∧ row.modeBits ≠ plainBits := by
  simp [isForm]

theorem isPlain_iff {row : Row}
    : row.isPlain ↔ row.isWildcard = false ∧ row.modeBits = plainBits := by
  simp [isPlain]

theorem Base.isPlain {row : Row} (base : row.Base) : row.isPlain :=
  isPlain_iff.mpr ⟨base.concrete, base.plain⟩

theorem isForm_eq_false_of_isPlain {row : Row} (plain : row.isPlain) : row.isForm = false := by
  simp [isForm, (isPlain_iff.mp plain).2]

theorem Base.derive_isForm {row : Row} (base : row.Base) (mode : Mode)
    : (row.derive mode).isForm :=
  isForm_iff.mpr ⟨base.derive_concrete mode, by simp [bits_ne_plainBits]⟩

theorem Base.isForm_of_mem_variants {row form : Row} (base : row.Base) (member : form ∈ row.variants)
    : form.isForm := by
  obtain ⟨mode, _, rfl⟩ := List.mem_map.mp member
  exact base.derive_isForm mode

/-- A dropped row is no field, and it is not kept. -/
theorem not_kept_of_isVariant {row : Row} (variant : row.isVariant)
    : row.isWildcard = false ∧ ¬row.Kept := by
  constructor
  · cases wild : row.isWildcard with
    | false => rfl
    | true => simp [isVariant_of_isWildcard wild] at variant
  · intro kept
    simp [(kept_iff_base.mp kept).isVariant_eq] at variant

theorem not_kept_of_isWildcard {row : Row} (wild : row.isWildcard) : ¬row.Kept := by
  intro kept
  simp [(kept_iff_base.mp kept).concrete] at wild

/-- The kept rows of a table are base rows. -/
theorem base_of_mem_filter {rows : List Row} {row : Row}
    (member : row ∈ rows.filter fun row => row.Kept)
    : row.Base :=
  kept_iff_base.mp (of_decide_eq_true (List.mem_filter.mp member).2)

theorem isWildcard_entry (row : Row) : row.entry.isWildcard = row.isWildcard := by
  unfold entry
  split <;> rfl

theorem isPlain_entry (row : Row) : row.entry.isPlain = row.isPlain := by
  unfold entry
  split <;> rfl

end Row

--------------------------------------------------------------------------------
-- Groups
--------------------------------------------------------------------------------

/-- A table of fields and of base rows with all their forms behind them. -/
inductive Grouped : List Row → Prop
  | nil : Grouped []
  | field {row rest} (wild : row.isWildcard) (tail : Grouped rest) : Grouped (row :: rest)
  | instruction {base rest} (kept : base.Base) (tail : Grouped rest)
    : Grouped (base :: (base.variants ++ rest))

theorem expandTable_cons (row : Row) (rows : List Row)
    : expandTable (row :: rows) = row.contribution ++ expandTable rows := by
  simp [expandTable]

/-- Expansion groups a table, by induction over its rows and the kinds of a row. -/
theorem expandTable_grouped (rows : List Row) : Grouped (expandTable rows) := by
  induction rows with
  | nil => exact .nil
  | cons row rows ih =>
      rw [expandTable_cons]
      rcases row.kind_cases with wild | base | variant
      · rw [Row.contribution_of_isWildcard wild]
        exact .field wild ih
      · rw [base.contribution_eq]
        exact .instruction base.lowered ih
      · rwa [Row.contribution_of_isVariant variant]

/-- What a row of a grouped table is, with the rows around it: a field, a base row in front of its
forms, or a form behind its base row and the forms before it.
-/
inductive Standing (before : List Row) (row : Row) (after : List Row) : Prop
  | field (wild : row.isWildcard)
  | instruction {rest} (kept : row.Base) (tail : Grouped rest) (forms : after = row.variants ++ rest)
  | form {base between later} (kept : base.Base) (ends : base :: between <:+ before)
    (forms : base.variants = between ++ row :: later)

/-- Rows in front of a table change nothing about the rows in it. -/
theorem Standing.append {before after : List Row} {row : Row} (standing : Standing before row after)
    (front : List Row)
    : Standing (front ++ before) row after := by
  cases standing with
  | field wild => exact .field wild
  | instruction kept tail forms => exact .instruction kept tail forms
  | form kept ends forms => exact .form kept (ends.trans (List.suffix_append front before)) forms

/-- Every row of a grouped table is a field, a base row in front of its forms, or a form behind its
base row, by induction over the groups.
-/
theorem Grouped.standing {before after : List Row} {row : Row}
    (grouped : Grouped (before ++ row :: after))
    : Standing before row after := by
  generalize whole : before ++ row :: after = table at grouped
  induction grouped generalizing before with
  | nil => simp at whole
  | @field first rest wild tail ih =>
      cases before with
      | nil =>
          obtain ⟨rfl, rfl⟩ := List.cons.inj whole
          exact .field wild
      | cons head before =>
          obtain ⟨rfl, others⟩ := List.cons.inj whole
          exact (ih others).append [head]
  | @instruction base rest kept tail ih =>
      cases before with
      | nil =>
          obtain ⟨rfl, rfl⟩ := List.cons.inj whole
          exact .instruction kept tail rfl
      | cons head before =>
          obtain ⟨rfl, others⟩ := List.cons.inj whole
          -- The row is one of the forms of this group, or it stands further behind.
          rcases List.append_eq_append_iff.mp others with
            ⟨_ | ⟨form, later⟩, forms, here⟩ | ⟨front, passed, here⟩
          · rw [List.append_nil] at forms
            have next : Standing [] row after := ih here
            simpa [forms] using next.append (head :: head.variants)
          · obtain ⟨rfl, _⟩ := List.cons.inj here
            exact .form kept (List.suffix_refl _) forms
          · simpa [passed] using (ih here.symm).append (head :: head.variants)

theorem Grouped.takeWhile_isForm {table : List Row} (grouped : Grouped table)
    : table.takeWhile Row.isForm = [] := by
  cases grouped with
  | nil => rfl
  | field wild tail => simp [Row.isForm, wild]
  | instruction kept tail => simp [Row.isForm_eq_false_of_isPlain kept.isPlain]

/-- Each form of a grouped table is derived from the nearest row before it that is no form. -/
theorem Grouped.exists_base {before after : List Row} {form : Row}
    (grouped : Grouped (before ++ form :: after)) (isForm : form.isForm)
    : ∃ base between mode,
        base.Base
        ∧ base :: between <:+ before
        ∧ (∀ row ∈ between, row.isForm)
        ∧ mode ∈ (Policy.ofName base.name).modes
        ∧ form = base.derive mode := by
  cases grouped.standing with
  | field wild => simp [Row.isForm, wild] at isForm
  | instruction kept tail forms => simp [Row.isForm_eq_false_of_isPlain kept.isPlain] at isForm
  | @form base between later kept ends forms =>
      have known : form ∈ base.variants := by simp [forms]
      obtain ⟨mode, allowed, derived⟩ := List.mem_map.mp known
      refine ⟨base, between, mode, kept, ends, ?_, allowed, derived.symm⟩
      intro row member
      exact kept.isForm_of_mem_variants (by simp [forms, member])

/-- The forms that follow a base row of a grouped table are all of its forms. -/
theorem Grouped.takeWhile_of_isPlain {before after : List Row} {base : Row}
    (grouped : Grouped (before ++ base :: after)) (plain : base.isPlain)
    : after.takeWhile Row.isForm = base.variants := by
  cases grouped.standing with
  | field wild => simp [Row.isPlain, wild] at plain
  | @instruction rest kept tail forms =>
      have all : ∀ form ∈ base.variants, form.isForm := fun form => kept.isForm_of_mem_variants
      rw [forms, List.takeWhile_append_of_pos all, tail.takeWhile_isForm, List.append_nil]
  | @form other between later kept ends forms =>
      have known : base ∈ other.variants := by simp [forms]
      have isForm := kept.isForm_of_mem_variants known
      simp [Row.isForm_eq_false_of_isPlain plain] at isForm

--------------------------------------------------------------------------------
-- The expanded table
--------------------------------------------------------------------------------

/-- The rows that an expanded table lists besides forms are the entries of the fields and the kept
rows, in the same order, by induction over the rows.
-/
theorem filter_not_isForm (rows : List Row)
    : (expandTable rows).filter (!·.isForm)
      = (rows.filter fun row => row.isWildcard || decide row.Kept).map Row.entry := by
  induction rows with
  | nil => rfl
  | cons row rows ih =>
      rw [expandTable_cons, List.filter_append, ih]
      rcases row.kind_cases with wild | base | variant
      · simp [Row.contribution_of_isWildcard wild, Row.isForm, Row.entry, wild]
      · have forms : row.lowered.variants.filter (!·.isForm) = [] := by
          refine List.filter_eq_nil_iff.mpr ?_
          intro form member
          simp [base.lowered.isForm_of_mem_variants member]
        have plain := Row.isForm_eq_false_of_isPlain base.lowered.isPlain
        have kept := Row.kept_iff_base.mpr base
        simp [base.contribution_eq, forms, plain, kept, Row.entry, base.concrete]
      · obtain ⟨concrete, unkept⟩ := Row.not_kept_of_isVariant variant
        simp [Row.contribution_of_isVariant variant, concrete, unkept]

/-- The rows of one kind that an expanded table lists are the entries of the rows of this kind that
are fields or kept, unless there are forms of this kind.
-/
theorem filter_expandTable {chosen : Row → Bool} (unformed : ∀ row, chosen row → row.isForm = false)
    (steady : ∀ row, chosen row.entry = chosen row) (rows : List Row)
    : (expandTable rows).filter chosen
      = (rows.filter fun row => chosen row && (row.isWildcard || decide row.Kept)).map Row.entry := by
  have listed : (expandTable rows).filter chosen
      = ((expandTable rows).filter (!·.isForm)).filter chosen := by
    rw [List.filter_filter]
    refine List.filter_congr ?_
    intro row _
    cases holds : chosen row with
    | false => rfl
    | true => simp [unformed row holds]
  -- An entry is chosen as its row is, so the choice can be made before the entries are taken.
  rw [listed, filter_not_isForm, List.filter_map, List.filter_filter]
  simp [steady]

theorem filter_isWildcard (rows : List Row)
    : (expandTable rows).filter Row.isWildcard = rows.filter Row.isWildcard := by
  rw [filter_expandTable (fun row wild => by simp [Row.isForm, wild]) Row.isWildcard_entry]
  have fields : (rows.filter fun row => row.isWildcard && (row.isWildcard || decide row.Kept))
      = rows.filter Row.isWildcard := by
    refine List.filter_congr ?_
    intro row _
    cases row.isWildcard <;> rfl
  rw [fields]
  refine (List.map_congr_left ?_).trans (List.map_id _)
  intro row member
  simp [Row.entry, (List.mem_filter.mp member).2]

/-- The opcodes of an expanded table that start with two zeros are the kept rows of the table, in
lowercase letters.
-/
theorem filter_isPlain (rows : List Row)
    : (expandTable rows).filter Row.isPlain
      = (rows.filter fun row => decide row.Kept).map Row.lowered := by
  rw [filter_expandTable (fun row => Row.isForm_eq_false_of_isPlain) Row.isPlain_entry]
  have bases : (rows.filter fun row => row.isPlain && (row.isWildcard || decide row.Kept))
      = rows.filter fun row => decide row.Kept := by
    refine List.filter_congr ?_
    intro row _
    by_cases kept : row.Kept
    · simp [kept, (Row.kept_iff_base.mp kept).isPlain]
    · cases wild : row.isWildcard <;> simp [kept, Row.isPlain, wild]
  rw [bases]
  refine List.map_congr_left ?_
  intro row member
  simp [Row.entry, (Row.base_of_mem_filter member).concrete]

/-- No row of what a base row turns into is a field. -/
theorem Row.Base.expand_concrete {row next : Row} (base : row.Base) (member : next ∈ row.expand)
    : next.isWildcard = false := by
  rcases Row.mem_expand_cases member with rfl | rfl | ⟨mode, rfl⟩
  · exact base.concrete
  · exact base.concrete
  · exact base.lowered.derive_concrete mode

/-- The opcodes of an expanded table are those that the kept rows turn into, by induction over the
rows.
-/
theorem filter_not_isWildcard (rows : List Row)
    : (expandTable rows).filter (!·.isWildcard)
      = (rows.filter fun row => decide row.Kept).flatMap Row.expand := by
  induction rows with
  | nil => rfl
  | cons row rows ih =>
      rw [expandTable_cons, List.filter_append, ih]
      rcases row.kind_cases with wild | base | variant
      · simp [Row.contribution_of_isWildcard wild, wild, Row.not_kept_of_isWildcard wild]
      · have opcodes : row.expand.filter (!·.isWildcard) = row.expand := by
          refine List.filter_eq_self.mpr ?_
          intro next member
          rw [base.expand_concrete member]
          rfl
        simp [base.contribution_eq_expand, opcodes, Row.kept_iff_base.mpr base]
      · obtain ⟨_, unkept⟩ := Row.not_kept_of_isVariant variant
        simp [Row.contribution_of_isVariant variant, unkept]

/-- The modes of a policy are allowed in the usual order, each of them once. -/
theorem modes_sublist (policy : Policy) : policy.modes.Sublist [.first, .second, .both] := by
  cases policy <;> decide

/-- The first bits and the name of a form tell the same mode, and those of a base row tell none. -/
theorem ofName?_eq_ofBits? {table : List Row} (grouped : Grouped table) {row : Row}
    (member : row ∈ table) (concrete : row.isWildcard = false)
    : Mode.ofName? row.name = Mode.ofBits? row.modeBits := by
  obtain ⟨before, after, rfl⟩ := List.append_of_mem member
  cases grouped.standing with
  | field wild => simp [wild] at concrete
  | instruction kept tail forms =>
      rw [kept.untagged, kept.plain]
      rfl
  | @form base between later kept ends forms =>
      have known : row ∈ base.variants := by simp [forms]
      obtain ⟨mode, _, rfl⟩ := List.mem_map.mp known
      rw [Row.modeBits_derive, Mode.ofBits?_bits]
      exact Mode.ofName?_append_tag base.name mode

/-- What makes a table the expansion of some rows. -/
structure ExpansionOf (rows table : List Row) : Prop where
  /-- The fields are those of the rows, unchanged and in order. -/
  fields : table.filter Row.isWildcard = rows.filter Row.isWildcard
  /-- The opcodes that start with two zeros are the kept rows in lowercase letters, in order. -/
  bases : table.filter Row.isPlain = (rows.filter fun row => row.Kept).map Row.lowered
  /-- Fields and base rows stand among each other as they do among the rows. -/
  order
    : table.filter (!·.isForm)
      = (rows.filter fun row => row.isWildcard || row.Kept).map Row.entry
  /-- Each form belongs to the nearest base row before it, with nothing but forms between them. -/
  forms
    : ∀ before form after,
        table = before ++ form :: after
        → form.isForm
        → ∃ base between mode,
            base :: between <:+ before
            ∧ base.isPlain
            ∧ (∀ row ∈ between, row.isForm)
            ∧ mode ∈ (Policy.ofName base.name).modes
            ∧ form = base.derive mode
            ∧ form.baseBits = base.baseBits
            ∧ form.nameStart = base.nameStart
            ∧ form.nameEnd = base.nameEnd
  /-- Behind each base row stand its forms, one in each mode that its policy allows. -/
  complete
    : ∀ before base after,
        table = before ++ base :: after
        → base.isPlain
        → after.takeWhile Row.isForm = (Policy.ofName base.name).modes.map base.derive
          ∧ (Policy.ofName base.name).modes.Sublist [.first, .second, .both]
  /-- The name of each opcode tells the same mode as its first two bits. -/
  agreement
    : ∀ row ∈ table, row.isWildcard = false → Mode.ofName? row.name = Mode.ofBits? row.modeBits

/-- An expanded table has the shape of an expansion, whatever the rows are. Witness: it is grouped,
and where a row stands in a group tells what is around it.
-/
theorem expandTable_expansionOf (rows : List Row) : ExpansionOf rows (expandTable rows) where
  fields := filter_isWildcard rows
  bases := filter_isPlain rows
  order := filter_not_isForm rows
  forms := by
    intro before form after whole isForm
    have grouped := whole ▸ expandTable_grouped rows
    obtain ⟨base, between, mode, kept, ends, forms, allowed, rfl⟩ := grouped.exists_base isForm
    exact ⟨base, between, mode, ends, kept.isPlain, forms, allowed, rfl,
      Row.baseBits_derive base mode, rfl, rfl⟩
  complete := by
    intro before base after whole plain
    have grouped := whole ▸ expandTable_grouped rows
    exact ⟨grouped.takeWhile_of_isPlain plain, modes_sublist _⟩
  agreement := fun _ => ofName?_eq_ofBits? (expandTable_grouped rows)

end OpcodeTables
