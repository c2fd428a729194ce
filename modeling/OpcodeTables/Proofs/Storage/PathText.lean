import OpcodeTables.Storage.FileTree

/-! The text of a path leads the way that its parts tell: from the start of the path through
one part after another.
-/

namespace OpcodeTables

namespace Path

--------------------------------------------------------------------------------
-- Names in a text
--------------------------------------------------------------------------------

/-- A part of a path is a name of its own: it is not empty, has no slash in it, and does not name
the same directory again.
-/
structure IsPart (part : Text) : Prop where
  nonempty : part ≠ []
  noSlash : '/' ∉ part
  notSame : part ≠ same

/-- A path in normal form, which is made of parts. -/
def Normal (path : Path) : Prop :=
  ∀ part ∈ path.parts, IsPart part

theorem names_intercalate {parts : List Text} (normal : ∀ part ∈ parts, IsPart part)
    : names (['/'].intercalate parts) = parts := by
  cases parts with
  | nil => rfl
  | cons part parts =>
      rw [names, List.splitOn_intercalate '/' (fun other member =>
        (normal other member).noSlash) (by simp), List.filter_eq_self]
      simpa using fun other member => (normal other member).nonempty

theorem names_slash_cons (text : Text) : names ('/' :: text) = names text := by
  simp [names, List.splitOn_cons_eq_if_modifyHead]

/-- The text of a path has the parts of the path as its names. -/
theorem names_toText {path : Path} (normal : path.Normal) (nonempty : path.parts ≠ [])
    : names path.toText = path.parts := by
  obtain ⟨anchor, parts⟩ := path
  have same := names_intercalate normal
  cases anchor <;> cases parts <;>
    simp_all [toText, anchorText, names_slash_cons]

--------------------------------------------------------------------------------
-- Paths in normal form
--------------------------------------------------------------------------------

/-- Nothing that stands between slashes has a slash in it, by induction over the text. -/
theorem noSlash_of_mem_splitOn {text piece : Text} (member : piece ∈ text.splitOn '/')
    : '/' ∉ piece := by
  induction text generalizing piece with
  | nil => simp_all
  | cons c rest ih =>
      rw [List.splitOn_cons_eq_if_modifyHead] at member
      split at member
      · rcases List.mem_cons.mp member with rfl | later
        · simp
        · exact ih later
      · next notSlash =>
          obtain ⟨first, others, whole⟩ :=
            List.exists_cons_of_ne_nil (List.splitOn_ne_nil '/' rest)
          rw [whole, List.modifyHead_cons] at member
          rcases List.mem_cons.mp member with rfl | later
          · have noSlash := ih (whole ▸ List.mem_cons_self)
            have apart : c ≠ '/' := by simpa using notSlash
            simp [noSlash, apart.symm]
          · exact ih (whole ▸ List.mem_cons_of_mem _ later)

/-- A text means a path in normal form. -/
theorem ofText_normal (text : Text) : (ofText text).Normal := by
  intro part member
  obtain ⟨isName, notSame⟩ := List.mem_filter.mp member
  obtain ⟨isPiece, nonempty⟩ := List.mem_filter.mp isName
  exact ⟨by simpa using nonempty, noSlash_of_mem_splitOn isPiece, by simpa using notSame⟩

/-- A path stays in normal form when a text is joined to it. -/
theorem Normal.join {path : Path} (normal : path.Normal) (text : Text)
    : (path.join text).Normal := by
  rw [Path.join]
  split
  · intro part member
    rcases List.mem_append.mp member with old | new
    · exact normal part old
    · exact ofText_normal text part new
  · exact ofText_normal text

/-- The way back from some names leads through no other names, but perhaps further up. -/
theorem mem_back {anchor : Anchor} {done : List Text} {part : Text}
    (member : part ∈ back anchor done)
    : part ∈ done ∨ part = above := by
  unfold back at member
  split at member
  · exact Or.inr (List.mem_singleton.mp member)
  · cases member
  · split at member
    · exact (List.mem_cons.mp member).symm
    · exact Or.inl (List.mem_cons_of_mem _ member)

/-- The direct way through some names leads through no other names, but perhaps further up, by
induction over the names.
-/
theorem mem_settleFrom {anchor : Anchor} {done parts : List Text} {part : Text}
    (member : part ∈ settleFrom anchor done parts)
    : part ∈ done ∨ part ∈ parts ∨ part = above := by
  induction parts generalizing done with
  | nil => exact Or.inl (List.mem_reverse.mp member)
  | cons first parts ih =>
      rcases ih member with old | new
      · split at old
        · exact (mem_back old).imp_right Or.inr
        · rcases List.mem_cons.mp old with rfl | done
          · exact Or.inr (Or.inl List.mem_cons_self)
          · exact Or.inl done
      · exact Or.inr (new.imp_left (List.mem_cons_of_mem _))

theorem Normal.settled {path : Path} (normal : path.Normal) : path.settled.Normal := by
  intro part member
  rcases mem_settleFrom member with done | old | rfl
  · cases done
  · exact normal part old
  · exact ⟨by decide, by decide, by decide⟩

theorem Normal.parent {path : Path} (normal : path.Normal) : path.parent.Normal :=
  fun part member => normal part (List.dropLast_subset path.parts member)

--------------------------------------------------------------------------------
-- The way that a text leads
--------------------------------------------------------------------------------

/-- The names that the text of a path leads through. A path without parts leads to its start
again.
-/
def steps (path : Path) : List Text :=
  if path.parts = [] then [same] else path.parts

/-- Joined names end with the last of them, whichever it is, by induction over the others. -/
theorem intercalate_concat (parts : List Text)
    : ∃ front, ∀ last, ['/'].intercalate (parts ++ [last]) = front ++ last := by
  induction parts with
  | nil => exact ⟨[], by simp⟩
  | cons part parts ih =>
      obtain ⟨front, split⟩ := ih
      refine ⟨part ++ '/' :: front, ?_⟩
      intro last
      rw [List.cons_append, List.intercalate_cons_of_ne_nil (by simp), split]
      simp

/-- The text of a path with parts ends with its last part, whichever it is. -/
theorem toText_concat (anchor : Anchor) (parts : List Text)
    : ∃ front, ∀ last, toText ⟨anchor, parts ++ [last]⟩ = front ++ last := by
  obtain ⟨front, split⟩ := intercalate_concat parts
  refine ⟨anchorText anchor ++ front, ?_⟩
  intro last
  have joined := split last
  cases anchor <;> cases parts <;> simp_all [toText]

/-- The text of a path leads through its parts. -/
theorem route_toText {path : Path} (normal : path.Normal)
    : FileTree.route path.toText = path.steps := by
  rcases List.eq_nil_or_concat path.parts with empty | ⟨parts, last, whole⟩
  · obtain ⟨anchor, parts⟩ := path
    obtain rfl : parts = [] := empty
    cases anchor <;> rfl
  · rw [List.concat_eq_append] at whole
    have nonempty : path.parts ≠ [] := by simp [whole]
    have part := normal last (by simp [whole])
    obtain ⟨front, split⟩ := toText_concat path.anchor parts
    have text : path.toText = front ++ last := by
      rw [← split, ← whole]
    have noSlash : path.toText.getLast? ≠ some '/' := by
      obtain ⟨c, found⟩ := List.getLast?_isSome.mpr part.nonempty |> Option.isSome_iff_exists.mp
      rw [text, List.getLast?_append, found, Option.some_or, ne_eq, Option.some.injEq]
      rintro rfl
      exact part.noSlash (List.mem_of_getLast? found)
    rw [FileTree.route, if_neg noSlash, names_toText normal nonempty, steps, if_neg nonempty]

end Path

namespace FileTree

/-- The place where a path starts. -/
def origin (tree : FileTree) (anchor : Anchor) : Place :=
  if anchor = .current then tree.current else []

theorem origin_eq {tree next : FileTree} (current : next.current = tree.current) (anchor : Anchor)
    : next.origin anchor = tree.origin anchor := by
  unfold origin
  rw [current]

/-- The text of a path starts where the path does. -/
theorem start_toText (tree : FileTree) {path : Path} (normal : path.Normal)
    : tree.start path.toText = tree.origin path.anchor := by
  obtain ⟨anchor, parts⟩ := path
  have first : anchor = .current → (Path.toText ⟨anchor, parts⟩).head? ≠ some '/' := by
    rintro rfl
    cases parts with
    | nil => decide
    | cons part parts =>
        obtain ⟨c, rest, whole⟩ := List.exists_cons_of_ne_nil (normal part (by simp)).nonempty
        have noSlash := (normal part (by simp)).noSlash
        cases parts <;> simp_all [Path.toText, Path.anchorText, List.intercalate_cons_cons, eq_comm]
  cases anchor with
  | current => rw [start, if_neg (first rfl), origin, if_pos rfl]
  | root => cases parts <;> simp [start, origin, Path.toText, Path.anchorText]
  | secondRoot => cases parts <;> simp [start, origin, Path.toText, Path.anchorText]

/-- A text that can be looked for: it has no null character and is not too long. -/
def Fits (text : Text) : Prop :=
  '\x00' ∉ text ∧ (Utf8.encode text).length ≤ pathLimit

theorem toText_ne_nil {path : Path} (normal : path.Normal) : path.toText ≠ [] := by
  obtain ⟨anchor, parts⟩ := path
  cases anchor <;> cases parts with
  | nil => decide
  | cons part parts =>
      have nonempty := (normal part (by simp)).nonempty
      cases parts <;> simp_all [Path.toText, Path.anchorText, List.intercalate_cons_cons]

/-- A text leads where its names lead from its start, if it can be looked for. -/
theorem locate_eq_ok_iff {tree : FileTree} {text : Text} {place : Place}
    : tree.locate text = .ok place
      ↔ Fits text ∧ text ≠ [] ∧ tree.walk (tree.start text) (route text) = .ok place := by
  unfold locate Fits
  split
  · simp_all
  · split
    · simp_all
    · split
      · simp only [reduceCtorEq, false_iff]
        omega
      · next short => simp_all

/-- A path leads to a place if its text can be looked for and its parts lead there. -/
theorem locate_toText_iff {tree : FileTree} {path : Path} (normal : path.Normal) {place : Place}
    : tree.locate path.toText = .ok place
      ↔ Fits path.toText ∧ tree.walk (tree.origin path.anchor) path.steps = .ok place := by
  rw [locate_eq_ok_iff, Path.route_toText normal, start_toText tree normal]
  simp [toText_ne_nil normal]

end FileTree

end OpcodeTables
