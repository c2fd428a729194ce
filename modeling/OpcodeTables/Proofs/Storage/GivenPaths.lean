import Mathlib.Data.List.Flatten
import OpcodeTables.Proofs.Storage.RootedTrees

/-! A text that is given for a path and the text of that path itself. Bringing a path into normal form
drops characters only, and what is dropped does not change where the path leads.
-/

namespace OpcodeTables

namespace Path

--------------------------------------------------------------------------------
-- The text of a path means the path
--------------------------------------------------------------------------------

theorem anchorOf_toText {path : Path} (normal : path.Normal)
    : anchorOf path.toText = path.anchor := by
  obtain ⟨anchor, parts⟩ := path
  cases parts with
  | nil => cases anchor <;> rfl
  | cons part parts =>
      have isPart := normal part List.mem_cons_self
      obtain ⟨c, rest, whole⟩ := List.exists_cons_of_ne_nil isPart.nonempty
      have noSlash : c ≠ '/' := by
        have clear := isPart.noSlash
        simp only [whole, List.mem_cons, not_or] at clear
        exact Ne.symm clear.1
      have joined : ∃ tail, ['/'].intercalate (part :: parts) = c :: tail := by
        cases parts <;> simp [whole, List.intercalate_cons_cons]
      obtain ⟨tail, joined⟩ := joined
      cases anchor <;> simp [anchorOf, toText, anchorText, joined, noSlash]

theorem ofText_toText {path : Path} (normal : path.Normal) : ofText path.toText = path := by
  by_cases nonempty : path.parts = []
  · obtain ⟨anchor, parts⟩ := path
    obtain rfl : parts = [] := nonempty
    cases anchor <;> rfl
  · have parts : path.parts.filter (· ≠ same) = path.parts := by
      apply List.filter_eq_self.mpr
      intro part member
      simpa using (normal part member).notSame
    rw [ofText, anchorOf_toText normal, names_toText normal nonempty, parts]

--------------------------------------------------------------------------------
-- The path that a text means
--------------------------------------------------------------------------------

/-- Joining fewer parts leaves out characters, by induction over the parts that are left out. -/
theorem intercalate_sublist {parts pieces : List Text} (fewer : parts.Sublist pieces)
    : (['/'].intercalate parts).Sublist (['/'].intercalate pieces) := by
  induction fewer with
  | slnil => exact .slnil
  | @cons parts pieces piece fewer ih =>
      cases pieces with
      | nil =>
          obtain rfl := List.sublist_nil.mp fewer
          simp
      | cons other pieces =>
          rw [List.intercalate_cons_cons]
          exact ih.trans (List.sublist_append_right _ _)
  | @cons_cons parts pieces piece fewer ih =>
      cases parts with
      | nil => cases pieces <;> simp [List.intercalate_cons_cons]
      | cons part parts =>
          cases pieces with
          | nil => cases fewer
          | cons other pieces =>
              rw [List.intercalate_cons_cons, List.intercalate_cons_cons]
              exact ih.append_left _

/-- The text of a path with fewer parts leaves out characters, unless no part is left. -/
theorem toText_sublist {anchor : Anchor} {parts others : List Text} (nonempty : parts ≠ [])
    (fewer : parts.Sublist others)
    : (toText ⟨anchor, parts⟩).Sublist (toText ⟨anchor, others⟩) := by
  have joined := (intercalate_sublist fewer).append_left (anchorText anchor)
  cases parts with
  | nil => exact absurd rfl nonempty
  | cons part parts =>
      cases others with
      | nil => cases fewer
      | cons other others => cases anchor <;> exact joined

/-- The text of a path is made of characters of the text that the path is read from. -/
theorem intercalate_ofText_sublist (text : Text)
    : (['/'].intercalate (ofText text).parts).Sublist text := by
  have fewer : (ofText text).parts.Sublist (text.splitOn '/') :=
    List.filter_sublist.trans List.filter_sublist
  have joined := intercalate_sublist fewer
  rwa [List.intercalate_splitOn] at joined

theorem anchorOf_eq_current_iff {text : Text}
    : anchorOf text = .current ↔ text.head? ≠ some '/' := by
  cases text with
  | nil => simp [anchorOf]
  | cons c rest =>
      by_cases slash : c = '/'
      · unfold anchorOf
        split <;> simp_all
      · simp [anchorOf, slash]

theorem exists_slash_cons {text : Text} (rooted : anchorOf text ≠ .current)
    : ∃ rest, text = '/' :: rest := by
  have slash : ¬text.head? ≠ some '/' := mt anchorOf_eq_current_iff.mpr rooted
  exact List.head?_eq_some_iff.mp (not_not.mp slash)

/-- A text starts as it tells, and the slashes there are no names. -/
theorem exists_anchorText_append (text : Text)
    : ∃ rest, text = anchorText (anchorOf text) ++ rest ∧ names text = names rest := by
  cases told : anchorOf text with
  | current => exact ⟨text, rfl, rfl⟩
  | root =>
      obtain ⟨rest, rfl⟩ := exists_slash_cons (by simp [told] : anchorOf text ≠ .current)
      exact ⟨rest, rfl, names_slash_cons rest⟩
  | secondRoot =>
      obtain ⟨rest, rfl⟩ := exists_slash_cons (by simp [told] : anchorOf text ≠ .current)
      cases rest with
      | nil => cases told
      | cons c rest =>
          obtain rfl : c = '/' := by
            by_contra other
            simp [anchorOf, other] at told
          exact ⟨rest, rfl, (names_slash_cons _).trans (names_slash_cons rest)⟩

/-- A text that starts at no root and names nothing but the directory itself has a point in it. -/
theorem point_mem {text : Text} (nonempty : text ≠ []) (current : anchorOf text = .current)
    (unnamed : (ofText text).parts = [])
    : '.' ∈ text := by
  obtain ⟨c, rest, rfl⟩ := List.exists_cons_of_ne_nil nonempty
  have notSlash : c ≠ '/' := by
    simpa using anchorOf_eq_current_iff.mp current
  obtain ⟨first, others, whole⟩ := List.exists_cons_of_ne_nil (List.splitOn_ne_nil '/' rest)
  have named : c :: first ∈ names (c :: rest) := by
    simp [names, List.splitOn_cons_eq_if_modifyHead, notSlash, whole]
  have isSame : c :: first = same := by
    by_contra notSame
    have member : c :: first ∈ (ofText (c :: rest)).parts :=
      List.mem_filter.mpr ⟨named, by simpa using notSame⟩
    simp [unnamed] at member
  simp [(List.cons.inj isSame).1]

/-- The text of the path that a text means is made of characters of that text, in the same order. -/
theorem toText_ofText_sublist {text : Text} (nonempty : text ≠ [])
    : (ofText text).toText.Sublist text := by
  obtain ⟨rest, whole, named⟩ := exists_anchorText_append text
  have parts : (ofText text).parts = (ofText rest).parts := by simp only [ofText, named]
  have joined : (anchorText (anchorOf text) ++ ['/'].intercalate (ofText text).parts).Sublist text := by
    conv_rhs => rw [whole]
    rw [parts]
    exact (intercalate_ofText_sublist rest).append_left _
  unfold toText
  split
  · next empty =>
      obtain ⟨current, unnamed⟩ := Path.mk.inj empty
      exact List.singleton_sublist.mpr (point_mem nonempty current unnamed)
  · next whole =>
      obtain ⟨rfl, rfl⟩ := Path.mk.inj whole
      exact joined

/-- A text without names is made of slashes, by induction over the text. -/
theorem eq_slash_of_names_eq_nil {text : Text} (unnamed : names text = []) {c : Char}
    (member : c ∈ text)
    : c = '/' := by
  induction text with
  | nil => cases member
  | cons first rest ih =>
      by_cases slash : first = '/'
      · rw [slash, names_slash_cons] at unnamed
        rcases List.mem_cons.mp member with rfl | later
        · exact slash
        · exact ih unnamed later
      · obtain ⟨piece, others, whole⟩ :=
          List.exists_cons_of_ne_nil (List.splitOn_ne_nil '/' rest)
        simp [names, List.splitOn_cons_eq_if_modifyHead, slash, whole] at unnamed

end Path

namespace FileTree

--------------------------------------------------------------------------------
-- Where the text of a path leads
--------------------------------------------------------------------------------

/-- A way leads to the same place without the names that lead nowhere, by induction over it. -/
theorem walk_filter {tree : FileTree} {place goal : Place} {names : List Text}
    (found : tree.walk place names = .ok goal)
    : tree.walk place (names.filter (· ≠ Path.same)) = .ok goal := by
  induction names generalizing place with
  | nil => exact found
  | cons name names ih =>
      obtain ⟨directory, short, rest⟩ := walk_cons_iff.mp found
      by_cases stays : name = Path.same
      · rw [stays, step, if_pos rfl] at rest
        simpa [stays] using ih rest
      · rw [List.filter_cons_of_pos (by simpa using stays)]
        exact walk_cons_iff.mpr ⟨directory, short, ih rest⟩

/-- The text of a path leads through some name, if only that of the directory itself. -/
theorem route_ne_nil {text : Text} (nonempty : text ≠ []) : route text ≠ [] := by
  unfold route
  split
  · simp
  · next named =>
      intro unnamed
      have last := List.getLast_mem nonempty
      rw [List.getLast?_eq_some_getLast nonempty, Option.some.injEq] at named
      exact named (Path.eq_slash_of_names_eq_nil unnamed last)

theorem filter_route (text : Text)
    : (route text).filter (· ≠ Path.same) = (Path.ofText text).parts := by
  unfold route
  split <;> simp [Path.ofText]

theorem start_eq_origin (tree : FileTree) (text : Text)
    : tree.start text = tree.origin (Path.anchorOf text) := by
  unfold start origin
  by_cases rooted : text.head? = some '/'
  · rw [if_pos rooted, if_neg fun current => Path.anchorOf_eq_current_iff.mp current rooted]
  · rw [if_neg rooted, if_pos (Path.anchorOf_eq_current_iff.mpr rooted)]

/-- A text that leaves out characters of another one can be looked for if that one can. -/
theorem Fits.of_sublist {text shorter : Text} (fits : Fits text) (fewer : shorter.Sublist text)
    : Fits shorter := by
  have length : (Utf8.encode shorter).length ≤ (Utf8.encode text).length :=
    (fewer.flatMap Utf8.encodeChar).length_le
  exact ⟨fun member => fits.1 (fewer.subset member), Nat.le_trans length fits.2⟩

/-- Where a text leads, the text of the path that it means leads as well. -/
theorem locate_ofText {tree : FileTree} {text : Text} {place : Place}
    (found : tree.locate text = .ok place)
    : tree.locate (Path.ofText text).toText = .ok place := by
  obtain ⟨fits, nonempty, way⟩ := locate_eq_ok_iff.mp found
  refine (locate_toText_iff (Path.ofText_normal text)).mpr
    ⟨fits.of_sublist (Path.toText_ofText_sublist nonempty), ?_⟩
  rw [start_eq_origin] at way
  have direct := walk_filter way
  rw [filter_route] at direct
  unfold Path.steps
  split
  · next unnamed =>
      -- Some name has been followed, so the way begins in a directory.
      obtain ⟨name, names, whole⟩ := List.exists_cons_of_ne_nil (route_ne_nil nonempty)
      rw [whole] at way
      rw [unnamed] at direct
      refine walk_cons_iff.mpr ⟨(walk_cons_iff.mp way).1, by decide, ?_⟩
      rwa [step, if_pos rfl]
  · exact direct

/-- A file that a text leads to is read under the text of the path as well. -/
theorem read_ofText {tree : FileTree} {text : Text} {octets : Bytes}
    (held : tree.read text = .ok octets)
    : tree.read (Path.ofText text).toText = .ok octets := by
  obtain ⟨place, located, found⟩ := read_eq_ok_iff.mp held
  exact read_eq_ok_iff.mpr ⟨place, locate_ofText located, found⟩

end FileTree

end OpcodeTables
