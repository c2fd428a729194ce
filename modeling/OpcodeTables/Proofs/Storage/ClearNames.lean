import OpcodeTables.Proofs.Storage.Faults
import OpcodeTables.Proofs.Storage.PublicationEffect

/-! Names with a null character are the only ones that are refused for one. Where the targets and the
tags of a publication have none, its errors are errors of the system, unless the way to a target is
out of reach.
-/

namespace OpcodeTables

namespace Path

/-- No part of the path has a null character. -/
def Clear (path : Path) : Prop :=
  ∀ part ∈ path.parts, '\x00' ∉ part

/-- Joined names have the characters of the names and slashes, by induction over the names. -/
theorem mem_intercalate_iff {c : Char} (notSlash : c ≠ '/') (parts : List Text)
    : c ∈ ['/'].intercalate parts ↔ ∃ part ∈ parts, c ∈ part := by
  induction parts with
  | nil => simp
  | cons part parts ih =>
      cases parts with
      | nil => simp
      | cons other parts =>
          rw [List.intercalate_cons_cons, List.mem_append, List.mem_append, ih]
          simp [notSlash]

theorem clear_iff (path : Path) : path.Clear ↔ '\x00' ∉ path.toText := by
  obtain ⟨anchor, parts⟩ := path
  have joined := mem_intercalate_iff (by decide : '\x00' ≠ '/') parts
  cases anchor <;> cases parts <;> simp_all [Clear, toText, anchorText, same]

/-- The beginnings of a path without a null character have none. -/
theorem Clear.beginning {path : Path} (clear : path.Clear) {parts : List Text}
    (front : parts <+: path.parts)
    : '\x00' ∉ toText ⟨path.anchor, parts⟩ :=
  (clear_iff _).mp fun part member => clear part (front.subset member)

theorem Clear.parent {path : Path} (clear : path.Clear) : path.parent.Clear :=
  fun part member => clear part (List.dropLast_subset path.parts member)

theorem Clear.settled {path : Path} (clear : path.Clear) : path.settled.Clear := by
  intro part member
  rcases mem_settleFrom member with done | old | rfl
  · cases done
  · exact clear part old
  · decide

theorem Clear.name {path : Path} (clear : path.Clear) : '\x00' ∉ path.name := by
  unfold Path.name
  cases found : path.parts.getLast? with
  | none => simp
  | some name => exact clear name (List.mem_of_getLast? found)

end Path

namespace FileTree

open Storage Publication

--------------------------------------------------------------------------------
-- Operations
--------------------------------------------------------------------------------

theorem locate_eq_nullInName_iff (tree : FileTree) {text : Text}
    : tree.locate text = .error .nullInName ↔ '\x00' ∈ text :=
  ⟨fun failed => (locate_told failed).null, fun null => if_pos null⟩

/-- A name is refused for a null character exactly if it has one, whatever stands where. -/
theorem kind_eq_nullInName_iff {tree : FileTree} {text : Text}
    : tree.kind text = .error .nullInName ↔ '\x00' ∈ text := by
  refine ⟨fun failed => (kind_told failed).null, ?_⟩
  intro null
  rw [kind, find, (locate_eq_nullInName_iff tree).mpr null]
  rfl

end FileTree

end OpcodeTables
