import OpcodeTables.Text.Basic

/-!
Tags tell the staging files of a run from all other files.
-/

namespace OpcodeTables

/-- The tags of the two staging files of a run. -/
structure Tags where
  rules : Text
  assembly : Text
deriving DecidableEq, Repr

namespace Tags

def length : Nat := 8

/-- The tag that is a number, filled with zeros on the left. -/
def numbered (n : Nat) : Text :=
  let digits := Nat.toDigits 10 n
  List.replicate (length - digits.length) '0' ++ digits

/-- A name holds a tag somewhere. -/
def occursIn (tag : Text) : Text → Bool
  | [] => tag.isEmpty
  | c :: rest => tag.isPrefixOf (c :: rest) || occursIn tag rest

/-- Two tags that some names do not hold. A name cannot hold more tags than it has characters, so
there are two among the numbers that are tried.
-/
def unusedIn (names : List Text) : Tags :=
  let candidates := (List.range (names.flatten.length + 2)).map numbered
  match candidates.filter fun tag => !names.any (occursIn tag) with
  | rules :: assembly :: _ => ⟨rules, assembly⟩
  | _ => ⟨numbered 0, numbered 1⟩

end Tags

end OpcodeTables
