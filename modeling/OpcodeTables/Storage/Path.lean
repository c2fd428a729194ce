import OpcodeTables.Text.Basic

/-!
Paths in normal form. Empty parts and the parts that name the same directory again are left out;
the parts that name the directory above are kept, because what they lead to depends on the files.
-/

namespace OpcodeTables

/-- Where a path starts: in the current directory or at a root. A text that starts with exactly
two slashes starts at a root of its own.
-/
inductive Anchor where
  | current
  | root
  | secondRoot
deriving DecidableEq, Repr

/-- A start and the names on the way from there. -/
structure Path where
  anchor : Anchor
  parts : List Text
deriving DecidableEq, Repr

namespace Path

/-- The name of the directory itself. -/
def same : Text := ['.']

/-- The name of the directory above. -/
def above : Text := ['.', '.']

/-- The names in a text: what stands between its slashes, if anything does. -/
def names (text : Text) : List Text :=
  (text.splitOn '/').filter (· ≠ [])

/-- The start that a text tells by its slashes. -/
def anchorOf (text : Text) : Anchor :=
  match (text.takeWhile (· = '/')).length with
  | 0 => .current
  | 2 => .secondRoot
  | _ => .root

/-- The path that a text means. -/
def ofText (text : Text) : Path :=
  { anchor := anchorOf text, parts := (names text).filter (· ≠ same) }

/-- The text of a start. -/
def anchorText : Anchor → Text
  | .current => []
  | .root => ['/']
  | .secondRoot => ['/', '/']

/-- The text of a path. -/
def toText (path : Path) : Text :=
  match path with
  | ⟨.current, []⟩ => same
  | ⟨anchor, parts⟩ => anchorText anchor ++ ['/'].intercalate parts

/-- The path from another one on; a path that starts at a root stays as it is. -/
def join (base : Path) (text : Text) : Path :=
  let path := ofText text
  match path.anchor with
  | .current => { base with parts := base.parts ++ path.parts }
  | _ => path

/-- The last name of a path, empty if it has none. -/
def name (path : Path) : Text :=
  path.parts.getLast?.getD []

/-- The path without its last name. -/
def parent (path : Path) : Path :=
  { path with parts := path.parts.dropLast }

/-- The way back from the end of some names, which are given last name first. From the current
directory a way can lead further up; from a root it cannot.
-/
def back (anchor : Anchor) (done : List Text) : List Text :=
  match anchor, done with
  | .current, [] => [above]
  | _, [] => []
  | _, last :: rest => if last = above then above :: done else rest

/-- The names on the direct way through all the names, after some that are given last name first. -/
def settleFrom (anchor : Anchor) (done : List Text) : List Text → List Text
  | [] => done.reverse
  | part :: parts =>
    settleFrom anchor (if part = above then back anchor done else part :: done) parts

/-- The path that leads the direct way, without going back where it came from. -/
def settled (path : Path) : Path :=
  { path with parts := settleFrom path.anchor [] path.parts }

end Path

end OpcodeTables
