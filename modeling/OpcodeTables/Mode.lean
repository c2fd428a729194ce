import OpcodeTables.Text.Lowercase

/-!
Immediate modes say which arguments of an instruction are literals. A mode shows in two places of
an instruction: in the first two bits of its opcode and in a tag at the end of its name.
-/

namespace OpcodeTables

/-- The arguments that are literals: the first, the second or both. -/
inductive Mode where
  | first
  | second
  | both
deriving DecidableEq, Repr

namespace Mode

/-- All modes, in the order in which the forms of an instruction are listed. -/
def all : List Mode := [first, second, both]

/-- What the mode adds to the name of an instruction. -/
def tag : Mode → Text
  | first => ['i', '1']
  | second => ['i', '2']
  | both => ['i', '1', '2']

/-- The first two bits of an opcode in this mode. -/
def bits : Mode → Text
  | first => ['1', '0']
  | second => ['0', '1']
  | both => ['1', '1']

/-- The mode with these bits. -/
def ofBits? (text : Text) : Option Mode :=
  all.find? (·.bits == text)

/-- The mode whose tag ends a name, in either case. No tag ends another tag. -/
def ofName? (name : Text) : Option Mode :=
  [both, first, second].find? (·.tag.isSuffixOf (Text.lower name))

end Mode

end OpcodeTables
