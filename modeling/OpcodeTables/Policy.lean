import OpcodeTables.Mode

/-!
Policies say which immediate forms an instruction has. Few instructions depart from having all.
-/

namespace OpcodeTables

/-- The immediate forms that an instruction has. -/
inductive Policy where
  | never
  | firstOnly
  | always
deriving DecidableEq, Repr

namespace Policy

/-- The instructions without arguments and those with a single one. -/
def exceptions : List (Text × Policy) := [
  ("read".toList, never), ("pop".toList, never),
  ("not".toList, firstOnly), ("write".toList, firstOnly), ("push".toList, firstOnly)
]

/-- The policy of an instruction with a name in lowercase letters. -/
def ofName (name : Text) : Policy :=
  (exceptions.lookup name).getD always

/-- The modes that a policy allows, in their usual order. -/
def modes : Policy → List Mode
  | never => []
  | firstOnly => [.first]
  | always => Mode.all

end Policy

end OpcodeTables
