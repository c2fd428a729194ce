import OpcodeTables.Text.Quoted

/-!
Details are the values that an error carries. Its message is made of them: none makes an empty
message, one is the message, and several are listed.
-/

namespace OpcodeTables

/-- A value that an error carries. -/
inductive Detail where
  | text (value : Text)
  | number (value : Int)
deriving DecidableEq, Repr

namespace Detail

/-- The value as a message of its own. -/
def plain : Detail → Text
  | text value => value
  | number value => Text.decimal value

/-- The value within a message. -/
def shown : Detail → Text
  | text value => Text.quoted value
  | number value => Text.decimal value

/-- Values in parentheses. -/
def listed (details : List Detail) : Text :=
  '(' :: [',', ' '].intercalate (details.map shown) ++ [')']

end Detail

/-- The message of an error that carries some details. -/
def detailMessage : List Detail → Text
  | [] => []
  | [detail] => detail.plain
  | details => Detail.listed details

/-- The message of an error about a missing key, which is quoted where it stands alone. -/
def keyMessage : List Detail → Text
  | [detail] => detail.shown
  | details => detailMessage details

/-- The message of an error from the system: its number, its text and the files concerned. -/
def systemMessage (code text : Detail) (subjects : List Detail) : Text :=
  let opening := "[Errno ".toList ++ code.plain ++ [']', ' '] ++ text.plain
  match subjects with
  | [] => opening
  | _ => opening ++ [':', ' '] ++ " -> ".toList.intercalate (subjects.map Detail.shown)

/-- The message of an error from the system that carries its number, its text and up to two files,
with a value between the files that is not shown.
-/
def systemDetailMessage : List Detail → Text
  | [code, text] => systemMessage code text []
  | [code, text, file] | [code, text, file, _] => systemMessage code text [file]
  | [code, text, file, _, target] => systemMessage code text [file, target]
  | details => detailMessage details

/-- The numbers of the errors from the system that tell to wait and try again. -/
def waitCodes : List Int := [11, 114, 115]

/-- The message of an error from the system whose kind follows from its number. An error that tells
to wait can carry, in the place of a file, how much has been done before; that is not shown.
-/
def systemMessageByCode (details : List Detail) : Text :=
  match details with
  | .number code :: text :: .number done :: rest =>
    if code ∈ waitCodes ∧ rest.length ≤ 2 then systemMessage (.number code) text []
    else systemDetailMessage (.number code :: text :: .number done :: rest)
  | details => systemDetailMessage details

end OpcodeTables
