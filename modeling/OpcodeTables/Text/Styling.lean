import OpcodeTables.Text.Basic

/-!
Control sequences that style text on a terminal. A sequence is an escape character, an opening
bracket, any number of digits, semicolons and question marks, and a letter. What a run says is not
meant to be styled by the names in it, so complete sequences are left out.
-/

namespace OpcodeTables.Text

/-- The character that opens a control sequence. -/
def escapeCharacter : Char := '\x1b'

/-- The start of a control sequence, given last character first, goes on with a character. -/
def styleGoesOn (held : Text) (c : Char) : Bool :=
  match held with
  | [] => false
  | [_] => c = '['
  | _ :: _ :: _ => c.isDigit || c = ';' || c = '?'

/-- The start of a control sequence, given last character first, ends with a character. -/
def styleEnds (held : Text) (c : Char) : Bool :=
  match held with
  | _ :: _ :: _ => c.isAlpha
  | _ => false

/-- Leaves out the control sequences in what follows the start of one. -/
def withoutStylingFrom (held : Text) : Text → Text
  | [] => held.reverse
  | c :: rest =>
    if styleGoesOn held c then withoutStylingFrom (c :: held) rest
    else if styleEnds held c then withoutStylingFrom [] rest
    else if c = escapeCharacter then held.reverse ++ withoutStylingFrom [c] rest
    else held.reverse ++ c :: withoutStylingFrom [] rest

/-- The text without its control sequences. -/
def withoutStyling (text : Text) : Text :=
  withoutStylingFrom [] text

end OpcodeTables.Text
