import OpcodeTables.Text.Lowercase.CaseRun
import OpcodeTables.Text.Lowercase.SigmaContext

/-!
Lowercase text. A letter takes its partner, with two exceptions: the dotted capital i becomes a
small i and a combining dot, and a capital sigma at the end of a word becomes the final sigma.
-/

namespace OpcodeTables.Text

/-- A sigma ends a word if a cased character comes before it and none comes after it. -/
def endsWord (before after : Text) : Bool :=
  meetsCased before && !meetsCased after

/-- The lowercase form of one character among its neighbours, the nearest of them first. -/
def lowerAt (before : Text) (c : Char) (after : Text) : Text :=
  if c = 'Σ' then [if endsWord before after then 'ς' else 'σ']
  else if c = 'İ' then ['i', '\u0307']
  else [lowerLetter c]

/-- The lowercase form of what follows some text, which is given last character first. -/
def lowerFrom (before : Text) : Text → Text
  | [] => []
  | c :: after => lowerAt before c after ++ lowerFrom (c :: before) after

def lower (text : Text) : Text :=
  lowerFrom [] text

end OpcodeTables.Text
