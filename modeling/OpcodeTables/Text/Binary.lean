import OpcodeTables.Text.Blank
import OpcodeTables.Text.Digit

/-!
Binary numerals. A numeral may have blanks around it, a sign, the mark 0b or 0B with an underscore
after it, and single underscores between its digits; the digits may be those of any script.
-/

namespace OpcodeTables.Text

/-- A blank or a digit of any script as the plain one of ASCII. -/
def plain (c : Char) : Char :=
  if c.toNat < 0x7F then c
  else if isBlank c then ' '
  else
    match digitValue? c with
    | some value => Char.ofNat ('0'.toNat + value)
    | none => c

/-- The blanks of ASCII, without its separator controls. -/
def isPadding (c : Char) : Bool :=
  c = ' ' || inSpans [(0x0009, 0x000D)] c

/-- The text without the padding at its start and at its end. -/
def trimPadding (text : Text) : Text :=
  ((text.dropWhile isPadding).reverse.dropWhile isPadding).reverse

def bit? : Char → Option Nat
  | '0' => some 0
  | '1' => some 1
  | _ => none

/-- Reads digits after digits of a known value. While one is `due`, at the start and after an
underscore, the numeral can neither end nor have another underscore.
-/
def digitsFrom (value : Nat) (due : Bool) : Text → Option Nat
  | [] => if due then none else some value
  | c :: rest =>
    match bit? c with
    | some bit => digitsFrom (2 * value + bit) false rest
    | none => if c = '_' ∧ ¬due then digitsFrom value true rest else none

/-- Reads a numeral without a sign. -/
def magnitude? : Text → Option Nat
  | '0' :: 'b' :: '_' :: rest => digitsFrom 0 true rest
  | '0' :: 'B' :: '_' :: rest => digitsFrom 0 true rest
  | '0' :: 'b' :: rest => digitsFrom 0 true rest
  | '0' :: 'B' :: rest => digitsFrom 0 true rest
  | rest => digitsFrom 0 true rest

/-- Reads a numeral. -/
def binary? (text : Text) : Option Int :=
  match trimPadding (text.map plain) with
  | '-' :: rest => (magnitude? rest).map fun value => -(value : Int)
  | '+' :: rest => (magnitude? rest).map Int.ofNat
  | rest => (magnitude? rest).map Int.ofNat

end OpcodeTables.Text
