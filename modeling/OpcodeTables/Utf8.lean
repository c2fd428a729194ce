import OpcodeTables.Text.Basic

/-!
UTF-8 octets of a text. The reader takes one octet after another and stops at the first one that
no character allows, so what it reports is the start of the shortest faulty piece.
-/

namespace OpcodeTables.Utf8

--------------------------------------------------------------------------------
-- Writing
--------------------------------------------------------------------------------

/-- The octet that continues a character with the lowest six bits of a number. -/
def tail (n : Nat) : UInt8 :=
  UInt8.ofNat (0x80 + n % 0x40)

/-- One to four octets for a character. -/
def encodeChar (c : Char) : Bytes :=
  let code := c.toNat
  if code < 0x80 then
    [UInt8.ofNat code]
  else if code < 0x800 then
    [UInt8.ofNat (0xC0 + code / 0x40), tail code]
  else if code < 0x10000 then
    [UInt8.ofNat (0xE0 + code / 0x1000), tail (code / 0x40), tail code]
  else
    [UInt8.ofNat (0xF0 + code / 0x40000), tail (code / 0x1000), tail (code / 0x40), tail code]

def encode (text : Text) : Bytes :=
  text.flatMap encodeChar

--------------------------------------------------------------------------------
-- Reading
--------------------------------------------------------------------------------

/-- What is wrong with a piece of octets. -/
inductive Flaw where
  | invalidStart
  | invalidContinuation
  | unexpectedEnd
deriving DecidableEq, Repr

/-- A piece of octets, from `first` to `last`, that no text is written as. -/
structure Fault where
  first : Nat
  last : Nat
  lead : UInt8
  flaw : Flaw
deriving DecidableEq, Repr

/-- A character whose first octets have been read. The next octet has to lie between `low` and
`high`; the bounds leave out long forms of short characters, surrogates and too large numbers.
-/
structure Pending where
  start : Nat
  lead : UInt8
  code : Nat
  missing : Nat
  low : Nat
  high : Nat

/-- The fault of a character that breaks off before a position. -/
def Pending.fault (pending : Pending) (position : Nat) (flaw : Flaw) : Fault :=
  ⟨pending.start, position - 1, pending.lead, flaw⟩

/-- What one octet leads to. -/
inductive Step where
  | character (c : Char)
  | more (pending : Pending)
  | refused (fault : Fault)

/-- Reads the first octet of a character. -/
def startAt (position : Nat) (octet : UInt8) : Step :=
  let n := octet.toNat
  if n < 0x80 then .character (Char.ofNat n)
  else if n < 0xC2 then .refused ⟨position, position, octet, .invalidStart⟩
  else if n < 0xE0 then .more ⟨position, octet, n - 0xC0, 1, 0x80, 0xBF⟩
  else if n = 0xE0 then .more ⟨position, octet, 0, 2, 0xA0, 0xBF⟩
  else if n = 0xED then .more ⟨position, octet, 0xD, 2, 0x80, 0x9F⟩
  else if n < 0xF0 then .more ⟨position, octet, n - 0xE0, 2, 0x80, 0xBF⟩
  else if n = 0xF0 then .more ⟨position, octet, 0, 3, 0x90, 0xBF⟩
  else if n < 0xF4 then .more ⟨position, octet, n - 0xF0, 3, 0x80, 0xBF⟩
  else if n = 0xF4 then .more ⟨position, octet, 4, 3, 0x80, 0x8F⟩
  else .refused ⟨position, position, octet, .invalidStart⟩

/-- Reads a further octet of a character. -/
def Pending.continueAt (pending : Pending) (position : Nat) (octet : UInt8) : Step :=
  let n := octet.toNat
  let code := pending.code * 0x40 + n % 0x40
  if n < pending.low ∨ pending.high < n then
    .refused (pending.fault position .invalidContinuation)
  else if pending.missing ≤ 1 then
    .character (Char.ofNat code)
  else
    .more { pending with code, missing := pending.missing - 1, low := 0x80, high := 0xBF }

/-- Reads one octet. -/
def step (position : Nat) (octet : UInt8) : Option Pending → Step
  | none => startAt position octet
  | some pending => pending.continueAt position octet

/-- Reads the octets from a position on, after the octets of a character that is not complete. -/
def decodeFrom (position : Nat) (pending : Option Pending) : Bytes → Except Fault Text
  | [] =>
    match pending with
    | none => .ok []
    | some pending => .error (pending.fault position .unexpectedEnd)
  | octet :: rest =>
    match step position octet pending with
    | .character c => (decodeFrom (position + 1) none rest).map (c :: ·)
    | .more pending => decodeFrom (position + 1) (some pending) rest
    | .refused fault => .error fault

/-- The text that the octets are written for. -/
def decode (octets : Bytes) : Except Fault Text :=
  decodeFrom 0 none octets

--------------------------------------------------------------------------------
-- Messages
--------------------------------------------------------------------------------

def Flaw.message : Flaw → String
  | .invalidStart => "invalid start byte"
  | .invalidContinuation => "invalid continuation byte"
  | .unexpectedEnd => "unexpected end of data"

/-- The octets that the fault covers: the value of a single one, or the positions of several. -/
def Fault.piece (fault : Fault) : String :=
  if fault.first = fault.last then
    let digits := String.ofList (Text.hexadecimal 2 fault.lead.toNat)
    s!"byte 0x{digits} in position {fault.first}"
  else
    s!"bytes in position {fault.first}-{fault.last}"

def Fault.message (fault : Fault) : String :=
  s!"'utf-8' codec can't decode {fault.piece}: {fault.flaw.message}"

end OpcodeTables.Utf8
