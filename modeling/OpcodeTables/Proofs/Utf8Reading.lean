import Mathlib.Algebra.Group.Nat.Defs
import OpcodeTables.Traced
import OpcodeTables.Utf8

/-! Octets are read as a text exactly if they are the ones that the text is written as. So a text
has one written form, and whatever else a file holds is refused.
-/

namespace OpcodeTables.Utf8

--------------------------------------------------------------------------------
-- The octets of a character
--------------------------------------------------------------------------------

/-- The octets behind the first one, for the lowest groups of six bits of a number. -/
def tails : Nat → Nat → Bytes
  | 0, _ => []
  | count + 1, n => tail (n / 0x40 ^ count) :: tails count n

theorem eq_tail_iff {octet : UInt8} {n : Nat}
    : octet = tail n ↔ octet.toNat = 0x80 + n % 0x40 := by
  rw [← UInt8.toNat_inj, tail, UInt8.toNat_ofNat', Nat.mod_eq_of_lt (by omega)]

theorem ofNat_eq_iff {octet : UInt8} {n : Nat} (small : n < 0x100)
    : UInt8.ofNat n = octet ↔ n = octet.toNat := by
  rw [← UInt8.toNat_inj, UInt8.toNat_ofNat', Nat.mod_eq_of_lt small]

theorem toNat_ofNat {n : Nat} (valid : n.isValidChar) : (Char.ofNat n).toNat = n := by
  rw [Char.ofNat, dif_pos valid]
  rfl

theorem encodeChar_eq (c : Char)
    : encodeChar c =
      if c.toNat < 0x80 then [UInt8.ofNat c.toNat]
      else if c.toNat < 0x800 then UInt8.ofNat (0xC0 + c.toNat / 0x40) :: tails 1 c.toNat
      else if c.toNat < 0x10000 then UInt8.ofNat (0xE0 + c.toNat / 0x1000) :: tails 2 c.toNat
      else UInt8.ofNat (0xF0 + c.toNat / 0x40000) :: tails 3 c.toNat := by
  simp [encodeChar, tails]

theorem encodeChar_ne_nil (c : Char) : encodeChar c ≠ [] := by
  rw [encodeChar_eq]
  grind

/-- A number that is written with some octets behind a first one. -/
inductive Wide (octet : UInt8) (n : Nat) : Nat → Prop
  | two (least : 0x80 ≤ n) (most : n < 0x800) (head : octet.toNat = 0xC0 + n / 0x40)
    : Wide octet n 1
  | three (least : 0x800 ≤ n) (most : n < 0x10000) (head : octet.toNat = 0xE0 + n / 0x1000)
    : Wide octet n 2
  | four (least : 0x10000 ≤ n) (most : n < 0x110000) (head : octet.toNat = 0xF0 + n / 0x40000)
    : Wide octet n 3

theorem Wide.encodeChar_eq {octet : UInt8} {c : Char} {count : Nat}
    (wide : Wide octet c.toNat count)
    : encodeChar c = octet :: tails count c.toNat := by
  rw [Utf8.encodeChar_eq]
  cases wide with
  | two least most head =>
      rw [if_neg (by omega), if_pos most, List.cons.injEq, ofNat_eq_iff (by omega)]
      exact ⟨head.symm, rfl⟩
  | three least most head =>
      rw [if_neg (by omega), if_neg (by omega), if_pos most, List.cons.injEq,
        ofNat_eq_iff (by omega)]
      exact ⟨head.symm, rfl⟩
  | four least most head =>
      rw [if_neg (by omega), if_neg (by omega), if_neg (by omega), List.cons.injEq,
        ofNat_eq_iff (by omega)]
      exact ⟨head.symm, rfl⟩

theorem exists_wide {c : Char} (long : 0x80 ≤ c.toNat)
    : ∃ octet count, Wide octet c.toNat (count + 1) := by
  have valid : c.toNat < 0x110000 := by
    rcases c.valid with low | high
    · exact Nat.lt_trans low (by decide)
    · exact high.2
  by_cases two : c.toNat < 0x800
  · exact ⟨UInt8.ofNat (0xC0 + c.toNat / 0x40), 0,
      .two long two ((ofNat_eq_iff (by omega)).mp rfl).symm⟩
  · by_cases three : c.toNat < 0x10000
    · exact ⟨UInt8.ofNat (0xE0 + c.toNat / 0x1000), 1,
        .three (by omega) three ((ofNat_eq_iff (by omega)).mp rfl).symm⟩
    · exact ⟨UInt8.ofNat (0xF0 + c.toNat / 0x40000), 2,
        .four (by omega) valid ((ofNat_eq_iff (by omega)).mp rfl).symm⟩

--------------------------------------------------------------------------------
-- A character whose first octets have been read
--------------------------------------------------------------------------------

/-- What is still missing are octets that continue a character. -/
structure Pending.Tailing (pending : Pending) : Prop where
  waiting : 0 < pending.missing
  low : 0x80 ≤ pending.low
  high : pending.high ≤ 0xBF

/-- A number that begins with what has been read and whose next group of bits is admitted, where
`count` more groups follow.
-/
structure Pending.Completes (pending : Pending) (count n : Nat) : Prop where
  code : n / 0x40 ^ (count + 1) = pending.code
  low : pending.low ≤ 0x80 + n / 0x40 ^ count % 0x40
  high : 0x80 + n / 0x40 ^ count % 0x40 ≤ pending.high

/-- The character once one more octet has been read. -/
def Pending.grown (pending : Pending) (octet : UInt8) : Pending :=
  { pending with
    code := pending.code * 0x40 + octet.toNat % 0x40
    missing := pending.missing - 1
    low := 0x80
    high := 0xBF }

theorem Pending.completes_zero_iff {pending : Pending} (tailing : pending.Tailing)
    {octet : UInt8} {n : Nat}
    : pending.Completes 0 n ∧ octet = tail n
      ↔ (pending.low ≤ octet.toNat ∧ octet.toNat ≤ pending.high)
        ∧ n = (pending.grown octet).code := by
  obtain ⟨_, least, greatest⟩ := tailing
  rw [eq_tail_iff]
  constructor
  · intro ⟨⟨code, low, high⟩, value⟩
    simp only [Nat.pow_zero, Nat.div_one, Nat.zero_add, Nat.pow_one] at code low high
    simp only [grown]
    omega
  · intro ⟨⟨low, high⟩, number⟩
    simp only [grown] at number
    refine ⟨⟨?_, ?_, ?_⟩, ?_⟩ <;> omega

theorem Pending.completes_succ_iff {pending : Pending} (tailing : pending.Tailing)
    {octet : UInt8} {count n : Nat}
    : pending.Completes (count + 1) n ∧ octet = tail (n / 0x40 ^ (count + 1))
      ↔ (pending.low ≤ octet.toNat ∧ octet.toNat ≤ pending.high)
        ∧ (pending.grown octet).Completes count n := by
  obtain ⟨_, least, greatest⟩ := tailing
  have up : n / 0x40 ^ (count + 1 + 1) = n / 0x40 ^ (count + 1) / 0x40 := by
    rw [Nat.div_div_eq_div_mul, ← Nat.pow_succ]
  rw [eq_tail_iff]
  constructor
  · intro ⟨⟨code, low, high⟩, value⟩
    refine ⟨by omega, ⟨?_, ?_, ?_⟩⟩ <;> simp only [grown] <;> omega
  · intro ⟨⟨low, high⟩, ⟨code, _, _⟩⟩
    simp only [grown] at code
    refine ⟨⟨?_, ?_, ?_⟩, ?_⟩ <;> omega

theorem decodeFrom_some_cons_iff {pending : Pending} {octet : UInt8} {octets : Bytes}
    {text : Text} {position : Nat}
    : decodeFrom position (some pending) (octet :: octets) = .ok text
      ↔ (pending.low ≤ octet.toNat ∧ octet.toNat ≤ pending.high)
        ∧ if pending.missing ≤ 1 then
            ∃ later,
              decodeFrom (position + 1) none octets = .ok later
              ∧ text = Char.ofNat (pending.grown octet).code :: later
          else decodeFrom (position + 1) (some (pending.grown octet)) octets = .ok text := by
  by_cases outside : octet.toNat < pending.low ∨ pending.high < octet.toNat
  · simp only [decodeFrom, step, Pending.continueAt, if_pos outside, reduceCtorEq, false_iff]
    omega
  · have within : pending.low ≤ octet.toNat ∧ octet.toNat ≤ pending.high := by omega
    by_cases last : pending.missing ≤ 1
    · simp [decodeFrom, step, Pending.continueAt, outside, within, last, map_eq_ok_iff,
        Pending.grown, eq_comm (a := text)]
    · simp [decodeFrom, step, Pending.continueAt, outside, within, last, Pending.grown]

/-- A character in the making is completed by the octets of a number that it can stand for, by
induction over the octets that are missing.
-/
theorem decodeFrom_some_iff {count : Nat} {pending : Pending}
    (missing : pending.missing = count + 1) (tailing : pending.Tailing)
    {octets : Bytes} {text : Text} (position : Nat)
    : decodeFrom position (some pending) octets = .ok text
      ↔ ∃ n rest later,
          pending.Completes count n
          ∧ octets = tails (count + 1) n ++ rest
          ∧ decodeFrom (position + (count + 1)) none rest = .ok later
          ∧ text = Char.ofNat n :: later := by
  induction count generalizing pending octets position with
  | zero =>
      cases octets with
      | nil => simp [decodeFrom, tails]
      | cons octet octets =>
          rw [decodeFrom_some_cons_iff, if_pos (by omega)]
          simp only [tails, List.cons_append, List.cons.injEq, Nat.pow_zero, Nat.div_one,
            List.nil_append]
          constructor
          · intro ⟨within, later, decoded, whole⟩
            obtain ⟨completes, here⟩ := (Pending.completes_zero_iff tailing).mpr ⟨within, rfl⟩
            exact ⟨_, octets, later, completes, ⟨here, rfl⟩, decoded, whole⟩
          · intro ⟨n, rest, later, completes, ⟨here, same⟩, decoded, whole⟩
            obtain ⟨within, number⟩ := (Pending.completes_zero_iff tailing).mp ⟨completes, here⟩
            exact ⟨within, later, same ▸ decoded, number ▸ whole⟩
  | succ count ih =>
      cases octets with
      | nil => simp [decodeFrom, tails]
      | cons octet octets =>
          have fewer : (pending.grown octet).missing = count + 1 := by
            simp [Pending.grown, missing]
          have split (n : Nat)
              : tails (count + 1 + 1) n = tail (n / 0x40 ^ (count + 1)) :: tails (count + 1) n :=
            rfl
          rw [decodeFrom_some_cons_iff, if_neg (by omega),
            ih fewer ⟨by omega, Nat.le_refl _, Nat.le_refl _⟩]
          simp only [split, List.cons_append, List.cons.injEq, Nat.add_assoc, Nat.add_comm 1]
          constructor
          · intro ⟨within, n, rest, later, completes, others, decoded, whole⟩
            obtain ⟨completes, here⟩ := (Pending.completes_succ_iff tailing).mpr ⟨within, completes⟩
            exact ⟨n, rest, later, completes, ⟨here, others⟩, decoded, whole⟩
          · intro ⟨n, rest, later, completes, ⟨here, others⟩, decoded, whole⟩
            obtain ⟨within, completes⟩ := (Pending.completes_succ_iff tailing).mp ⟨completes, here⟩
            exact ⟨within, n, rest, later, completes, others, decoded, whole⟩

--------------------------------------------------------------------------------
-- The first octet of a character
--------------------------------------------------------------------------------

/-- First octets, sorted by the number of octets behind them. -/
theorem startAt_eq (position : Nat) (octet : UInt8)
    : startAt position octet =
      let n := octet.toNat
      if n < 0x80 then .character (Char.ofNat n)
      else if n < 0xC2 then .refused ⟨position, position, octet, .invalidStart⟩
      else if n < 0xE0 then .more ⟨position, octet, n - 0xC0, 1, 0x80, 0xBF⟩
      else if n < 0xF0 then
        .more ⟨position, octet, n - 0xE0, 2,
          if n = 0xE0 then 0xA0 else 0x80, if n = 0xED then 0x9F else 0xBF⟩
      else if n < 0xF5 then
        .more ⟨position, octet, n - 0xF0, 3,
          if n = 0xF0 then 0x90 else 0x80, if n = 0xF4 then 0x8F else 0xBF⟩
      else .refused ⟨position, position, octet, .invalidStart⟩ := by
  unfold startAt
  grind

theorem startAt_character_iff {position : Nat} {octet : UInt8} {c : Char}
    : startAt position octet = .character c
      ↔ octet.toNat < 0x80 ∧ Char.ofNat octet.toNat = c := by
  rw [startAt_eq]
  grind

theorem startAt_tailing {position : Nat} {octet : UInt8} {pending : Pending}
    (started : startAt position octet = .more pending)
    : pending.Tailing := by
  rw [startAt_eq] at started
  grind [Pending.Tailing]

/-- The bounds on the second octet leave only numbers of characters, and only those that are not
written with fewer octets.
-/
theorem wide_of_startAt {position count n : Nat} {octet : UInt8} {pending : Pending}
    (started : startAt position octet = .more pending) (missing : pending.missing = count + 1)
    (completes : pending.Completes count n)
    : n.isValidChar ∧ Wide octet n (count + 1) := by
  obtain ⟨code, low, high⟩ := completes
  rw [startAt_eq] at started
  grind [Wide]

/-- The bounds on the second octet leave all of them. -/
theorem Wide.exists_startAt {count n : Nat} {octet : UInt8} (valid : n.isValidChar)
    (wide : Wide octet n (count + 1)) (position : Nat)
    : ∃ pending,
        startAt position octet = .more pending
        ∧ pending.missing = count + 1
        ∧ pending.Completes count n := by
  rw [startAt_eq]
  generalize whole : count + 1 = following at wide
  cases wide with
  | two least most head =>
      obtain rfl : count = 0 := by omega
      refine ⟨_, by rw [if_neg (by omega), if_neg (by omega), if_pos (by omega)], rfl, ?_⟩
      constructor <;> grind
  | three least most head =>
      obtain rfl : count = 1 := by omega
      refine ⟨_, by rw [if_neg (by omega), if_neg (by omega), if_neg (by omega), if_pos (by omega)],
        rfl, ?_⟩
      constructor <;> grind
  | four least most head =>
      obtain rfl : count = 2 := by omega
      refine ⟨_, by rw [if_neg (by omega), if_neg (by omega), if_neg (by omega), if_neg (by omega),
        if_pos (by omega)], rfl, ?_⟩
      constructor <;> grind

--------------------------------------------------------------------------------
-- Whole texts
--------------------------------------------------------------------------------

theorem decodeFrom_encodeChar {c : Char} {rest : Bytes} {later : Text}
    (decoded : ∀ next, decodeFrom next none rest = .ok later) (position : Nat)
    : decodeFrom position none (encodeChar c ++ rest) = .ok (c :: later) := by
  by_cases short : c.toNat < 0x80
  · have value : (UInt8.ofNat c.toNat).toNat = c.toNat := ((ofNat_eq_iff (by omega)).mp rfl).symm
    rw [encodeChar_eq, if_pos short, List.cons_append, List.nil_append, decodeFrom, step,
      startAt_eq]
    simp [value, short, decoded, Except.map, Char.ofNat_toNat]
  · obtain ⟨octet, count, wide⟩ := exists_wide (Nat.le_of_not_lt short)
    obtain ⟨pending, started, missing, completes⟩ := wide.exists_startAt c.valid position
    have tailing := startAt_tailing started
    rw [wide.encodeChar_eq, List.cons_append, decodeFrom, step, started]
    apply (decodeFrom_some_iff missing tailing _).mpr
    exact ⟨c.toNat, rest, later, completes, rfl, decoded _, by rw [Char.ofNat_toNat]⟩

theorem decodeFrom_encode (text : Text) (position : Nat)
    : decodeFrom position none (encode text) = .ok text := by
  induction text generalizing position with
  | nil => rfl
  | cons c text ih => exact decodeFrom_encodeChar ih position

/-- Octets that are read begin with those of a character. -/
theorem exists_of_decodeFrom_cons {position : Nat} {octet : UInt8} {octets : Bytes} {text : Text}
    (decoded : decodeFrom position none (octet :: octets) = .ok text)
    : ∃ c rest later next,
        octet :: octets = encodeChar c ++ rest
        ∧ decodeFrom next none rest = .ok later
        ∧ text = c :: later := by
  rw [decodeFrom, step] at decoded
  cases started : startAt position octet with
  | character c =>
      rw [started] at decoded
      obtain ⟨later, others, whole⟩ := map_eq_ok_iff.mp decoded
      obtain ⟨short, rfl⟩ := startAt_character_iff.mp started
      have valid : octet.toNat.isValidChar := Or.inl (by omega)
      refine ⟨_, octets, later, _, ?_, others, whole.symm⟩
      rw [encodeChar_eq, toNat_ofNat valid, if_pos short]
      simp
  | refused fault => simp [started] at decoded
  | more pending =>
      rw [started] at decoded
      have tailing := startAt_tailing started
      obtain ⟨count, missing⟩ := Nat.exists_eq_add_one_of_ne_zero (Nat.ne_of_gt tailing.waiting)
      obtain ⟨n, rest, later, completes, whole, others, textEq⟩ :=
        (decodeFrom_some_iff missing tailing _).mp decoded
      obtain ⟨valid, wide⟩ := wide_of_startAt started missing completes
      rw [← toNat_ofNat valid] at wide
      refine ⟨Char.ofNat n, rest, later, _, ?_, others, textEq⟩
      rw [wide.encodeChar_eq, toNat_ofNat valid, whole, List.cons_append]

/-- The octets that are read are those of the text, character by character. -/
theorem encode_of_decodeFrom {position : Nat} {octets : Bytes} {text : Text}
    (decoded : decodeFrom position none octets = .ok text)
    : encode text = octets := by
  cases octets with
  | nil =>
      obtain rfl : text = [] := by simpa [decodeFrom, eq_comm] using decoded
      rfl
  | cons octet octets =>
      obtain ⟨c, rest, later, next, whole, others, rfl⟩ := exists_of_decodeFrom_cons decoded
      have shorter : rest.length < (octet :: octets).length := by
        have first := List.length_pos_iff.mpr (encodeChar_ne_nil c)
        rw [whole, List.length_append]
        omega
      rw [whole, encode, List.flatMap_cons, ← encode, encode_of_decodeFrom others]
termination_by octets.length

/-- Reading accepts exactly what writing produces. -/
theorem decode_eq_ok_iff {octets : Bytes} {text : Text}
    : decode octets = .ok text ↔ encode text = octets := by
  constructor
  · exact encode_of_decodeFrom
  · intro written
    rw [← written]
    exact decodeFrom_encode text 0

end OpcodeTables.Utf8
