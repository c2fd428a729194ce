/-!
Text is a list of characters, so every rule about a table's text is a rule about lists.
-/

namespace OpcodeTables

/-- Text as its characters in order. -/
abbrev Text := List Char

/-- Octets as a file holds them. -/
abbrev Bytes := List UInt8

namespace Text

/-- Decimal digits, after a minus sign if the number is negative. -/
def decimal : Int → Text
  | .ofNat n => Nat.toDigits 10 n
  | .negSucc n => '-' :: Nat.toDigits 10 (n + 1)

/-- Hexadecimal digits, filled with zeros on the left up to a width. -/
def hexadecimal (width n : Nat) : Text :=
  let digits := Nat.toDigits 16 n
  List.replicate (width - digits.length) '0' ++ digits

/-- Lines with a newline between any two of them and none after the last. -/
def joinLines (lines : List Text) : Text :=
  ['\n'].intercalate lines

/-- A text comes before another one, or is the same, in the order of their code points. -/
def precedes : Text → Text → Bool
  | [], _ => true
  | _ :: _, [] => false
  | c :: rest, d :: other => c.toNat < d.toNat || (c = d && precedes rest other)

/-- The characters of a text in ascending order, each of them once. -/
def distinct (text : Text) : List Char :=
  text.eraseDups.mergeSort (· ≤ ·)

/-- No character of a text is lost, and none is added. -/
theorem mem_distinct {c : Char} {text : Text} : c ∈ distinct text ↔ c ∈ text := by
  simp [distinct, List.mem_mergeSort, List.mem_eraseDups]

/-- No character is left twice, since each one is filtered out of what comes after it. -/
theorem nodup_eraseDups (text : Text) : text.eraseDups.Nodup := by
  induction known : text.length using Nat.strongRecOn generalizing text with
  | ind length ih =>
    cases text with
    | nil => exact List.nodup_nil
    | cons c rest =>
      have shorter : (rest.filter fun d => !d == c).length < length :=
        known ▸ Nat.lt_succ_of_le (List.length_filter_le _ rest)
      rw [List.eraseDups_cons]
      exact List.nodup_cons.mpr ⟨by simp, ih _ shorter _ rfl⟩

/-- The characters are listed in the order of their code points: they are sorted, and no two of them
are the same.
-/
theorem distinct_ascending (text : Text) : (distinct text).Pairwise (· < ·) := by
  have trans (c d e : Char) (first : decide (c ≤ d)) (second : decide (d ≤ e)) : decide (c ≤ e) := by
    simp only [decide_eq_true_eq] at first second ⊢
    exact Char.le_trans first second
  have total (c d : Char) : (decide (c ≤ d) || decide (d ≤ c)) = true := by
    simpa using Char.le_total c d
  have sorted := List.pairwise_mergeSort trans total text.eraseDups
  have once : (distinct text).Nodup :=
    (List.mergeSort_perm _ _).nodup_iff.mpr (nodup_eraseDups text)
  refine (sorted.and once).imp ?_
  intro c d both
  exact Std.lt_of_le_of_ne (decide_eq_true_eq.mp both.1) both.2

end Text

end OpcodeTables
