import Microcode.Text.Blank
import Microcode.Text.Hex
/-!
# Hexadecimal Digits

Reading back the bytes that were written.

A byte is written as two upper-case digits and read by a reader that would take much more, so
one direction is all that holds: what is written reads as the same number. Digits are no blanks
and none of the characters that mean something in a listing, which is what keeps a column of
digits in one piece.

## Theorems

* `toNat_of_isHexDigit`: Where the digits lie among the characters.
* `isBlank_of_isHexDigit`: A digit is no blank.
* `isHexDigit_hexDigit`: What is written for a value is a digit.
* `isHexDigit_hexByte`: What is written for a byte is digits.
* `readHexByte?_pair`: Two digits read as the number that they stand for.
* `readHexByte?_hexByte`: A byte that was written reads as that byte.
-/

namespace Microcode

namespace Text

-- The digits lie in three runs, for 0 to 9, A to F and a to f.
theorem toNat_of_isHexDigit (c : Char) (h : isHexDigit c = true) :
    (48 ≤ c.toNat ∧ c.toNat ≤ 57) ∨ (65 ≤ c.toNat ∧ c.toNat ≤ 70) ∨
      (97 ≤ c.toNat ∧ c.toNat ≤ 102) := by
  unfold isHexDigit hexValue? at h
  simp only [] at h
  split at h
  · exact Or.inl ‹_›
  · split at h
    · exact Or.inr (Or.inl ‹_›)
    · split at h
      · exact Or.inr (Or.inr ‹_›)
      · cases h

theorem isBlank_of_isHexDigit (c : Char) (h : isHexDigit c = true) : isBlank c = false := by
  have hc := toNat_of_isHexDigit c h
  simp only [isBlank, Bool.or_eq_false_iff, Bool.and_eq_false_iff, decide_eq_false_iff_not,
    beq_eq_false_iff_ne]
  omega

theorem isHexDigit_hexDigit : ∀ n, n < 16 → isHexDigit (hexDigit n) = true := by
  decide

/-- The digits of a byte are digits. -/
theorem isHexDigit_hexByte (b : UInt8) (c : Char) (hc : c ∈ (hexByte b).toList) :
    isHexDigit c = true := by
  have hb := b.toNat_lt
  rw [hexByte, String.toList_ofList, List.mem_cons, List.mem_singleton] at hc
  rcases hc with rfl | rfl
  · exact isHexDigit_hexDigit _ (by omega)
  · exact isHexDigit_hexDigit _ (by omega)

/-- Two digits read as the number that they stand for. -/
theorem readHexByte?_pair : ∀ a, a < 16 → ∀ b, b < 16 →
    readHexByte? [hexDigit a, hexDigit b] = some (UInt8.ofNat (16 * a + b)) := by
  decide

/-- A byte that was written reads as that byte. -/
theorem readHexByte?_hexByte (b : UInt8) : readHexByte? (hexByte b).toList = some b := by
  have hb := b.toNat_lt
  have hsplit : 16 * (b.toNat / 16) + b.toNat % 16 = b.toNat := by omega
  rw [hexByte, String.toList_ofList, readHexByte?_pair _ (by omega) _ (by omega), hsplit,
    UInt8.ofNat_toNat]

end Text

end Microcode
