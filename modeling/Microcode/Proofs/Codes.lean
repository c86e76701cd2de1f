import Microcode.MicroWord
import Microcode.Proofs.Text.Digits
/-!
# Codes That Fit

A code fits in its field if it is at most fifteen, and a word whose four codes fit is `Narrow`.

Two codes share a byte, and the byte is where a listing and the program meet: the printer
writes the digits of two codes side by side, and the assembler takes the byte that they spell
apart again. `nibbles_pair` is the round trip between the two.

## Main definitions

* `MicroWord.Narrow`: The codes of a word fit in four bits.
* `MicroWord.bare`: A word without what it remembers for the listing.
* `MicroWord.pairByte`: The byte of two codes.
* `MicroWord.pairText`: The digits of two codes.

## Theorems

* `ofCodes_eq_ok_iff`: Codes form a word if they fit.
* `nibbles_le`, `toNat_nibbles`: The two halves of a byte fit, and are quotient and remainder.
* `ofCodes_nibbles`: Two bytes always form a word.
* `nibbles_pair`: The byte of two codes has the codes for its halves.
* `isHexDigit_pairText`: The digits of two codes are digits.
* `text_of_narrow`: The columns of a word whose codes fit.
-/

namespace Microcode

namespace MicroWord

/-- The codes of a word fit in four bits. -/
structure Narrow (w : MicroWord) : Prop where
  write : w.write ≤ 0xF
  read : w.read ≤ 0xF
  alu : w.alu ≤ 0xF
  jump : w.jump ≤ 0xF

instance (w : MicroWord) : Decidable w.Narrow :=
  decidable_of_iff (w.write ≤ 0xF ∧ w.read ≤ 0xF ∧ w.alu ≤ 0xF ∧ w.jump ≤ 0xF)
    ⟨fun h => ⟨h.1, h.2.1, h.2.2.1, h.2.2.2⟩, fun h => ⟨h.write, h.read, h.alu, h.jump⟩⟩

/-- A word without its label and its address. -/
def bare (w : MicroWord) : MicroWord :=
  { w with label := none, address := none }

/-- Codes form a word if they fit, and it has neither a label nor an address. -/
theorem ofCodes_eq_ok_iff (write read alu jump jumpAddress : UInt8) (w : MicroWord) :
    ofCodes write read alu jump jumpAddress = .ok w ↔
      w = { write, read, alu, jump, jumpAddress } ∧ w.Narrow := by
  unfold ofCodes
  constructor
  · intro h
    cases hfind : [("write", write), ("read", read), ("alu", alu), ("jump", jump)].find?
        (fun entry => decide (0xF < entry.2)) with
    | some entry => simp only [hfind, reduceCtorEq] at h
    | none =>
        simp only [hfind, Except.ok.injEq] at h
        simp only [List.find?_eq_none, List.mem_cons, List.not_mem_nil, or_false,
          forall_eq_or_imp, forall_eq, decide_eq_true_eq, UInt8.not_lt] at hfind
        rw [← h]
        exact ⟨rfl, hfind.1, hfind.2.1, hfind.2.2.1, hfind.2.2.2⟩
  · rintro ⟨rfl, hw⟩
    have hfind : [("write", write), ("read", read), ("alu", alu), ("jump", jump)].find?
        (fun entry => decide (0xF < entry.2)) = none := by
      simp only [List.find?_eq_none, List.mem_cons, List.not_mem_nil, or_false,
        forall_eq_or_imp, forall_eq, decide_eq_true_eq, UInt8.not_lt]
      exact ⟨hw.write, hw.read, hw.alu, hw.jump⟩
    simp only [hfind]

-- The two halves of a byte fit.
theorem nibbles_le (b : UInt8) : b >>> 4 ≤ 0xF ∧ b &&& 0xF ≤ 0xF := by
  have hb := b.toNat_lt
  rw [UInt8.le_iff_toNat_le, UInt8.le_iff_toNat_le, UInt8.toNat_shiftRight, UInt8.toNat_and]
  refine ⟨?_, Nat.and_le_right⟩
  change b.toNat >>> 4 ≤ 15
  rw [Nat.shiftRight_eq_div_pow]
  omega

-- The two halves of a byte as numbers.
theorem toNat_nibbles (b : UInt8) :
    (b >>> 4).toNat = b.toNat / 16 ∧ (b &&& 0xF).toNat = b.toNat % 16 :=
  ⟨Nat.shiftRight_eq_div_pow b.toNat 4, Nat.and_two_pow_sub_one_eq_mod b.toNat 4⟩

/-- Two bytes always form a word. -/
theorem ofCodes_nibbles (hi mid jumpAddress : UInt8) :
    ofCodes (hi >>> 4) (hi &&& 0xF) (mid >>> 4) (mid &&& 0xF) jumpAddress =
      .ok { write := hi >>> 4, read := hi &&& 0xF, alu := mid >>> 4, jump := mid &&& 0xF,
            jumpAddress } := by
  rw [ofCodes_eq_ok_iff]
  exact ⟨rfl, (nibbles_le hi).1, (nibbles_le hi).2, (nibbles_le mid).1, (nibbles_le mid).2⟩

/-- The byte of two codes, which the digits of the codes spell. -/
def pairByte (a b : UInt8) : UInt8 :=
  UInt8.ofNat (16 * a.toNat + b.toNat)

/-- The byte of two codes has the codes for its halves. -/
theorem nibbles_pair (a b : UInt8) (ha : a ≤ 0xF) (hb : b ≤ 0xF) :
    pairByte a b >>> 4 = a ∧ pairByte a b &&& 0xF = b := by
  -- There are sixteen times sixteen pairs, and each is a computation.
  have hpair : ∀ m, m < 16 → ∀ n, n < 16 →
      UInt8.ofNat (16 * m + n) >>> 4 = UInt8.ofNat m ∧
        UInt8.ofNat (16 * m + n) &&& 0xF = UInt8.ofNat n := by decide
  have hab := hpair a.toNat (Nat.lt_succ_of_le (UInt8.le_iff_toNat_le.mp ha)) b.toNat
    (Nat.lt_succ_of_le (UInt8.le_iff_toNat_le.mp hb))
  rw [UInt8.ofNat_toNat, UInt8.ofNat_toNat] at hab
  exact hab

/-- The digits of two codes side by side. -/
def pairText (a b : UInt8) : List Char :=
  [Text.hexDigit a.toNat, Text.hexDigit b.toNat]

/-- The digits of two codes are digits. -/
theorem isHexDigit_pairText (a b : UInt8) (ha : a ≤ 0xF) (hb : b ≤ 0xF) (c : Char)
    (hc : c ∈ pairText a b) : Text.isHexDigit c = true := by
  rw [pairText, List.mem_cons, List.mem_singleton] at hc
  rcases hc with rfl | rfl
  · exact Text.isHexDigit_hexDigit _ (Nat.lt_succ_of_le (UInt8.le_iff_toNat_le.mp ha))
  · exact Text.isHexDigit_hexDigit _ (Nat.lt_succ_of_le (UInt8.le_iff_toNat_le.mp hb))

/-- The columns of a word whose codes fit: two digits each, and a blank between them. -/
theorem text_of_narrow (w : MicroWord) (h : w.Narrow) :
    w.text.toList = pairText w.write w.read ++ ' ' :: (pairText w.alu w.jump ++
      ' ' :: (Text.hexByte w.jumpAddress).toList) := by
  have hcode : ∀ c : UInt8, c ≤ 0xF → Text.hexCode c = String.ofList [Text.hexDigit c.toNat] := by
    intro c hc
    exact if_pos (Nat.lt_succ_of_le (UInt8.le_iff_toNat_le.mp hc))
  rw [text, hcode w.write h.write, hcode w.read h.read, hcode w.alu h.alu, hcode w.jump h.jump]
  simp only [String.toList_append, String.toList_ofList]
  rfl

end MicroWord

end Microcode
