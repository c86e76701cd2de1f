import Microcode.Alu
/-!
# Flags of a Result

What the flags say about the number that the ALU computed.

The ALU computes a whole number and keeps its low byte. The carry tells that the number did not
fit in a byte, above or below. Of the other three flags exactly one is set: a number above 255
counts as positive, and any other number by its low byte, read as a signed byte. So the flags of
a difference below zero are those of the byte that is left, and the flags of a byte with its
high bit set are negative although the number itself is not.

## Main definitions

* `StatusWord.Describes`: What the flags say about a number.

## Theorems

* `lowByte_toNat`: The low byte is the number modulo 256.
* `ofValue_describes`: The flags of a number describe it.
* `toInt_toInt8`: A byte read as a signed number.
* `ofValue_dataNotAvailable`: The flag that is driven from outside stays.
* `value_congr`: A function that does not read B has the same value for every B.
-/

namespace Microcode

/-- What the flags say about a number whose low byte is `byte`. -/
structure StatusWord.Describes (s : StatusWord) (value : Int) (byte : UInt8) : Prop where
  carry : s.carry = true ↔ value < 0 ∨ 255 < value
  positive : s.positive = true ↔ 255 < value ∨ 0 < byte.toInt8.toInt
  zero : s.zero = true ↔ value ≤ 255 ∧ byte.toInt8.toInt = 0
  negative : s.negative = true ↔ value ≤ 255 ∧ byte.toInt8.toInt < 0
  one : [s.positive, s.zero, s.negative].count true = 1

theorem lowByte_toNat (value : Int) : ((lowByte value).toNat : Int) = value % 256 := by
  have hpos := Int.emod_nonneg value (by decide : (256 : Int) ≠ 0)
  have hlt := Int.emod_lt_of_pos value (by decide : (0 : Int) < 256)
  rw [lowByte, UInt8.toNat_ofNat', Nat.mod_eq_of_lt (by omega)]
  omega

-- A byte read as a signed number.
theorem toInt_toInt8 (b : UInt8) :
    b.toInt8.toInt = if b.toNat < 128 then (b.toNat : Int) else b.toNat - 256 := by
  rw [show b.toInt8.toInt = b.toBitVec.toInt from rfl, BitVec.toInt_eq_toNat_cond,
    show b.toBitVec.toNat = b.toNat from rfl]
  by_cases h : b.toNat < 128
  · rw [if_pos h, if_pos (by omega)]
  · rw [if_neg h, if_neg (by omega)]
    rfl

namespace StatusWord

/-- The flags of a number describe it. -/
theorem ofValue_describes (value : Int) (dataNotAvailable : Bool) :
    (ofValue value dataNotAvailable).Describes value (lowByte value) := by
  have hsigned := toInt_toInt8 (lowByte value)
  have hlt := (lowByte value).toNat_lt
  have hpos : (0 < lowByte value) ↔ 0 < (lowByte value).toNat := UInt8.lt_iff_toNat_lt
  have hsmall : (lowByte value < 128) ↔ (lowByte value).toNat < 128 := UInt8.lt_iff_toNat_lt
  have hbig : (128 ≤ lowByte value) ↔ 128 ≤ (lowByte value).toNat := UInt8.le_iff_toNat_le
  have hzero : (lowByte value = 0) ↔ (lowByte value).toNat = 0 := UInt8.toNat_inj.symm
  unfold ofValue
  by_cases h255 : 255 < value
  · rw [if_pos h255]
    have hle : ¬ value ≤ 255 := by omega
    refine ⟨?_, ?_, ?_, ?_, rfl⟩
    · simp only [h255, or_true]
    · simp only [h255, true_or]
    · simp only [hle, false_and, Bool.false_eq_true]
    · simp only [hle, false_and, Bool.false_eq_true]
  · rw [if_neg h255]
    have hle : value ≤ 255 := by omega
    refine ⟨?_, ?_, ?_, ?_, ?_⟩
    · simp only [decide_eq_true_eq, h255, or_false]
    · rw [Bool.and_eq_true, decide_eq_true_eq, decide_eq_true_eq, hpos, hsmall, hsigned]
      split <;> omega
    · rw [beq_iff_eq, hzero, hsigned]
      split <;> omega
    · rw [decide_eq_true_eq, hbig, hsigned]
      split <;> omega
    · change [decide (0 < lowByte value) && decide (lowByte value < 128), lowByte value == 0,
        decide (128 ≤ lowByte value)].count true = 1
      -- A byte is zero, in the lower half above zero, or in the upper half.
      rcases Nat.eq_zero_or_pos (lowByte value).toNat with h0 | h0
      · rw [hzero.mpr h0]
        rfl
      · have hne : (lowByte value == 0) = false := by
          rw [beq_eq_false_iff_ne]
          exact fun hc => by rw [hzero.mp hc] at h0; exact absurd h0 (Nat.lt_irrefl 0)
        rw [hne, decide_eq_true (hpos.mpr h0)]
        by_cases h128 : (lowByte value).toNat < 128
        · rw [decide_eq_true (hsmall.mpr h128), decide_eq_false (by rw [hbig]; omega)]
          rfl
        · rw [decide_eq_false (by rw [hsmall]; exact h128), decide_eq_true (hbig.mpr (by omega))]
          rfl

-- A result leaves the flag that is driven from outside as it was.
theorem ofValue_dataNotAvailable (value : Int) (dataNotAvailable : Bool) :
    (ofValue value dataNotAvailable).dataNotAvailable = dataNotAvailable := by
  unfold ofValue
  split <;> rfl

end StatusWord

/-- A function that does not read B has the same value for every B. -/
theorem AluFunction.value_congr (f : AluFunction) (hf : f.needsB = false) (a b b' : UInt8) :
    f.value a b = f.value a b' := by
  cases f <;> first | rfl | cases hf

end Microcode
