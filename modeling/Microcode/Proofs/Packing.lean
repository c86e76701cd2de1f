import Mathlib.Algebra.Group.Nat.Defs
import Microcode.Proofs.Codes
/-!
# Words as Bits

The twenty-four bits of a word as a number.

The shifts and masks that pack a word put its five parts at different powers of two. As long as
every code fits in its four bits the parts do not touch, so the union of the bits is the sum of the
parts, and the parts are the digits of that sum. Both directions are then division and remainder.

## Theorems

* `toNat_bits`, `bits_lt`: The bits of a word whose codes fit, as a number.
* `toNat_nibble`: Four of the bits as a number.
* `ofBits_eq_ok_iff`: The word that is unpacked from some bits is the one that is packed into them.
* `ofBits_bits_iff`: The bits of a word give its codes back exactly if the codes fit.
-/

namespace Microcode

namespace MicroWord

-- The codes as numbers.
theorem Narrow.toNat_le {w : MicroWord} (h : w.Narrow) :
    w.write.toNat ≤ 15 ∧ w.read.toNat ≤ 15 ∧ w.alu.toNat ≤ 15 ∧ w.jump.toNat ≤ 15 :=
  ⟨UInt8.le_iff_toNat_le.mp h.write, UInt8.le_iff_toNat_le.mp h.read,
    UInt8.le_iff_toNat_le.mp h.alu, UInt8.le_iff_toNat_le.mp h.jump⟩

-- A part that stays below a power of two is added to the parts above it.
theorem shiftLeft_or (a b i : Nat) (h : b < 2 ^ i) : a <<< i ||| b = a * 2 ^ i + b := by
  rw [← Nat.shiftLeft_add_eq_or_of_lt h, Nat.shiftLeft_eq]

-- No code that fits is shifted out of the thirty-two bits.
theorem toNat_shiftLeft_code (code : UInt8) (i : UInt32) (hcode : code.toNat ≤ 15)
    (hi : i.toNat ≤ 20) : (code.toUInt32 <<< i).toNat = code.toNat <<< i.toNat := by
  have hbound : code.toNat * 2 ^ i.toNat ≤ 15 * 2 ^ 20 :=
    Nat.mul_le_mul hcode (Nat.pow_le_pow_right (by decide) hi)
  have hshift : i.toNat % 32 = i.toNat := Nat.mod_eq_of_lt (by omega)
  rw [UInt32.toNat_shiftLeft, UInt8.toNat_toUInt32, hshift, Nat.shiftLeft_eq]
  exact Nat.mod_eq_of_lt (by omega)

/-- The bits of a word whose codes fit, as a number. -/
theorem toNat_bits (w : MicroWord) (h : w.Narrow) :
    w.bits.toNat = w.write.toNat * 2 ^ 20 + (w.read.toNat * 2 ^ 16 + (w.alu.toNat * 2 ^ 12 +
      (w.jump.toNat * 2 ^ 8 + w.jumpAddress.toNat))) := by
  obtain ⟨hw, hr, ha, hj⟩ := h.toNat_le
  have hjump := w.jumpAddress.toNat_lt
  rw [bits, UInt32.toNat_or, UInt32.toNat_or, UInt32.toNat_or, UInt32.toNat_or,
    toNat_shiftLeft_code _ 20 hw (by decide), toNat_shiftLeft_code _ 16 hr (by decide),
    toNat_shiftLeft_code _ 12 ha (by decide), toNat_shiftLeft_code _ 8 hj (by decide),
    UInt8.toNat_toUInt32]
  change w.write.toNat <<< 20 ||| w.read.toNat <<< 16 ||| w.alu.toNat <<< 12 |||
    w.jump.toNat <<< 8 ||| w.jumpAddress.toNat = _
  rw [Nat.or_assoc, Nat.or_assoc, Nat.or_assoc, shiftLeft_or _ _ 8 (by omega),
    shiftLeft_or _ _ 12 (by omega), shiftLeft_or _ _ 16 (by omega), shiftLeft_or _ _ 20 (by omega)]

theorem bits_lt (w : MicroWord) (h : w.Narrow) : w.bits.toNat < 2 ^ 24 := by
  obtain ⟨hw, hr, ha, hj⟩ := h.toNat_le
  have hjump := w.jumpAddress.toNat_lt
  rw [w.toNat_bits h]
  omega

/-- Four of the bits as a number. -/
theorem toNat_nibble (bits shift : UInt32) (h : shift.toNat < 32) :
    ((bits >>> shift) &&& 0xF).toUInt8.toNat = bits.toNat / 2 ^ shift.toNat % 16 := by
  rw [UInt32.toNat_toUInt8, UInt32.toNat_and, UInt32.toNat_shiftRight, Nat.mod_eq_of_lt h,
    Nat.shiftRight_eq_div_pow]
  change (bits.toNat / 2 ^ shift.toNat &&& 2 ^ 4 - 1) % 256 = _
  rw [Nat.and_two_pow_sub_one_eq_mod]
  omega

/-- The word that is unpacked from some bits is the one that is packed into them. -/
theorem ofBits_eq_ok_iff (packed : UInt32) (w : MicroWord) :
    ofBits packed = .ok w ↔ w.Narrow ∧ w.bare = w ∧ w.bits = packed := by
  have hwide : 0xFFFFFF < packed ↔ 2 ^ 24 ≤ packed.toNat := UInt32.lt_iff_toNat_lt
  have hlow : (packed &&& 0xFF).toUInt8.toNat = packed.toNat % 2 ^ 8 := by
    rw [UInt32.toNat_toUInt8, UInt32.toNat_and]
    change (packed.toNat &&& 2 ^ 8 - 1) % 256 = _
    rw [Nat.and_two_pow_sub_one_eq_mod]
    omega
  have h20 : ((packed >>> 20) &&& 0xF).toUInt8.toNat = packed.toNat / 2 ^ 20 % 16 :=
    toNat_nibble packed 20 (by decide)
  have h16 : ((packed >>> 16) &&& 0xF).toUInt8.toNat = packed.toNat / 2 ^ 16 % 16 :=
    toNat_nibble packed 16 (by decide)
  have h12 : ((packed >>> 12) &&& 0xF).toUInt8.toNat = packed.toNat / 2 ^ 12 % 16 :=
    toNat_nibble packed 12 (by decide)
  have h8 : ((packed >>> 8) &&& 0xF).toUInt8.toNat = packed.toNat / 2 ^ 8 % 16 :=
    toNat_nibble packed 8 (by decide)
  unfold ofBits
  constructor
  · intro h
    by_cases hlt : 0xFFFFFF < packed
    · rw [if_pos hlt] at h
      cases h
    · rw [if_neg hlt, ofCodes_eq_ok_iff] at h
      obtain ⟨rfl, hnarrow⟩ := h
      refine ⟨hnarrow, rfl, ?_⟩
      -- The digits of a number below the bound make up the number.
      rw [hwide] at hlt
      rw [← UInt32.toNat_inj, toNat_bits _ hnarrow]
      simp only [h20, h16, h12, h8, hlow]
      omega
  · rintro ⟨hnarrow, hbare, hbits⟩
    obtain ⟨hw, hr, ha, hj⟩ := hnarrow.toNat_le
    have hjump := w.jumpAddress.toNat_lt
    have hsum := w.toNat_bits hnarrow
    rw [hbits] at hsum
    have hlt : ¬ 0xFFFFFF < packed := by
      rw [hwide]
      omega
    rw [if_neg hlt, ofCodes_eq_ok_iff]
    refine ⟨?_, hnarrow⟩
    rw [← hbare]
    simp only [bare, MicroWord.mk.injEq, ← UInt8.toNat_inj, and_true]
    rw [h20, h16, h12, h8, hlow]
    omega

/-- The bits of a word give its codes and its jump address back exactly if the codes fit. -/
theorem ofBits_bits_iff (w : MicroWord) : ofBits w.bits = .ok w.bare ↔ w.Narrow := by
  rw [ofBits_eq_ok_iff]
  exact ⟨fun h => ⟨h.1.write, h.1.read, h.1.alu, h.1.jump⟩,
    fun h => ⟨⟨h.write, h.read, h.alu, h.jump⟩, rfl, rfl⟩⟩

end MicroWord

end Microcode
