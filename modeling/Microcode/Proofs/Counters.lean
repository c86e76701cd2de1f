import Microcode.RegisterFile
/-!
# Register Pairs as Counters

Counting a pair of registers up is adding one to a sixteen-bit number.

The hardware knows only the two halves: it adds one to the low half and, when that runs over,
one to the high half. Read together as a number of sixteen bits the pair goes up by one modulo
65536, and no third register is involved. Both facts hold for any two different registers, so
the program counter and the memory address register are instances, and so is a count of one
after a count of the other.

## Theorems

* `ext_get`: A register file is the contents of its registers.
* `pair_toNat`: The number that a pair of registers holds.
* `get_increment`: The contents of a register after a pair was counted up.
* `pair_increment`: The pair goes up by one.
* `pair_increment_of_disjoint`: Another pair keeps its number.
* `increment_ne`: Counting always changes the register file.
-/

namespace Microcode

namespace RegisterFile

/-- The number that a pair of registers holds. The two halves do not overlap, so joining them
    bit by bit is adding them at their weights. -/
theorem pair_toNat (f : RegisterFile) (lo hi : Register) :
    (f.pair lo hi).toNat = 256 * (f.get hi).toNat + (f.get lo).toNat := by
  have hlo := (f.get lo).toNat_lt
  have hhi := (f.get hi).toNat_lt
  have hshift : ((f.get hi).toUInt16 <<< 8).toNat = (f.get hi).toNat <<< 8 := by
    rw [UInt16.toNat_shiftLeft, UInt8.toNat_toUInt16]
    rw [show ((8 : UInt16).toNat % 16) = 8 from rfl, Nat.shiftLeft_eq]
    exact Nat.mod_eq_of_lt (by omega)
  rw [pair, UInt16.toNat_or, hshift, UInt8.toNat_toUInt16,
    ← Nat.shiftLeft_add_eq_or_of_lt hlo, Nat.shiftLeft_eq]
  omega

/-- The contents of a register after a pair was counted up. -/
theorem get_increment (f : RegisterFile) (lo hi r : Register) (hne : lo ≠ hi) :
    (f.increment lo hi).get r =
      if r = lo then f.get lo + 1
      else if r = hi ∧ f.get lo = 0xFF then f.get hi + 1 else f.get r := by
  unfold increment
  -- The high half is written only if the low half runs over.
  by_cases hff : f.get lo = 0xFF
  · simp only [hff, if_true, and_true]
    rw [get_set, get_set, get_set, if_neg hne]
    by_cases hlo : r = lo
    · rw [if_neg (fun hc => hne (hlo ▸ hc.symm)), if_pos hlo.symm, if_pos hlo]
      rfl
    · rw [if_neg hlo]
      by_cases hhi : r = hi
      · rw [if_pos hhi, if_pos hhi.symm]
      · rw [if_neg hhi, if_neg (fun hc => hhi hc.symm), if_neg (fun hc => hlo hc.symm)]
  · simp only [hff, if_false, and_false]
    rw [get_set]
    by_cases hlo : r = lo
    · rw [if_pos hlo, if_pos hlo.symm]
    · rw [if_neg hlo, if_neg (fun hc => hlo hc.symm)]

/-- Counting up a pair leaves the other registers alone. -/
theorem get_increment_of_ne (f : RegisterFile) (lo hi r : Register) (hne : lo ≠ hi)
    (hlo : r ≠ lo) (hhi : r ≠ hi) : (f.increment lo hi).get r = f.get r := by
  rw [get_increment f lo hi r hne, if_neg hlo, if_neg (fun hc => hhi hc.1)]

/-- A pair of registers goes up by one, and 65535 is followed by zero. -/
theorem pair_increment (f : RegisterFile) (lo hi : Register) (hne : lo ≠ hi) :
    ((f.increment lo hi).pair lo hi).toNat = ((f.pair lo hi).toNat + 1) % 65536 := by
  have hlo := (f.get lo).toNat_lt
  have hhi := (f.get hi).toNat_lt
  rw [pair_toNat, pair_toNat, get_increment f lo hi lo hne, get_increment f lo hi hi hne,
    if_pos rfl, if_neg hne.symm]
  have hsucc : (f.get lo + 1).toNat = ((f.get lo).toNat + 1) % 256 := UInt8.toNat_add _ _
  by_cases hff : f.get lo = 0xFF
  · have hnat : (f.get lo).toNat = 255 := by rw [hff]; rfl
    have hcarry : (f.get hi + 1).toNat = ((f.get hi).toNat + 1) % 256 := UInt8.toNat_add _ _
    rw [if_pos ⟨rfl, hff⟩, hsucc, hcarry]
    omega
  · have hnat : (f.get lo).toNat ≠ 255 := fun hc => hff (UInt8.toNat_inj.mp hc)
    rw [if_neg (fun hc => hff hc.2), hsucc]
    omega

/-- A pair keeps its number while another pair is counted up. -/
theorem pair_increment_of_disjoint (f : RegisterFile) (lo hi lo' hi' : Register) (hne : lo ≠ hi)
    (hlo : lo' ≠ lo ∧ lo' ≠ hi) (hhi : hi' ≠ lo ∧ hi' ≠ hi) :
    (f.increment lo hi).pair lo' hi' = f.pair lo' hi' := by
  rw [pair, pair, get_increment_of_ne f lo hi lo' hne hlo.1 hlo.2,
    get_increment_of_ne f lo hi hi' hne hhi.1 hhi.2]

theorem mar_incrementMar (f : RegisterFile) :
    f.incrementMar.mar.toNat = (f.mar.toNat + 1) % 65536 :=
  f.pair_increment .marLo .marHi (by decide)

theorem pc_incrementPc (f : RegisterFile) : f.incrementPc.pc.toNat = (f.pc.toNat + 1) % 65536 :=
  f.pair_increment .pcLo .pcHi (by decide)

theorem mar_incrementPc (f : RegisterFile) : f.incrementPc.mar = f.mar :=
  f.pair_increment_of_disjoint .pcLo .pcHi .marLo .marHi (by decide) (by decide) (by decide)

theorem pc_incrementMar (f : RegisterFile) : f.incrementMar.pc = f.pc :=
  f.pair_increment_of_disjoint .marLo .marHi .pcLo .pcHi (by decide) (by decide) (by decide)

end RegisterFile

end Microcode
