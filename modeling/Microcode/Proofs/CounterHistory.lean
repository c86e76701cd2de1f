import Microcode.Proofs.Execution
import Microcode.Proofs.Histories
/-!
# What the Counters Remember

The program counter and the memory address register, said of the history of the machine.

Each of the two is a pair of byte registers that words can count up and that words can also write,
one half at a time. As long as no half is written, the pair is a number of sixteen bits that only
goes up: it is what it was at the start plus the number of words that counted it. A word that
counts both adds one to each of them, also if both of its slots ask for it, and a word whose read
slot counts does not write, whatever its write slot holds. The two have no part in each other, so
either may be written while the other one is counted.

The other registers do not count. One of them holds what it held until a word is executed that has
it for its destination.

## Main definitions

* `Counter`: The pairs of registers that count.
* `Counter.value`: The number that a counter holds.
* `ExecutedWord.counts`: An executed word counted a counter up.
* `Tallies`: The registers of a machine belong to a history and the registers before it.

## Theorems

* `Counter.value_of_agreeOff`: A counter whose halves stay keeps its number.
* `value_of_executed`: What an executed word does to a counter.
* `get_of_executed`: What an executed word does to a register that does not count.
* `tallies_word`: An executed word is added to what is counted.
* `counters_remember`: The counters and the other registers of a machine belong to its history.
-/

namespace Microcode

/-- The pairs of registers that count. -/
inductive Counter where
  | pc
  | mar
  deriving DecidableEq, Repr

namespace Counter

/-- The low half. -/
def lo : Counter → Register
  | pc => .pcLo
  | mar => .marLo

/-- The high half. -/
def hi : Counter → Register
  | pc => .pcHi
  | mar => .marHi

/-- The slot that counts this counter up, and no other. -/
def slot : Counter → Slot
  | pc => .incPc
  | mar => .incMar

/-- The number that the counter holds. -/
def value (c : Counter) (f : RegisterFile) : UInt16 :=
  f.pair c.lo c.hi

/-- The registers that are half of a counter. -/
def halves : List Register :=
  [.marLo, .marHi, .pcLo, .pcHi]

/-- A pair keeps its number if neither of its registers has changed. -/
theorem value_of_agreeOff (c : Counter) (f g : RegisterFile) (changed : List Register)
    (h : f.AgreeOff g changed) (hlo : c.lo ∉ changed) (hhi : c.hi ∉ changed) :
    c.value g = c.value f := by
  rw [value, value, RegisterFile.pair, RegisterFile.pair, h c.lo hlo, h c.hi hhi]

-- Every number of sixteen bits is below the bound already.
theorem toNat_value_mod (c : Counter) (f : RegisterFile) :
    ((c.value f).toNat + 0) % 65536 = (c.value f).toNat :=
  Nat.mod_eq_of_lt (UInt16.toNat_lt _)

end Counter

namespace ExecutedWord

/-- The write slot that the table of the time had for the word. -/
def writeSlot? (x : ExecutedWord) : Option Slot :=
  x.machine.table.write[x.word.write.toNat]?

/-- The read slot that the table of the time had for the word. -/
def readSlot? (x : ExecutedWord) : Option Slot :=
  x.machine.table.read[x.word.read.toNat]?

/-- The word counted a counter up: both of them, by either slot, or this one by the read slot. -/
def counts (c : Counter) (x : ExecutedWord) : Bool :=
  x.writeSlot? == some .incPcMar || x.readSlot? == some .incPcMar || x.readSlot? == some c.slot

theorem counts_iff (c : Counter) (x : ExecutedWord) (s : Selected)
    (hs : Selects x.machine.table x.word s) :
    x.counts c = true ↔ s.write = .incPcMar ∨ s.read = .incPcMar ∨ s.read = c.slot := by
  simp only [counts, writeSlot?, readSlot?, hs.write, hs.read, Bool.or_eq_true, beq_iff_eq,
    Option.some.injEq, or_assoc]

end ExecutedWord

/-- A word with a slot for a counter counts. -/
theorem Selected.counts_of_slot (s : Selected) (c : Counter)
    (h : s.write = .incPcMar ∨ s.read = .incPcMar ∨ s.read = c.slot) : s.Counts := by
  cases c with
  | pc => exact h.imp_right (Or.imp_right Or.inl)
  | mar => exact h.imp_right (Or.imp_right Or.inr)

/-- What an executed word did to the registers and the flags. -/
theorem dataEffect_of_executed (x : ExecutedWord) :
    ∃ s, Selects x.machine.table x.word s ∧
      DataEffect x.machine x.word s x.after x.result.destination := by
  rcases performs_of_executed x with ⟨s, action, status, hs, hp, hr, hm⟩
  refine ⟨s, hs, ?_⟩
  rw [hr]
  exact dataEffect_of_performs x.machine x.after x.word s action status hp (by rw [hm]) (by rw [hm])

/-- A counter goes up by one if the word counts it, and else keeps its number unless the word
    writes one of its halves. -/
theorem value_of_executed (c : Counter) (x : ExecutedWord)
    (hlo : x.result.destination ≠ some c.lo) (hhi : x.result.destination ≠ some c.hi) :
    (c.value x.after.registers).toNat =
      ((c.value x.machine.registers).toNat + if x.counts c = true then 1 else 0) % 65536 := by
  rcases dataEffect_of_executed x with ⟨s, hs, heffect⟩
  have hcounts := x.counts_iff c s hs
  -- Each case of the effect says what the destination is, so it has to be a variable.
  generalize x.result.destination = d at heffect hlo hhi
  cases heffect with
  | both h hmar hpc _ _ =>
      rw [if_pos (hcounts.mpr (h.imp_right Or.inl))]
      cases c with
      | pc => exact hpc
      | mar => exact hmar
  | pc hw hr hpc hframe _ =>
      cases c with
      | pc =>
          rw [if_pos (hcounts.mpr (Or.inr (Or.inr hr)))]
          exact hpc
      | mar =>
          rw [if_neg (by rw [hcounts, hr]; simp [hw, Counter.slot]), Counter.toNat_value_mod,
            Counter.value_of_agreeOff .mar _ _ _ hframe (by decide) (by decide)]
  | mar hw hr hmar hframe _ =>
      cases c with
      | pc =>
          rw [if_neg (by rw [hcounts, hr]; simp [hw, Counter.slot]), Counter.toNat_value_mod,
            Counter.value_of_agreeOff .pc _ _ _ hframe (by decide) (by decide)]
      | mar =>
          rw [if_pos (hcounts.mpr (Or.inr (Or.inr hr)))]
          exact hmar
  | idle hn _ hregs _ =>
      rw [if_neg (fun h => hn (s.counts_of_slot c (hcounts.mp h))), Counter.toNat_value_mod, hregs]
  | transfer hn d _ _ _ _ _ _ _ _ _ hframe _ _ =>
      rw [if_neg (fun h => hn (s.counts_of_slot c (hcounts.mp h))), Counter.toNat_value_mod]
      refine congrArg UInt16.toNat (c.value_of_agreeOff _ _ _ hframe ?_ ?_)
      · exact fun hc => hlo (congrArg some (List.mem_singleton.mp hc).symm)
      · exact fun hc => hhi (congrArg some (List.mem_singleton.mp hc).symm)

/-- A register that is no half of a counter keeps what it holds unless the word writes it. -/
theorem get_of_executed (x : ExecutedWord) (r : Register) (hr : r ∉ Counter.halves)
    (hd : x.result.destination ≠ some r) :
    x.after.registers.get r = x.machine.registers.get r := by
  rcases dataEffect_of_executed x with ⟨s, _, heffect⟩
  simp only [Counter.halves, List.mem_cons, List.not_mem_nil, or_false, not_or] at hr
  generalize x.result.destination = d at heffect hd
  cases heffect with
  | both _ _ _ hframe _ => exact hframe r (by simp [hr])
  | pc _ _ _ hframe _ => exact hframe r (by simp [hr])
  | mar _ _ _ hframe _ => exact hframe r (by simp [hr])
  | idle _ _ hregs _ => rw [hregs]
  | transfer _ d _ _ _ _ _ _ _ _ _ hframe _ _ =>
      exact hframe r (fun hc => hd (congrArg some (List.mem_singleton.mp hc).symm))

/-- The registers of a machine belong to a history and to the registers in front of it. A counter
    adds the words that counted it to what it was, if none wrote one of its halves, and another
    register is what it was, if none wrote it. -/
structure Tallies (start : RegisterFile) (past : List ExecutedWord) (m : Machine) : Prop where
  counter (c : Counter) :
    (∀ x ∈ past, x.result.destination ≠ some c.lo ∧ x.result.destination ≠ some c.hi) →
      (c.value m.registers).toNat =
        ((c.value start).toNat + past.countP (ExecutedWord.counts c)) % 65536
  register (r : Register) : r ∉ Counter.halves →
    (∀ x ∈ past, x.result.destination ≠ some r) → m.registers.get r = start.get r

theorem tallies_start (m : Machine) : Tallies m.registers [] m where
  counter c _ := (c.toNat_value_mod m.registers).symm
  register _ _ _ := rfl

/-- An executed word is added to what is counted. -/
theorem tallies_word (start : RegisterFile) (past : List ExecutedWord) (x : ExecutedWord)
    (h : Tallies start past x.machine) : Tallies start (past ++ [x]) x.after := by
  refine ⟨fun c hpast => ?_, fun r hr hpast => ?_⟩
  · rw [List.forall_mem_append, List.forall_mem_singleton] at hpast
    rw [value_of_executed c x hpast.2.1 hpast.2.2, h.counter c hpast.1, Nat.mod_add_mod,
      List.countP_append, List.countP_singleton, Nat.add_assoc]
  · rw [List.forall_mem_append, List.forall_mem_singleton] at hpast
    rw [get_of_executed x r hr hpast.2, h.register r hr hpast.1]

/-- While a machine rests, its registers do. -/
theorem tallies_rest (start : RegisterFile) (past : List ExecutedWord) (m m' : Machine)
    (hrest : m.Rests m') (h : Tallies start past m) : Tallies start past m' := by
  refine ⟨fun c hpast => ?_, fun r hr hpast => ?_⟩
  · rw [hrest.registers, h.counter c hpast]
  · rw [hrest.registers, h.register r hr hpast]

/-- After any operations, among them words that are handed to the machine one by one, the counters
    and the other registers belong to the history of executed words. The program counter is what it
    was plus the number of words that counted it, modulo 65536, unless a word wrote one of its
    halves, and the memory address register likewise, neither with regard to the other. Any other
    register is what it was unless it was the destination of a word. -/
theorem counters_remember (m : Machine) (ops : List Operation) :
    let past := m.history ops
    let f := (m.operateAll ops).registers
    ((∀ x ∈ past, x.result.destination ≠ some .pcLo ∧ x.result.destination ≠ some .pcHi) →
      f.pc.toNat = (m.registers.pc.toNat + past.countP (ExecutedWord.counts .pc)) % 65536) ∧
    ((∀ x ∈ past, x.result.destination ≠ some .marLo ∧ x.result.destination ≠ some .marHi) →
      f.mar.toNat = (m.registers.mar.toNat + past.countP (ExecutedWord.counts .mar)) % 65536) ∧
    (∀ r, r ∉ [Register.marLo, .marHi, .pcLo, .pcHi] →
      (∀ x ∈ past, x.result.destination ≠ some r) → f.get r = m.registers.get r) := by
  intro past f
  have htallies : Tallies m.registers past (m.operateAll ops) :=
    Machine.history_induction (tallies_start m) (tallies_word m.registers)
      (tallies_rest m.registers) ops
  exact ⟨htallies.counter .pc, htallies.counter .mar, htallies.register⟩

/-- A word that asks for both counters twice, one that is rejected, one that counts although its
    write slot is a half of the counter, and one that writes a half of the other counter. -/
theorem counters_remember_wrapped :
    let both : MicroWord := { write := 14, read := 14, alu := 0, jump := 0, jumpAddress := 0 }
    let unused : MicroWord := { write := 12, read := 3, alu := 0, jump := 0, jumpAddress := 0 }
    let count : MicroWord := { write := 6, read := 10, alu := 0, jump := 0, jumpAddress := 0 }
    let write : MicroWord := { write := 10, read := 3, alu := 0, jump := 0, jumpAddress := 0 }
    let m : Machine :=
      { registers := (RegisterFile.initial.set .pcLo 0xFF).set .pcHi 0xFF }
    let ops : List Operation := [.step both, .step unused, .step count, .step write]
    let past := m.history ops
    (∀ x ∈ past, x.result.destination ≠ some .pcLo ∧ x.result.destination ≠ some .pcHi) ∧
      past.length = 3 ∧ past.countP (ExecutedWord.counts .pc) = 2 ∧
      m.registers.pc.toNat = 65535 ∧ (m.operateAll ops).registers.pc.toNat = 1 := by
  intro both unused count write m ops past
  have hwritten : ∀ x ∈ past,
      x.result.destination ≠ some .pcLo ∧ x.result.destination ≠ some .pcHi := by decide +kernel
  have hcount : past.countP (ExecutedWord.counts .pc) = 2 := by decide +kernel
  have hstart : m.registers.pc.toNat = 65535 := by decide +kernel
  refine ⟨hwritten, by decide +kernel, hcount, hstart, ?_⟩
  rw [(counters_remember m ops).1 hwritten, hcount, hstart]

end Microcode
