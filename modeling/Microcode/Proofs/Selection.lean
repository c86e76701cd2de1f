import Microcode.Machine.Step
import Microcode.Proofs.Outcomes
/-!
# What a Word Selects

The meaning of a microinstruction, said of the rows of the control table alone.

`Machine.plan` decodes a word field by field and leaves as soon as a field does not decode, so
what it does with a word is spread over a chain of early exits. The relations of this module
say the same without an order of evaluation. `Selects` reads the three codes that every word
needs off the columns of the table. `Performs` says which action and which flags follow, one
constructor for each kind of word, and `step_eq_ok_iff` is the proof that a step carries out
exactly this.

A counter in the read slot counts whatever the write slot holds, while in the write slot only
the double counter counts. `Selected.Counts` is that asymmetry, and it is the reason why a word
with `incPC` in its write slot comes out as one that transfers.

## Main definitions

* `Selects`: The rows that the write, read and jump code stand for.
* `Selected.Counts`: The word counts up a pair of registers.
* `Selected.Transfers`: The word goes through the ALU.
* `Operand`: The B operand that a function gets from the read slot.
* `Performs`: The action of a word and the flags that it leaves.

## Theorems

* `entry_eq_ok_iff`, `entry_eq_error_iff`: A code finds its row exactly if it is at most fifteen.
* `decodeAlu_eq_ok_iff`, `decodeAlu_eq_error_iff`: The same for the ALU, where a row may be empty.
* `Selects.unique`: A word selects one row of each column.
* `increment?_cases`: Which counter a word runs.
* `expectRegister_cases`: What becomes of a slot that has to be a register.
* `select_eq_ok_iff`: Decoding reads the rows off the table.
* `operandB_eq_ok_iff`, `operands_eq_ok_iff`: The operands that are looked up.
* `plan_of_performs`, `performs_of_plan`: Planning comes to what the word performs.
* `step_eq_ok_iff`: A word is executed exactly if it performs an action, and what it leaves.
-/

namespace Microcode

/-- The rows of a table that the write, read and jump code of a word stand for. -/
structure Selects (t : ControlTable) (word : MicroWord) (s : Selected) : Prop where
  write : t.write[word.write.toNat]? = some s.write
  read : t.read[word.read.toNat]? = some s.read
  condition : t.jump[word.jump.toNat]? = some s.condition

/-- The word counts up a pair of registers. -/
def Selected.Counts (s : Selected) : Prop :=
  s.write = .incPcMar ∨ s.read = .incPcMar ∨ s.read = .incPc ∨ s.read = .incMar

/-- The word goes through the ALU: it does not count, and it writes. -/
def Selected.Transfers (s : Selected) : Prop :=
  ¬ s.Counts ∧ s.write ≠ .nop

/-- The B operand that a function gets from the read slot. A slot that is no register will do
    for a function that does not look at B. -/
inductive Operand (f : RegisterFile) (function : AluFunction) : Slot → UInt8 → Prop where
  | register (r : Register) : Operand f function (.reg r) (f.get r)
  | ignored (slot : Slot) (hslot : slot.register? = none) (hb : function.needsB = false) :
      Operand f function slot 0

/-- The action of a word and the flags that it leaves. -/
inductive Performs (m : Machine) (word : MicroWord) (s : Selected) :
    Action → StatusWord → Prop where
  | both (h : s.write = .incPcMar ∨ s.read = .incPcMar) :
      Performs m word s .incrementPcMar m.status
  | pc (hw : s.write ≠ .incPcMar) (hr : s.read = .incPc) : Performs m word s .incrementPc m.status
  | mar (hw : s.write ≠ .incPcMar) (hr : s.read = .incMar) :
      Performs m word s .incrementMar m.status
  | idle (h : ¬ s.Counts) (hw : s.write = .nop) : Performs m word s .idle m.status
  | transfer (destination : Register) (function : AluFunction) (b : UInt8) (h : ¬ s.Counts)
      (hw : s.write = .reg destination)
      (hf : m.table.alu[word.alu.toNat]? = some (some function))
      (hb : Operand m.registers function s.read b) :
      Performs m word s
        (.transfer destination (function.evaluate (m.registers.get .aluIn) b m.status).1)
        (function.evaluate (m.registers.get .aluIn) b m.status).2

namespace ControlTable

theorem entry_eq_ok_iff {α : Type} (column : Vector α 16) (field : Field) (code : UInt8) (a : α) :
    entry column field code = .ok a ↔ column[code.toNat]? = some a := by
  unfold entry
  cases hc : column[code.toNat]? with
  | none => simp only [reduceCtorEq]
  | some b => simp only [Except.ok.injEq, Option.some.injEq]

theorem entry_eq_error_iff {α : Type} (column : Vector α 16) (field : Field) (code : UInt8)
    (e : DecodeError) :
    entry column field code = .error e ↔ 15 < code.toNat ∧ e = .codeOutOfRange field code := by
  unfold entry
  by_cases h : code.toNat < 16
  · rw [Vector.getElem?_eq_getElem h]
    simp only [reduceCtorEq, false_iff, not_and]
    omega
  · rw [Vector.getElem?_eq_none (by omega)]
    simp only [Except.error.injEq]
    exact ⟨fun he => ⟨by omega, he.symm⟩, fun he => he.2.symm⟩

-- A column has sixteen rows, so a code with a row is at most fifteen.
theorem le_of_row {α : Type} (column : Vector α 16) (n : Nat) (a : α) (h : column[n]? = some a) :
    n ≤ 15 := by
  rcases Vector.getElem?_eq_some_iff.mp h with ⟨hn, _⟩
  omega

theorem decodeAlu_eq_ok_iff (t : ControlTable) (code : UInt8) (f : AluFunction) :
    t.decodeAlu code = .ok f ↔ t.alu[code.toNat]? = some (some f) := by
  unfold decodeAlu
  rcases t.alu[code.toNat]? with _ | _ | g
  · simp only [reduceCtorEq]
  · simp only [reduceCtorEq, Option.some.injEq]
  · simp only [Except.ok.injEq, Option.some.injEq]

/-- An ALU code is refused if its row has no function or if it has no row. -/
theorem decodeAlu_eq_error_iff (t : ControlTable) (code : UInt8) (e : UnsupportedFunction) :
    t.decodeAlu code = .error e ↔
      (t.alu[code.toNat]? = some none ∨ 15 < code.toNat) ∧ e = ⟨code⟩ := by
  unfold decodeAlu
  by_cases h : code.toNat < 16
  · rw [Vector.getElem?_eq_getElem h]
    rcases t.alu[code.toNat] with _ | g
    · simp only [Except.error.injEq, true_or, true_and]
      exact eq_comm
    · simp only [reduceCtorEq, Option.some.injEq, false_or, false_iff, not_and]
      omega
  · rw [Vector.getElem?_eq_none (by omega)]
    simp only [Except.error.injEq, reduceCtorEq, false_or]
    exact ⟨fun he => ⟨by omega, he.symm⟩, fun he => he.2.symm⟩

end ControlTable

/-- The codes of a word select one thing only. -/
theorem Selects.unique {t : ControlTable} {word : MicroWord} {s s' : Selected}
    (h : Selects t word s) (h' : Selects t word s') : s = s' := by
  obtain ⟨hw, hr, hc⟩ := h
  obtain ⟨hw', hr', hc'⟩ := h'
  cases s
  cases s'
  simp only [hw, hr, hc, Option.some.injEq] at hw' hr' hc'
  rw [hw', hr', hc']

namespace Selected

/-- Which counter runs, and that none does unless the word counts. -/
theorem increment?_cases (s : Selected) :
    ((s.write = .incPcMar ∨ s.read = .incPcMar) ∧ s.increment? = some .incrementPcMar) ∨
    (s.write ≠ .incPcMar ∧ s.read = .incPc ∧ s.increment? = some .incrementPc) ∨
    (s.write ≠ .incPcMar ∧ s.read = .incMar ∧ s.increment? = some .incrementMar) ∨
    (¬ s.Counts ∧ s.increment? = none) := by
  unfold increment? Counts
  by_cases hboth : s.write = .incPcMar ∨ s.read = .incPcMar
  · exact Or.inl ⟨hboth, if_pos hboth⟩
  · rw [if_neg hboth]
    rw [not_or] at hboth
    by_cases hpc : s.read = .incPc
    · exact Or.inr (Or.inl ⟨hboth.1, hpc, if_pos hpc⟩)
    · rw [if_neg hpc]
      by_cases hmar : s.read = .incMar
      · exact Or.inr (Or.inr (Or.inl ⟨hboth.1, hmar, if_pos hmar⟩))
      · simp only [not_or]
        exact Or.inr (Or.inr (Or.inr ⟨⟨hboth.1, hboth.2, hpc, hmar⟩, if_neg hmar⟩))

theorem increment?_of_not_counts (s : Selected) (h : ¬ s.Counts) : s.increment? = none := by
  rcases s.increment?_cases with ⟨hb, _⟩ | ⟨_, hr, _⟩ | ⟨_, hr, _⟩ | ⟨_, hn⟩
  · exact absurd (hb.imp_right Or.inl) h
  · exact absurd (Or.inr (Or.inr (Or.inl hr))) h
  · exact absurd (Or.inr (Or.inr (Or.inr hr))) h
  · exact hn

theorem not_counts_of_increment? (s : Selected) (h : s.increment? = none) : ¬ s.Counts := by
  rcases s.increment?_cases with ⟨_, hi⟩ | ⟨_, _, hi⟩ | ⟨_, _, hi⟩ | ⟨hn, _⟩
  · rw [hi] at h; cases h
  · rw [hi] at h; cases h
  · rw [hi] at h; cases h
  · exact hn

end Selected

/-- A slot that has to be a register is refused if it is unused or another pseudo slot. -/
theorem Slot.expectRegister_cases (slot : Slot) (field : Field) (code : UInt8) :
    (∃ r, slot = .reg r ∧ slot.expectRegister field code = .ok r) ∨
    (slot = .unused ∧ slot.expectRegister field code = .error (.unusedCode field code)) ∨
    (slot ≠ .unused ∧ slot.register? = none ∧
      slot.expectRegister field code = .error (.notARegister field code slot)) := by
  cases slot with
  | reg r => exact Or.inl ⟨r, rfl, rfl⟩
  | unused => exact Or.inr (Or.inl ⟨rfl, rfl⟩)
  | nop => exact Or.inr (Or.inr ⟨by decide, rfl, rfl⟩)
  | memory => exact Or.inr (Or.inr ⟨by decide, rfl, rfl⟩)
  | incPc => exact Or.inr (Or.inr ⟨by decide, rfl, rfl⟩)
  | incMar => exact Or.inr (Or.inr ⟨by decide, rfl, rfl⟩)
  | incPcMar => exact Or.inr (Or.inr ⟨by decide, rfl, rfl⟩)

theorem Slot.expectRegister_eq_ok_iff (slot : Slot) (field : Field) (code : UInt8)
    (r : Register) : slot.expectRegister field code = .ok r ↔ slot = .reg r := by
  cases slot with
  | reg d => simp only [Slot.expectRegister, Except.ok.injEq, Slot.reg.injEq]
  | _ => simp only [Slot.expectRegister, reduceCtorEq]

namespace Machine

/-- The codes of a word select what the table has for them. -/
theorem select_eq_ok_iff (m : Machine) (word : MicroWord) (s : Selected) :
    m.select word = .ok s ↔ Selects m.table word s := by
  simp only [select, ControlTable.decodeWrite, ControlTable.decodeRead, ControlTable.decodeJump,
    bind_eq_ok_iff, mapError_eq_ok_iff, ControlTable.entry_eq_ok_iff, pure, Except.pure,
    Except.ok.injEq]
  constructor
  · rintro ⟨write, hw, read, hr, condition, hc, rfl⟩
    exact ⟨hw, hr, hc⟩
  · intro h
    exact ⟨s.write, h.write, s.read, h.read, s.condition, h.condition, rfl⟩

/-- The operand that is looked up is the one that the relation names. -/
theorem operandB_eq_ok_iff (m : Machine) (function : AluFunction) (read : Slot) (code b : UInt8) :
    m.operandB function read code = .ok b ↔ Operand m.registers function read b := by
  constructor
  · intro h
    cases read with
    | reg r => cases h; exact .register r
    | _ =>
        -- No pseudo slot is a register, so an operand is there only if it is ignored.
        cases hb : function.needsB with
        | false =>
            simp only [operandB, hb, Bool.false_eq_true, if_false, Except.ok.injEq] at h
            rw [← h]
            exact .ignored _ rfl hb
        | true =>
            simp only [operandB, hb, if_true, Slot.expectRegister, Except.map, reduceCtorEq] at h
  · intro h
    cases h with
    | register r => rfl
    | ignored _ hslot hb =>
        cases read with
        | reg r => cases hslot
        | _ => simp only [operandB, hb, Bool.false_eq_true, if_false]

/-- The operands of a transfer are its destination, its function, ALUin and the operand B. -/
theorem operands_eq_ok_iff (m : Machine) (word : MicroWord) (s : Selected) (o : Operands) :
    m.operands word s = .ok o ↔
      s.write = .reg o.destination ∧ m.table.alu[word.alu.toNat]? = some (some o.function) ∧
        o.a = m.registers.get .aluIn ∧ Operand m.registers o.function s.read o.b := by
  simp only [operands, bind_eq_ok_iff, mapError_eq_ok_iff, Slot.expectRegister_eq_ok_iff,
    ControlTable.decodeAlu_eq_ok_iff, operandB_eq_ok_iff, pure, Except.pure, Except.ok.injEq]
  constructor
  · rintro ⟨d, hd, f, hf, b, hb, rfl⟩
    exact ⟨hd, hf, rfl, hb⟩
  · rintro ⟨hd, hf, ha, hb⟩
    refine ⟨o.destination, hd, o.function, hf, o.b, hb, ?_⟩
    rw [← ha]

theorem plan_of_increment (m : Machine) (word : MicroWord) (s : Selected) (action : Action)
    (hs : Selects m.table word s) (ha : s.increment? = some action) :
    m.plan word = (.ok (m.planned word s.condition action m.status), []) := by
  unfold plan
  rw [(m.select_eq_ok_iff word s).mpr hs]
  simp only [ha]

theorem plan_of_idle (m : Machine) (word : MicroWord) (s : Selected)
    (hs : Selects m.table word s) (hn : ¬ s.Counts) (hw : s.write = .nop) :
    m.plan word = (.ok (m.planned word s.condition .idle m.status), []) := by
  unfold plan
  rw [(m.select_eq_ok_iff word s).mpr hs]
  simp only [s.increment?_of_not_counts hn, hw, if_true]

/-- A word that transfers stands or falls with its operands. -/
theorem plan_of_transfers (m : Machine) (word : MicroWord) (s : Selected)
    (hs : Selects m.table word s) (ht : s.Transfers) :
    m.plan word = match m.operands word s with
      | .error e => (.error e, [])
      | .ok o =>
        let (value, status) := o.function.evaluate o.a o.b m.status
        (.ok (m.planned word s.condition (.transfer o.destination value) status),
          [.evaluated o.function o.a o.b value status]) := by
  unfold plan
  rw [(m.select_eq_ok_iff word s).mpr hs]
  cases ho : m.operands word s with
  | error e => simp only [s.increment?_of_not_counts ht.1, if_neg ht.2, ho]
  | ok o => simp only [s.increment?_of_not_counts ht.1, if_neg ht.2, ho]

/-- What a word performs is what is planned for it. -/
theorem plan_of_performs (m : Machine) (word : MicroWord) (s : Selected) (action : Action)
    (status : StatusWord) (hs : Selects m.table word s) (hp : Performs m word s action status) :
    (m.plan word).1 = .ok (m.planned word s.condition action status) := by
  cases hp with
  | both hb => rw [plan_of_increment m word s _ hs (if_pos hb)]
  | pc hw hr =>
      have hi : s.increment? = some .incrementPc := by
        simp only [Selected.increment?, hw, hr, reduceCtorEq, or_self, if_false, if_true]
      rw [plan_of_increment m word s _ hs hi]
  | mar hw hr =>
      have hi : s.increment? = some .incrementMar := by
        simp only [Selected.increment?, hw, hr, reduceCtorEq, or_self, if_false, if_true]
      rw [plan_of_increment m word s _ hs hi]
  | idle hn hw => rw [plan_of_idle m word s hs hn hw]
  | transfer d function b hn hw hf hb =>
      have ho : m.operands word s = .ok ⟨d, function, m.registers.get .aluIn, b⟩ :=
        (m.operands_eq_ok_iff word s _).mpr ⟨hw, hf, rfl, hb⟩
      have ht : s.Transfers := ⟨hn, by rw [hw]; exact Slot.noConfusion⟩
      rw [plan_of_transfers m word s hs ht, ho]

/-- What is planned for a word is what it performs. -/
theorem performs_of_plan (m : Machine) (word : MicroWord) (p : Plan)
    (h : (m.plan word).1 = .ok p) :
    ∃ s action status, Selects m.table word s ∧ Performs m word s action status ∧
      p = m.planned word s.condition action status := by
  cases hsel : m.select word with
  | error e => rw [plan, hsel] at h; cases h
  | ok s =>
      have hs : Selects m.table word s := (m.select_eq_ok_iff word s).mp hsel
      refine ⟨s, ?_⟩
      -- What counts is planned before the ALU code is looked at.
      rcases s.increment?_cases with ⟨hb, hi⟩ | ⟨hw, hr, hi⟩ | ⟨hw, hr, hi⟩ | ⟨hn, _⟩
      · rw [plan_of_increment m word s _ hs hi, Except.ok.injEq] at h
        exact ⟨_, _, hs, .both hb, h.symm⟩
      · rw [plan_of_increment m word s _ hs hi, Except.ok.injEq] at h
        exact ⟨_, _, hs, .pc hw hr, h.symm⟩
      · rw [plan_of_increment m word s _ hs hi, Except.ok.injEq] at h
        exact ⟨_, _, hs, .mar hw hr, h.symm⟩
      · by_cases hw : s.write = .nop
        · rw [plan_of_idle m word s hs hn hw, Except.ok.injEq] at h
          exact ⟨_, _, hs, .idle hn hw, h.symm⟩
        · rw [plan_of_transfers m word s hs ⟨hn, hw⟩] at h
          cases ho : m.operands word s with
          | error e => rw [ho] at h; cases h
          | ok o =>
              rw [ho, Except.ok.injEq] at h
              rcases (m.operands_eq_ok_iff word s o).mp ho with ⟨hd, hf, ha, hb⟩
              rw [ha] at h
              exact ⟨_, _, hs, .transfer o.destination o.function o.b hn hd hf hb, h.symm⟩

/-- A word is executed exactly if it performs an action, and this is what is left behind. -/
theorem step_eq_ok_iff (m : Machine) (word : MicroWord) (r : StepResult) (m' : Machine) :
    ((m.step word).result = .ok r ∧ (m.step word).machine = m') ↔
      ∃ s action status, Selects m.table word s ∧ Performs m word s action status ∧
        let next := m.sequencer.resolve s.condition word.jumpAddress status
        r = { next := next.mpc, status,
              mutated := (action.perform m.registers).2.1,
              destination := (action.perform m.registers).2.2 } ∧
        m' = { m with
          registers := (action.perform m.registers).1, status,
          sequencer := .commit word next, cycles := m.cycles + 1 } := by
  constructor
  · rintro ⟨h, hm⟩
    unfold step at h hm
    rcases hp : m.plan word with ⟨_ | p, log⟩
    · rw [hp] at h; cases h
    · rw [hp] at h hm
      rcases m.performs_of_plan word p (by rw [hp]) with ⟨s, action, status, hs, ha, rfl⟩
      simp only [planned, Except.ok.injEq] at h hm
      exact ⟨s, action, status, hs, ha, h.symm, hm.symm⟩
  · rintro ⟨s, action, status, hs, ha, rfl, rfl⟩
    have hp := m.plan_of_performs word s action status hs ha
    unfold step
    rcases hq : m.plan word with ⟨_ | p, log⟩
    · rw [hq] at hp; cases hp
    · rw [hq, Except.ok.injEq] at hp
      rw [hp]
      exact ⟨rfl, rfl⟩

end Machine

end Microcode
