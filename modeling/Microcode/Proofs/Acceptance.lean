import Microcode.Proofs.Packing
import Microcode.Proofs.Rejection
/-!
# Accepted Transfers

Which of the words that go through the ALU are executed.

A transfer needs a register to go to and a function, and a function that reads B needs a register
to read from. That is all the machine asks for: `step_accepts_iff`. Of a function that does not
read B the operand is never looked up, so whatever the read slot holds is passed over.

`Permitted` is what a transfer should look like. Its read slot is a register, or it is left empty
because nothing reads it, by the code for no read or by a code without a meaning. Main memory is
neither. There is none, so a word that selects it asks for something that does not take place, and
a function that reads B refuses it. A function that does not read B lets it pass, and this is the
only way in which a word is executed that is not permitted, as `accepts_permitted_iff` says.

## Main definitions

* `Supplied`: A transfer has everything that it uses.
* `Permitted`: A transfer has everything that it uses, and asks for nothing else.
* `PassesMemory`: Main memory is selected where nothing is read.

## Theorems

* `exists_selects`: A word whose codes fit selects something.
* `exists_operand_iff`: Which slots have an operand for a function.
* `step_accepts_iff`: A transfer is executed exactly if it has everything that it uses.
* `supplied_iff`, `PassesMemory.not_permitted`: What is executed is permitted, or else main memory
  is passed over.
* `accepts_permitted_iff`: When the machine executes what is permitted.
* `accepts_selected_memory`: A transfer that is executed although it selects main memory.
-/

namespace Microcode

/-- A transfer has a destination, a function, and an operand if the function reads B. -/
structure Supplied (t : ControlTable) (word : MicroWord) (s : Selected) : Prop where
  destination : ∃ d, s.write = .reg d
  operand : ∃ f, t.alu[word.alu.toNat]? = some (some f) ∧
    (f.needsB = true → ∃ r, s.read = .reg r)

/-- A transfer has a destination and a function, and it reads a register, or nothing if the
    function does not read B. -/
structure Permitted (t : ControlTable) (word : MicroWord) (s : Selected) : Prop where
  destination : ∃ d, s.write = .reg d
  operand : ∃ f, t.alu[word.alu.toNat]? = some (some f) ∧
    ((∃ r, s.read = .reg r) ∨ (f.needsB = false ∧ (s.read = .nop ∨ s.read = .unused)))

/-- A transfer selects main memory for a function that does not read B. -/
structure PassesMemory (t : ControlTable) (word : MicroWord) (s : Selected) : Prop where
  read : s.read = .memory
  destination : ∃ d, s.write = .reg d
  operand : ∃ f, t.alu[word.alu.toNat]? = some (some f) ∧ f.needsB = false

/-- A word whose codes fit selects something under every table. -/
theorem exists_selects (t : ControlTable) (word : MicroWord) (h : word.Narrow) :
    ∃ s, Selects t word s := by
  rcases h.toNat_le with ⟨hw, hr, _, hj⟩
  have hw16 : word.write.toNat < 16 := Nat.lt_succ_of_le hw
  have hr16 : word.read.toNat < 16 := Nat.lt_succ_of_le hr
  have hj16 : word.jump.toNat < 16 := Nat.lt_succ_of_le hj
  exact ⟨{ write := t.write[word.write.toNat], read := t.read[word.read.toNat],
           condition := t.jump[word.jump.toNat] },
    Vector.getElem?_eq_getElem hw16, Vector.getElem?_eq_getElem hr16,
    Vector.getElem?_eq_getElem hj16⟩

/-- A slot has an operand for a function if it is a register or the function does not read B. -/
theorem exists_operand_iff (registers : RegisterFile) (f : AluFunction) (slot : Slot) :
    (∃ b, Operand registers f slot b) ↔ (f.needsB = true → ∃ r, slot = .reg r) := by
  constructor
  · rintro ⟨b, hb⟩ hneed
    cases hb with
    | register r => exact ⟨r, rfl⟩
    | ignored _ _ hnot => rw [hnot] at hneed; cases hneed
  · intro h
    cases hslot : slot.register? with
    | some r =>
        cases slot with
        | reg q => exact ⟨_, .register q⟩
        | _ => cases hslot
    | none =>
        cases hneed : f.needsB with
        | false => exact ⟨0, .ignored slot hslot hneed⟩
        | true =>
            rcases h hneed with ⟨r, rfl⟩
            cases hslot

namespace Machine

/-- A transfer is executed exactly if it has everything that it uses. -/
theorem step_accepts_iff (m : Machine) (word : MicroWord) (s : Selected)
    (hs : Selects m.table word s) (ht : s.Transfers) :
    (∃ r, (m.step word).result = .ok r) ↔ Supplied m.table word s := by
  constructor
  · rintro ⟨r, hr⟩
    rcases (m.step_eq_ok_iff word r _).mp ⟨hr, rfl⟩ with ⟨s', action, status, hs', hp, _, _⟩
    rw [hs'.unique hs] at hp
    cases hp with
    | both h => exact absurd (h.imp_right Or.inl) ht.1
    | pc _ h => exact absurd (Or.inr (Or.inr (Or.inl h))) ht.1
    | mar _ h => exact absurd (Or.inr (Or.inr (Or.inr h))) ht.1
    | idle _ h => exact absurd h ht.2
    | transfer d f b _ hw hf hb =>
        exact ⟨⟨d, hw⟩, f, hf, (exists_operand_iff m.registers f s.read).mp ⟨b, hb⟩⟩
  · rintro ⟨⟨d, hw⟩, f, hf, hneed⟩
    rcases (exists_operand_iff m.registers f s.read).mpr hneed with ⟨b, hb⟩
    have hp := Performs.transfer d f b ht.1 hw hf hb
    exact ⟨_, ((m.step_eq_ok_iff word _ _).mpr ⟨s, _, _, hs, hp, rfl, rfl⟩).1⟩

end Machine

/-- A transfer that has everything that it uses is permitted, or it passes over main memory. -/
theorem supplied_iff (t : ControlTable) (word : MicroWord) (s : Selected) (h : ¬ s.Counts) :
    Supplied t word s ↔ Permitted t word s ∨ PassesMemory t word s := by
  constructor
  · rintro ⟨hd, f, hf, hneed⟩
    cases hb : f.needsB with
    | true => exact Or.inl ⟨hd, f, hf, Or.inl (hneed hb)⟩
    | false =>
        -- What is left for the read slot, now that the word does not count.
        cases hread : s.read with
        | reg r => exact Or.inl ⟨hd, f, hf, Or.inl ⟨r, hread⟩⟩
        | nop => exact Or.inl ⟨hd, f, hf, Or.inr ⟨hb, Or.inl hread⟩⟩
        | unused => exact Or.inl ⟨hd, f, hf, Or.inr ⟨hb, Or.inr hread⟩⟩
        | memory => exact Or.inr ⟨hread, hd, f, hf, hb⟩
        | incPc => exact absurd (Or.inr (Or.inr (Or.inl hread))) h
        | incMar => exact absurd (Or.inr (Or.inr (Or.inr hread))) h
        | incPcMar => exact absurd (Or.inr (Or.inl hread)) h
  · rintro (⟨hd, f, hf, hread | ⟨hb, _⟩⟩ | ⟨_, hd, f, hf, hb⟩)
    · exact ⟨hd, f, hf, fun _ => hread⟩
    · exact ⟨hd, f, hf, fun hneed => absurd (hb.symm.trans hneed) Bool.false_ne_true⟩
    · exact ⟨hd, f, hf, fun hneed => absurd (hb.symm.trans hneed) Bool.false_ne_true⟩

/-- A read slot is not both permitted and main memory. -/
theorem PassesMemory.not_permitted {t : ControlTable} {word : MicroWord} {s : Selected}
    (h : PassesMemory t word s) : ¬ Permitted t word s := by
  rintro ⟨_, f, _, ⟨r, hread⟩ | ⟨_, hread | hread⟩⟩
  · cases h.read.symm.trans hread
  · cases h.read.symm.trans hread
  · cases h.read.symm.trans hread

namespace Machine

/-- A word whose codes fit and that goes through the ALU is executed exactly if it is permitted or
    passes over main memory, so what is executed is what is permitted unless main memory is passed
    over. With a destination and a function, a word that selects main memory is refused for that,
    and leaves the machine as it was, exactly if the function reads B. -/
theorem accepts_permitted_iff (m : Machine) (word : MicroWord) (h : word.Narrow) :
    ∃ s, Selects m.table word s ∧ (s.Transfers →
      ((∃ r, (m.step word).result = .ok r) ↔
        Permitted m.table word s ∨ PassesMemory m.table word s) ∧
      (((∃ r, (m.step word).result = .ok r) ↔ Permitted m.table word s) ↔
        ¬ PassesMemory m.table word s) ∧
      (s.read = .memory → ∀ d f, s.write = .reg d →
        m.table.alu[word.alu.toNat]? = some (some f) →
        (((m.step word).result = .error (.decode (.notARegister .read word.read .memory)) ∧
          (m.step word).machine = m) ↔ f.needsB = true))) := by
  rcases exists_selects m.table word h with ⟨s, hs⟩
  refine ⟨s, hs, fun ht => ?_⟩
  have haccepts := m.step_accepts_iff word s hs ht
  have hsupplied := supplied_iff m.table word s ht.1
  refine ⟨haccepts.trans hsupplied, ?_, ?_⟩
  · -- A word that passes over main memory is executed without being permitted.
    rw [haccepts, hsupplied]
    constructor
    · exact fun hiff hmemory => hmemory.not_permitted (hiff.mp (Or.inr hmemory))
    · exact fun hnot => or_iff_left hnot
  · intro hread d f hw hf
    constructor
    · rintro ⟨herror, _⟩
      cases hb : f.needsB with
      | true => rfl
      | false =>
          rcases haccepts.mpr (hsupplied.mpr (Or.inr ⟨hread, ⟨d, hw⟩, f, hf, hb⟩)) with ⟨r, hr⟩
          cases herror.symm.trans hr
    · intro hb
      have hfault : TransferFault m.table word s
          (.decode (.notARegister .read word.read s.read)) :=
        .readNoRegister d hw f hf hb (by rw [hread]; exact Slot.noConfusion)
          (by rw [hread]; exact Slot.noConfusion) (by rw [hread]; rfl)
      rw [hread] at hfault
      have herror := (m.step_eq_error_iff word _).mpr (.transfer s _ hs ht hfault)
      exact ⟨herror, m.step_machine_of_error word _ herror⟩

/-- The sum of the latch and a byte of main memory: the word is not permitted, and it is refused. -/
theorem accepts_permitted_sum :
    let m : Machine := { cycles := 3, status := { carry := true } }
    let word : MicroWord := { write := 2, read := 1, alu := 8, jump := 1, jumpAddress := 0x40 }
    let s : Selected := { write := .reg .acLo, read := .memory, condition := .always }
    word.Narrow ∧ Selects m.table word s ∧ s.Transfers ∧
      ((∃ r, (m.step word).result = .ok r) ↔ Permitted m.table word s) ∧
      (m.step word).result = .error (.decode (.notARegister .read 1 .memory)) ∧
      (m.step word).machine = m := by
  intro m word s
  have hn : word.Narrow := by decide
  have ht : s.Transfers := ⟨by simp [Selected.Counts, s], Slot.noConfusion⟩
  rcases m.accepts_permitted_iff word hn with ⟨s', hs, haccepts⟩
  have hselected : s' = s := hs.unique ⟨rfl, rfl, rfl⟩
  subst hselected
  have hnot : ¬ PassesMemory m.table word s := by
    rintro ⟨_, _, f, hf, hb⟩
    cases hf
    cases hb
  rcases haccepts ht with ⟨_, hpermitted, hmemory⟩
  exact ⟨hn, hs, ht, hpermitted.mpr hnot, (hmemory rfl .acLo .aPlusB rfl rfl).mpr rfl⟩

/-- The latch goes to a register while main memory is selected: the word is executed, although it is
    not permitted. -/
theorem accepts_selected_memory :
    let m : Machine := .new .builtin
    let word : MicroWord := { write := 2, read := 1, alu := 1, jump := 0, jumpAddress := 0 }
    let s : Selected := { write := .reg .acLo, read := .memory, condition := .fallThrough }
    word.Narrow ∧ Selects m.table word s ∧ s.Transfers ∧
      ¬ ((∃ r, (m.step word).result = .ok r) ↔ Permitted m.table word s) ∧
      (∀ e, (m.step word).result ≠ .error e) ∧ (m.step word).machine ≠ m := by
  intro m word s
  have hs : Selects m.table word s := ⟨rfl, rfl, rfl⟩
  have hok : ∃ r, (m.step word).result = .ok r := ⟨_, rfl⟩
  have hmemory : PassesMemory m.table word s := ⟨rfl, ⟨.acLo, rfl⟩, .passA, rfl, rfl⟩
  refine ⟨by decide, hs, ⟨by simp [Selected.Counts, s], Slot.noConfusion⟩, ?_, ?_, ?_⟩
  · exact fun hiff => hmemory.not_permitted (hiff.mp hok)
  · exact fun e he => by cases he
  · exact fun hm => absurd (congrArg Machine.cycles hm) (by decide)

end Machine

end Microcode
