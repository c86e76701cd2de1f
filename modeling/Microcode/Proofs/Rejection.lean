import Microcode.Proofs.Selection
/-!
# Rejected Words

Which words are not executed, and that nothing happens to the machine then.

A word may fail at seven places. The first three are the codes that every word needs, looked up
in the order write, read, jump. The others concern only a word that goes through the ALU: its
destination, its function, and the operand of the function. `Rejects` and `TransferFault` give
every one of them a constructor whose premises rule out the places before it, so that at most
one error belongs to a word. They speak of the table and of the word and of nothing else, which
is a fact about the machine too: no register, flag or address decides whether a word is
executed.

A cycle adds one place in front, the fetch from an address at which nothing is programmed.

## Main definitions

* `TransferFault`: What is wrong with a word that goes through the ALU.
* `Rejects`: The error with which a word is rejected.
* `Faults`: The error with which a cycle fails.

## Theorems

* `select_eq_error_iff`: The errors of the three codes that every word needs.
* `operandB_eq_error_iff`: The errors of a missing operand.
* `operands_eq_error_iff`: The errors of a word that goes through the ALU.
* `plan_eq_error_iff`, `step_eq_error_iff`: Planning and executing fail exactly if the word is
  rejected.
* `Rejects.unique`: A word is rejected with one error.
* `cycle_eq_error_iff`: A cycle fails exactly if there is nothing to execute or it is rejected.
* `failure_atomic`: What fails leaves the machine alone, with the first error that applies.
-/

namespace Microcode

/-- What is wrong with a word that goes through the ALU: its destination, its function or the
    operand of the function, in this order. -/
inductive TransferFault (t : ControlTable) (word : MicroWord) (s : Selected) :
    StepError → Prop where
  | writeUnused (hw : s.write = .unused) :
      TransferFault t word s (.decode (.unusedCode .write word.write))
  | writeNoRegister (hu : s.write ≠ .unused) (hw : s.write.register? = none) :
      TransferFault t word s (.decode (.notARegister .write word.write s.write))
  | noFunction (d : Register) (hw : s.write = .reg d)
      (hf : t.alu[word.alu.toNat]? = some none ∨ 15 < word.alu.toNat) :
      TransferFault t word s (.unsupported ⟨word.alu⟩)
  | noOperand (d : Register) (hw : s.write = .reg d) (f : AluFunction)
      (hf : t.alu[word.alu.toNat]? = some (some f)) (hb : f.needsB = true) (hr : s.read = .nop) :
      TransferFault t word s (.decode (.missingOperand f word.read))
  | readUnused (d : Register) (hw : s.write = .reg d) (f : AluFunction)
      (hf : t.alu[word.alu.toNat]? = some (some f)) (hb : f.needsB = true)
      (hr : s.read = .unused) :
      TransferFault t word s (.decode (.unusedCode .read word.read))
  | readNoRegister (d : Register) (hw : s.write = .reg d) (f : AluFunction)
      (hf : t.alu[word.alu.toNat]? = some (some f)) (hb : f.needsB = true)
      (hn : s.read ≠ .nop) (hu : s.read ≠ .unused) (hr : s.read.register? = none) :
      TransferFault t word s (.decode (.notARegister .read word.read s.read))

/-- The error with which a word is rejected under a table. -/
inductive Rejects (t : ControlTable) (word : MicroWord) : StepError → Prop where
  | writeCode (hw : 15 < word.write.toNat) :
      Rejects t word (.decode (.codeOutOfRange .write word.write))
  | readCode (hw : word.write.toNat ≤ 15) (hr : 15 < word.read.toNat) :
      Rejects t word (.decode (.codeOutOfRange .read word.read))
  | jumpCode (hw : word.write.toNat ≤ 15) (hr : word.read.toNat ≤ 15)
      (hj : 15 < word.jump.toNat) :
      Rejects t word (.decode (.codeOutOfRange .jump word.jump))
  | transfer (s : Selected) (e : StepError) (hs : Selects t word s) (ht : s.Transfers)
      (he : TransferFault t word s e) : Rejects t word e

/-- The error with which a cycle of the machine fails. -/
inductive Faults (m : Machine) : StepError → Prop where
  | empty (h : m.store.read m.sequencer.mpc = none) : Faults m (.emptyAddress m.sequencer.mpc)
  | rejected (word : MicroWord) (e : StepError) (h : m.store.read m.sequencer.mpc = some word)
      (he : Rejects m.table word e) : Faults m e

namespace Machine

/-- Why the codes of a word select nothing. -/
theorem select_eq_error_iff (m : Machine) (word : MicroWord) (e : StepError) :
    m.select word = .error e ↔
      (15 < word.write.toNat ∧ e = .decode (.codeOutOfRange .write word.write)) ∨
      (word.write.toNat ≤ 15 ∧ 15 < word.read.toNat ∧
        e = .decode (.codeOutOfRange .read word.read)) ∨
      (word.write.toNat ≤ 15 ∧ word.read.toNat ≤ 15 ∧ 15 < word.jump.toNat ∧
        e = .decode (.codeOutOfRange .jump word.jump)) := by
  unfold select
  -- The columns are decoded from left to right, and a failure hides those behind it.
  cases hw : m.table.decodeWrite word.write with
  | error ew =>
      rcases (ControlTable.entry_eq_error_iff _ _ _ _).mp hw with ⟨hlt, rfl⟩
      simp only [mapError_error, bind, Except.bind, Except.error.injEq, hlt,
        Nat.not_le_of_lt hlt, true_and, false_and, or_false]
      exact eq_comm
  | ok write =>
      have hwle := ControlTable.le_of_row _ _ _ ((ControlTable.entry_eq_ok_iff _ _ _ _).mp hw)
      cases hr : m.table.decodeRead word.read with
      | error er =>
          rcases (ControlTable.entry_eq_error_iff _ _ _ _).mp hr with ⟨hlt, rfl⟩
          simp only [mapError_ok, mapError_error, bind, Except.bind, Except.error.injEq, hlt, hwle,
            Nat.not_lt_of_le hwle, Nat.not_le_of_lt hlt, true_and, false_and, false_or, or_false]
          exact eq_comm
      | ok read =>
          have hrle := ControlTable.le_of_row _ _ _ ((ControlTable.entry_eq_ok_iff _ _ _ _).mp hr)
          cases hj : m.table.decodeJump word.jump with
          | error ej =>
              rcases (ControlTable.entry_eq_error_iff _ _ _ _).mp hj with ⟨hlt, rfl⟩
              simp only [mapError_ok, mapError_error, bind, Except.bind, Except.error.injEq, hlt,
                hwle, hrle, Nat.not_lt_of_le hwle, Nat.not_lt_of_le hrle, true_and, false_and,
                false_or]
              exact eq_comm
          | ok condition =>
              have hjle := ControlTable.le_of_row _ _ _
                ((ControlTable.entry_eq_ok_iff _ _ _ _).mp hj)
              simp only [mapError_ok, bind, Except.bind, pure, Except.pure, reduceCtorEq,
                Nat.not_lt_of_le hwle, Nat.not_lt_of_le hrle, Nat.not_lt_of_le hjle, false_and,
                and_false, or_false]

-- The errors of a missing operand.
theorem operandB_eq_error_iff (m : Machine) (f : AluFunction) (read : Slot) (code : UInt8)
    (e : DecodeError) :
    m.operandB f read code = .error e ↔
      f.needsB = true ∧
      ((read = .nop ∧ e = .missingOperand f code) ∨
        (read = .unused ∧ e = .unusedCode .read code) ∨
        (read ≠ .nop ∧ read ≠ .unused ∧ read.register? = none ∧
          e = .notARegister .read code read)) := by
  -- Every slot is of one of the four kinds, and the function reads it or not.
  cases read <;> cases hb : f.needsB <;>
    simp [operandB, hb, Slot.expectRegister, Except.map, Slot.register?, eq_comm]

/-- The operands of a word that goes through the ALU are missing for the reasons that the
    relation lists, looked for in its order. -/
theorem operands_eq_error_iff (m : Machine) (word : MicroWord) (s : Selected) (e : StepError) :
    m.operands word s = .error e ↔ TransferFault m.table word s e := by
  constructor
  · intro h
    unfold operands at h
    rcases s.write.expectRegister_cases .write word.write with
      ⟨d, hd, hx⟩ | ⟨hu, hx⟩ | ⟨hu, hn, hx⟩
    · rw [hx] at h
      cases hf : m.table.decodeAlu word.alu with
      | error ef =>
          rcases (ControlTable.decodeAlu_eq_error_iff _ _ _).mp hf with ⟨hrow, rfl⟩
          rw [hf] at h
          cases h
          exact .noFunction d hd hrow
      | ok f =>
          have hrow := (ControlTable.decodeAlu_eq_ok_iff _ _ _).mp hf
          cases hb : m.operandB f s.read word.read with
          | ok b =>
              simp only [hf, hb, mapError_ok, bind, Except.bind, pure, Except.pure,
                reduceCtorEq] at h
          | error eb =>
              simp only [hf, hb, mapError_ok, mapError_error, bind, Except.bind,
                Except.error.injEq] at h
              rw [← h]
              rcases (m.operandB_eq_error_iff f s.read word.read eb).mp hb with
                ⟨hneed, ⟨hr, rfl⟩ | ⟨hr, rfl⟩ | ⟨hn, hu, hr, rfl⟩⟩
              · exact .noOperand d hd f hrow hneed hr
              · exact .readUnused d hd f hrow hneed hr
              · exact .readNoRegister d hd f hrow hneed hn hu hr
    · rw [hx] at h
      cases h
      exact .writeUnused hu
    · rw [hx] at h
      cases h
      exact .writeNoRegister hu hn
  · intro h
    -- A fault of the operand leaves the destination and the function in order.
    have hread : ∀ (d : Register) (f : AluFunction) (eb : DecodeError), s.write = .reg d →
        m.table.alu[word.alu.toNat]? = some (some f) →
        m.operandB f s.read word.read = .error eb → m.operands word s = .error (.decode eb) := by
      intro d f eb hw hf hb
      simp only [operands, hw, (ControlTable.decodeAlu_eq_ok_iff _ _ _).mpr hf, hb,
        Slot.expectRegister, mapError_ok, mapError_error, bind, Except.bind]
    cases h with
    | writeUnused hw => rw [operands, hw]; rfl
    | writeNoRegister hu hw =>
        rcases s.write.expectRegister_cases .write word.write with
          ⟨d, hd, _⟩ | ⟨hu', _⟩ | ⟨_, _, hx⟩
        · rw [hd] at hw; cases hw
        · exact absurd hu' hu
        · rw [operands, hx]; rfl
    | noFunction d hw hf =>
        rw [operands, hw, (ControlTable.decodeAlu_eq_error_iff _ _ _).mpr ⟨hf, rfl⟩]
        rfl
    | noOperand d hw f hf hb hr =>
        exact hread d f _ hw hf
          ((m.operandB_eq_error_iff f s.read word.read _).mpr ⟨hb, Or.inl ⟨hr, rfl⟩⟩)
    | readUnused d hw f hf hb hr =>
        exact hread d f _ hw hf
          ((m.operandB_eq_error_iff f s.read word.read _).mpr ⟨hb, Or.inr (Or.inl ⟨hr, rfl⟩)⟩)
    | readNoRegister d hw f hf hb hn hu hr =>
        exact hread d f _ hw hf
          ((m.operandB_eq_error_iff f s.read word.read _).mpr
            ⟨hb, Or.inr (Or.inr ⟨hn, hu, hr, rfl⟩)⟩)

theorem plan_of_select_error (m : Machine) (word : MicroWord) (e : StepError)
    (h : m.select word = .error e) : m.plan word = (.error e, []) := by
  rw [plan, h]

/-- Planning fails exactly if the word is rejected. -/
theorem plan_eq_error_iff (m : Machine) (word : MicroWord) (e : StepError) :
    (m.plan word).1 = .error e ↔ Rejects m.table word e := by
  constructor
  · intro h
    cases hsel : m.select word with
    | error es =>
        rw [m.plan_of_select_error word es hsel, Except.error.injEq] at h
        rw [← h]
        rcases (m.select_eq_error_iff word es).mp hsel with
          ⟨hw, rfl⟩ | ⟨hw, hr, rfl⟩ | ⟨hw, hr, hj, rfl⟩
        · exact .writeCode hw
        · exact .readCode hw hr
        · exact .jumpCode hw hr hj
    | ok s =>
        have hs : Selects m.table word s := (m.select_eq_ok_iff word s).mp hsel
        -- A word that decodes can fail only if it transfers.
        cases hi : s.increment? with
        | some action => rw [plan_of_increment m word s action hs hi] at h; cases h
        | none =>
            have hn : ¬ s.Counts := s.not_counts_of_increment? hi
            by_cases hw : s.write = .nop
            · rw [plan_of_idle m word s hs hn hw] at h; cases h
            · rw [plan_of_transfers m word s hs ⟨hn, hw⟩] at h
              cases ho : m.operands word s with
              | ok o => rw [ho] at h; cases h
              | error eo =>
                  rw [ho, Except.error.injEq] at h
                  rw [← h]
                  exact .transfer s eo hs ⟨hn, hw⟩ ((m.operands_eq_error_iff word s eo).mp ho)
  · intro h
    cases h with
    | writeCode hw =>
        rw [m.plan_of_select_error word _
          ((m.select_eq_error_iff word _).mpr (Or.inl ⟨hw, rfl⟩))]
    | readCode hw hr =>
        rw [m.plan_of_select_error word _
          ((m.select_eq_error_iff word _).mpr (Or.inr (Or.inl ⟨hw, hr, rfl⟩)))]
    | jumpCode hw hr hj =>
        rw [m.plan_of_select_error word _
          ((m.select_eq_error_iff word _).mpr (Or.inr (Or.inr ⟨hw, hr, hj, rfl⟩)))]
    | transfer s e hs ht he =>
        rw [plan_of_transfers m word s hs ht, (m.operands_eq_error_iff word s e).mpr he]

/-- A step fails exactly if the word is rejected. -/
theorem step_eq_error_iff (m : Machine) (word : MicroWord) (e : StepError) :
    (m.step word).result = .error e ↔ Rejects m.table word e := by
  rw [← m.plan_eq_error_iff word e]
  unfold step
  rcases m.plan word with ⟨_ | p, log⟩
  · simp only [Except.error.injEq]
  · simp only [reduceCtorEq]

/-- A step that fails leaves the machine as it was. -/
theorem step_machine_of_error (m : Machine) (word : MicroWord) (e : StepError)
    (h : (m.step word).result = .error e) : (m.step word).machine = m := by
  unfold step at h ⊢
  rcases hp : m.plan word with ⟨_ | p, log⟩
  · rfl
  · rw [hp] at h; cases h

/-- A cycle fails exactly if nothing is programmed or the word there is rejected. -/
theorem cycle_eq_error_iff (m : Machine) (e : StepError) :
    m.cycle.result = .error e ↔ Faults m e := by
  unfold cycle
  constructor
  · intro h
    cases hread : m.store.read m.sequencer.mpc with
    | none => rw [hread] at h; cases h; exact .empty hread
    | some word =>
        rw [hread] at h
        exact .rejected word e hread ((m.step_eq_error_iff word e).mp h)
  · intro h
    cases h with
    | empty hread => rw [hread]
    | rejected word e hread he => rw [hread]; exact (m.step_eq_error_iff word e).mpr he

/-- A cycle that fails leaves the machine as it was. -/
theorem cycle_machine_of_error (m : Machine) (e : StepError) (h : m.cycle.result = .error e) :
    m.cycle.machine = m := by
  unfold cycle at h ⊢
  cases hread : m.store.read m.sequencer.mpc with
  | none => rfl
  | some word => rw [hread] at h; exact m.step_machine_of_error word e h

end Machine

/-- A word is rejected with one error, the first that applies. -/
theorem Rejects.unique {t : ControlTable} {word : MicroWord} {e e' : StepError}
    (h : Rejects t word e) (h' : Rejects t word e') : e = e' := by
  have he := ((Machine.new t).step_eq_error_iff word e).mpr h
  rw [((Machine.new t).step_eq_error_iff word e').mpr h'] at he
  exact (Except.error.inj he).symm

/-- Steps and cycles either take place as a whole or not at all. One that fails leaves every part
    of the machine as it was, whatever its registers, its store and its table; and it fails with
    the first error that applies to the word, which is the only one. -/
theorem failure_atomic (m : Machine) :
    (∀ word e, (m.step word).result = .error e →
      (m.step word).machine = m ∧ Rejects m.table word e ∧
        ∀ e', Rejects m.table word e' → e' = e) ∧
    (∀ word e, Rejects m.table word e → (m.step word).result = .error e) ∧
    (∀ e, m.cycle.result = .error e →
      m.cycle.machine = m ∧ Faults m e ∧ ∀ e', Faults m e' → e' = e) ∧
    (∀ e, Faults m e → m.cycle.result = .error e) := by
  refine ⟨?_, ?_, ?_, ?_⟩
  · intro word e h
    have hr : Rejects m.table word e := (m.step_eq_error_iff word e).mp h
    exact ⟨m.step_machine_of_error word e h, hr, fun e' hr' => hr'.unique hr⟩
  · intro word e hr
    exact (m.step_eq_error_iff word e).mpr hr
  · intro e h
    refine ⟨m.cycle_machine_of_error e h, (m.cycle_eq_error_iff e).mp h, fun e' hf => ?_⟩
    have h' := (m.cycle_eq_error_iff e').mpr hf
    rw [h] at h'
    exact (Except.error.inj h').symm
  · intro e hf
    exact (m.cycle_eq_error_iff e).mpr hf

/-- A word whose write code is unused, after fifteen words have run. -/
theorem failure_atomic_unused :
    let m : Machine := { cycles := 15, status := { carry := true } }
    let word : MicroWord := { write := 12, read := 1, alu := 6, jump := 2, jumpAddress := 0x40 }
    (m.step word).result = .error (.decode (.unusedCode .write 12)) ∧ (m.step word).machine = m :=
  ⟨rfl, ((failure_atomic _).1 _ _ rfl).1⟩

end Microcode
