import Microcode.Proofs.BoundedRuns
/-!
# What Execution Sees of a Word

The codes of a word matter only through what they decode to.

The executor hands the codes of a word around: they are looked up in the table, they are named in
errors, and they end up in the pipeline latches. Nothing reads the latches, and nothing looks into
an error. What is left of the codes is `ControlTable.meaning`: the first field that does not
decode, or else the slots, the condition and the function that the codes select, with the jump
address. Two machines that agree in what execution reads, and that find words with the same meaning
at the same addresses, therefore run alike, although neither their words nor their tables need to
have anything in common.

The proof follows a step through the two relations that describe it. `performs_congr` carries
over what an executed word performs, `rejects_congr` why a word is rejected. A step keeps store
and table, so what one step preserves a whole run preserves.

## Main definitions

* `Meaning`, `ControlTable.meaning`: What a word comes to under a table.
* `StepError.withoutCode`: An error without the code that it names.
* `Machine.Agrees`: Two machines differ at most in their latches, stores and tables.
* `Outcome.Agrees`: Two operations end alike, but for the codes that errors name.
* `Machine.Interchangeable`: Two machines agree and find words with the same meaning.
* `Machine.RunsAlike`: Two machines agree after any number of cycles and after any run.

## Theorems

* `meaning_eq_decoded_iff`, `meaning_eq_undecoded_iff`: The meaning read off the table.
* `performs_congr`, `rejects_congr`: Words with the same meaning do the same or fail alike.
* `step_agrees`, `cycle_agrees`: One step on two machines.
* `Interchangeable.after`: Any number of cycles on two machines.
* `Interchangeable.runsAlike`: Interchangeable machines run alike.
-/

namespace Microcode

/-- What a word comes to under a control table. -/
inductive Meaning where
  /-- The first field that every word needs and that does not decode. -/
  | undecoded (field : Field)
  | decoded (selected : Selected) (function : Option AluFunction) (jumpAddress : UInt8)

/-- What a word comes to under a control table. A code without a function leaves the function out,
    since a word that does not go through the ALU needs none. -/
def ControlTable.meaning (t : ControlTable) (word : MicroWord) : Meaning :=
  match t.decodeWrite word.write, t.decodeRead word.read, t.decodeJump word.jump with
  | .error _, _, _ => .undecoded .write
  | .ok _, .error _, _ => .undecoded .read
  | .ok _, .ok _, .error _ => .undecoded .jump
  | .ok write, .ok read, .ok condition =>
    .decoded { write, read, condition } (t.decodeAlu word.alu).toOption word.jumpAddress

/-- A decode error without the code that it names. -/
def DecodeError.withoutCode : DecodeError → DecodeError
  | codeOutOfRange field _ => .codeOutOfRange field 0
  | unusedCode field _ => .unusedCode field 0
  | notARegister field _ slot => .notARegister field 0 slot
  | missingOperand function _ => .missingOperand function 0

/-- An error without the code that it names. What is left is its kind, with the field, the slot,
    the function or the address that it is about. -/
def StepError.withoutCode : StepError → StepError
  | decode e => .decode e.withoutCode
  | unsupported _ => .unsupported ⟨0⟩
  | emptyAddress address => .emptyAddress address

/-- Two machines differ at most in their latches, their stores and their tables. -/
structure Machine.Agrees (m m' : Machine) : Prop where
  registers : m.registers = m'.registers
  status : m.status = m'.status
  mux : m.sequencer.mux = m'.sequencer.mux
  mrtn : m.sequencer.mrtn = m'.sequencer.mrtn
  mpc : m.sequencer.mpc = m'.sequencer.mpc
  cycles : m.cycles = m'.cycles

/-- Two operations leave machines that agree, and both succeed with the same result or both fail
    with errors that differ at most in the code that they name. -/
structure Outcome.Agrees {α : Type} (o o' : Outcome α) : Prop where
  machine : o.machine.Agrees o'.machine
  result : o.result.mapError StepError.withoutCode = o'.result.mapError StepError.withoutCode

/-- Two machines agree, and at every address they find words with the same meaning, each under its
    own table, or both find nothing. -/
structure Machine.Interchangeable (m m' : Machine) : Prop where
  agrees : m.Agrees m'
  words : ∀ address, (m.store.read address).map m.table.meaning =
    (m'.store.read address).map m'.table.meaning

/-- Two machines agree after any number of cycles, with what each cycle reports, and after a run
    with any limit. -/
structure Machine.RunsAlike (m m' : Machine) : Prop where
  after : ∀ n, (m.after n).Agrees (m'.after n)
  cycle : ∀ n, (m.after n).cycle.Agrees (m'.after n).cycle
  limited : ∀ limit, (m.runLimited limit).Agrees (m'.runLimited limit)

namespace ControlTable

theorem decodeAlu_toOption (t : ControlTable) (code : UInt8) :
    (t.decodeAlu code).toOption = t.alu[code.toNat]?.join := by
  unfold decodeAlu
  rcases t.alu[code.toNat]? with _ | _ | f <;> rfl

theorem decodeAlu_toOption_iff (t : ControlTable) (code : UInt8) (f : AluFunction) :
    (t.decodeAlu code).toOption = some f ↔ t.alu[code.toNat]? = some (some f) := by
  rw [decodeAlu_toOption, Option.join_eq_some_iff]

theorem decodeAlu_toOption_none_iff (t : ControlTable) (code : UInt8) :
    (t.decodeAlu code).toOption = none ↔
      t.alu[code.toNat]? = some none ∨ 15 < code.toNat := by
  rw [decodeAlu_toOption, Option.join_eq_none_iff, Vector.getElem?_eq_none_iff, or_comm]
  exact or_congr_right Nat.succ_le_iff.symm

/-- A word that decodes means the rows that its codes select. -/
theorem meaning_eq_decoded_iff (t : ControlTable) (word : MicroWord) (s : Selected)
    (function : Option AluFunction) (jumpAddress : UInt8) :
    t.meaning word = .decoded s function jumpAddress ↔
      Selects t word s ∧ (t.decodeAlu word.alu).toOption = function ∧
        word.jumpAddress = jumpAddress := by
  have hselects : Selects t word s ↔ t.decodeWrite word.write = .ok s.write ∧
      t.decodeRead word.read = .ok s.read ∧ t.decodeJump word.jump = .ok s.condition := by
    simp only [decodeWrite, decodeRead, decodeJump, entry_eq_ok_iff]
    exact ⟨fun h => ⟨h.write, h.read, h.condition⟩, fun h => ⟨h.1, h.2.1, h.2.2⟩⟩
  rw [hselects]
  unfold meaning
  cases t.decodeWrite word.write <;> cases t.decodeRead word.read <;>
    cases t.decodeJump word.jump <;> cases s <;> simp [and_assoc]

/-- A code has a row or is out of range. -/
theorem entry_cases {α : Type} (column : Vector α 16) (field : Field) (code : UInt8) :
    (∃ a, entry column field code = .ok a ∧ code.toNat ≤ 15) ∨
    (∃ e, entry column field code = .error e ∧ 15 < code.toNat) := by
  cases h : entry column field code with
  | ok a => exact Or.inl ⟨a, rfl, le_of_row _ _ _ ((entry_eq_ok_iff _ _ _ _).mp h)⟩
  | error e => exact Or.inr ⟨e, rfl, ((entry_eq_error_iff _ _ _ _).mp h).1⟩

/-- A word that does not decode means the first of its codes that is out of range. -/
theorem meaning_eq_undecoded_iff (t : ControlTable) (word : MicroWord) (field : Field) :
    t.meaning word = .undecoded field ↔
      (field = .write ∧ 15 < word.write.toNat) ∨
      (field = .read ∧ word.write.toNat ≤ 15 ∧ 15 < word.read.toNat) ∨
      (field = .jump ∧ word.write.toNat ≤ 15 ∧ word.read.toNat ≤ 15 ∧ 15 < word.jump.toNat) := by
  unfold meaning decodeWrite decodeRead decodeJump
  rcases entry_cases t.write .write word.write with ⟨_, hw, hwle⟩ | ⟨_, hw, hwlt⟩
  · rcases entry_cases t.read .read word.read with ⟨_, hr, hrle⟩ | ⟨_, hr, hrlt⟩
    · rcases entry_cases t.jump .jump word.jump with ⟨_, hj, hjle⟩ | ⟨_, hj, hjlt⟩
      · simp [hw, hr, hj, hwle, hrle, hjle, Nat.not_lt_of_le]
      · simp [hw, hr, hj, hwle, hrle, hjlt, Nat.not_lt_of_le, eq_comm]
    · simp [hw, hr, hwle, hrlt, Nat.not_lt_of_le, Nat.not_le_of_lt, eq_comm]
  · simp [hw, hwlt, Nat.not_le_of_lt, eq_comm]

end ControlTable

/-- A word performs on a machine what a word with the same meaning performs on another machine
    that agrees with it. -/
theorem performs_congr (m m' : Machine) (word word' : MicroWord) (s : Selected)
    (action : Action) (status : StatusWord) (hm : m.Agrees m')
    (hf : (m.table.decodeAlu word.alu).toOption = (m'.table.decodeAlu word'.alu).toOption)
    (hp : Performs m word s action status) : Performs m' word' s action status := by
  cases hp with
  | both h => rw [hm.status]; exact .both h
  | pc hw hr => rw [hm.status]; exact .pc hw hr
  | mar hw hr => rw [hm.status]; exact .mar hw hr
  | idle h hw => rw [hm.status]; exact .idle h hw
  | transfer d f b h hw hrow hb =>
      rw [← ControlTable.decodeAlu_toOption_iff, hf, ControlTable.decodeAlu_toOption_iff] at hrow
      rw [hm.registers] at hb ⊢
      rw [hm.status]
      exact .transfer d f b h hw hrow hb

-- The faults of a word that goes through the ALU are those of the slots and of the function.
theorem transferFault_congr (t t' : ControlTable) (word word' : MicroWord) (s : Selected)
    (e : StepError)
    (hf : (t.decodeAlu word.alu).toOption = (t'.decodeAlu word'.alu).toOption)
    (h : TransferFault t word s e) :
    ∃ e', TransferFault t' word' s e' ∧ e.withoutCode = e'.withoutCode := by
  have hsome : ∀ f, t.alu[word.alu.toNat]? = some (some f) →
      t'.alu[word'.alu.toNat]? = some (some f) := by
    intro f hrow
    rw [← ControlTable.decodeAlu_toOption_iff, ← hf, ControlTable.decodeAlu_toOption_iff]
    exact hrow
  cases h with
  | writeUnused hw => exact ⟨_, .writeUnused hw, rfl⟩
  | writeNoRegister hu hw => exact ⟨_, .writeNoRegister hu hw, rfl⟩
  | noFunction d hw hrow =>
      rw [← ControlTable.decodeAlu_toOption_none_iff, hf,
        ControlTable.decodeAlu_toOption_none_iff] at hrow
      exact ⟨_, .noFunction d hw hrow, rfl⟩
  | noOperand d hw f hrow hb hr => exact ⟨_, .noOperand d hw f (hsome f hrow) hb hr, rfl⟩
  | readUnused d hw f hrow hb hr => exact ⟨_, .readUnused d hw f (hsome f hrow) hb hr, rfl⟩
  | readNoRegister d hw f hrow hb hn hu hr =>
      exact ⟨_, .readNoRegister d hw f (hsome f hrow) hb hn hu hr, rfl⟩

/-- A word is rejected for the same reason as a word with the same meaning under another table. -/
theorem rejects_congr (t t' : ControlTable) (word word' : MicroWord) (e : StepError)
    (hmeaning : t.meaning word = t'.meaning word') (h : Rejects t word e) :
    ∃ e', Rejects t' word' e' ∧ e.withoutCode = e'.withoutCode := by
  -- The meaning tells at which column the decoding of a word ends.
  cases h with
  | writeCode hw =>
      rw [(t.meaning_eq_undecoded_iff word .write).mpr (by simp [hw]), eq_comm,
        ControlTable.meaning_eq_undecoded_iff] at hmeaning
      simp only [reduceCtorEq, true_and, false_and, or_false] at hmeaning
      exact ⟨_, .writeCode hmeaning, rfl⟩
  | readCode hw hr =>
      rw [(t.meaning_eq_undecoded_iff word .read).mpr (by simp [hw, hr]), eq_comm,
        ControlTable.meaning_eq_undecoded_iff] at hmeaning
      simp only [reduceCtorEq, true_and, false_and, or_false, false_or] at hmeaning
      exact ⟨_, .readCode hmeaning.1 hmeaning.2, rfl⟩
  | jumpCode hw hr hj =>
      rw [(t.meaning_eq_undecoded_iff word .jump).mpr (by simp [hw, hr, hj]), eq_comm,
        ControlTable.meaning_eq_undecoded_iff] at hmeaning
      simp only [reduceCtorEq, true_and, false_and, false_or] at hmeaning
      exact ⟨_, .jumpCode hmeaning.1 hmeaning.2.1 hmeaning.2.2, rfl⟩
  | transfer s e hs ht he =>
      rw [(t.meaning_eq_decoded_iff word s _ _).mpr ⟨hs, rfl, rfl⟩, eq_comm,
        ControlTable.meaning_eq_decoded_iff] at hmeaning
      obtain ⟨hs', hf, _⟩ := hmeaning
      obtain ⟨e', he', hcode⟩ := transferFault_congr t t' word word' s e hf.symm he
      exact ⟨e', .transfer s e' hs' ht he', hcode⟩

namespace Machine

/-- The next address depends on the counter, the return address and the jump address. -/
theorem Agrees.resolve {m m' : Machine} (h : m.Agrees m') (condition : JumpCondition)
    (target : UInt8) (status : StatusWord) :
    m.sequencer.resolve condition target status = m'.sequencer.resolve condition target status := by
  unfold Sequencer.resolve
  rw [h.mpc, h.mrtn]

/-- Words with the same meaning, executed by machines that agree, end alike. -/
theorem step_agrees (m m' : Machine) (word word' : MicroWord) (h : m.Agrees m')
    (hmeaning : m.table.meaning word = m'.table.meaning word') :
    (m.step word).Agrees (m'.step word') := by
  cases hr : (m.step word).result with
  | ok r =>
      obtain ⟨s, action, status, hs, hp, hresult, hleft⟩ :=
        (m.step_eq_ok_iff word r _).mp ⟨hr, rfl⟩
      rw [(m.table.meaning_eq_decoded_iff word s _ _).mpr ⟨hs, rfl, rfl⟩, eq_comm,
        ControlTable.meaning_eq_decoded_iff] at hmeaning
      obtain ⟨hs', hf, hjump⟩ := hmeaning
      have hp' := performs_congr m m' word word' s action status h hf.symm hp
      obtain ⟨hr', hleft'⟩ :=
        (m'.step_eq_ok_iff word' _ _).mpr ⟨s, action, status, hs', hp', rfl, rfl⟩
      -- What is executed leaves the codes in the latches and nowhere else.
      have hnext := h.resolve s.condition word.jumpAddress status
      rw [← hjump] at hnext hresult hleft
      refine ⟨?_, ?_⟩
      · rw [hleft, hleft', hnext, h.registers, h.cycles]
        exact ⟨rfl, rfl, rfl, rfl, rfl, rfl⟩
      · rw [hr, hr', hresult, hnext, h.registers]
  | error e =>
      obtain ⟨e', he', hcode⟩ := rejects_congr m.table m'.table word word' e hmeaning
        ((m.step_eq_error_iff word e).mp hr)
      have hr' := (m'.step_eq_error_iff word' e').mpr he'
      refine ⟨?_, ?_⟩
      · rw [m.step_machine_of_error word e hr, m'.step_machine_of_error word' e' hr']
        exact h
      · rw [hr, hr', mapError_error, mapError_error, hcode]

/-- A step keeps store and table. -/
theorem step_store_table (m : Machine) (word : MicroWord) :
    (m.step word).machine.store = m.store ∧ (m.step word).machine.table = m.table := by
  unfold step
  split <;> exact ⟨rfl, rfl⟩

/-- A cycle keeps store and table. -/
theorem cycle_store_table (m : Machine) :
    m.cycle.machine.store = m.store ∧ m.cycle.machine.table = m.table := by
  unfold cycle
  split
  · exact m.step_store_table _
  · exact ⟨rfl, rfl⟩

theorem after_store_table (m : Machine) (n : Nat) :
    (m.after n).store = m.store ∧ (m.after n).table = m.table := by
  induction n with
  | zero => exact ⟨rfl, rfl⟩
  | succ n ih =>
      rw [after_succ, (cycle_store_table _).1, (cycle_store_table _).2]
      exact ih

/-- Interchangeable machines end their next cycle alike. -/
theorem cycle_agrees (m m' : Machine) (h : m.Interchangeable m') :
    m.cycle.Agrees m'.cycle := by
  have hword := h.words m.sequencer.mpc
  unfold cycle
  rw [← h.agrees.mpc]
  rcases hread : m.store.read m.sequencer.mpc with _ | word <;>
    rcases hread' : m'.store.read m.sequencer.mpc with _ | word' <;>
    simp only [hread, hread', Option.map_none, Option.map_some, reduceCtorEq,
      Option.some.injEq] at hword
  · exact ⟨h.agrees, rfl⟩
  · exact m.step_agrees m' word word' h.agrees hword

/-- Interchangeable machines are interchangeable after any number of cycles. -/
theorem Interchangeable.after {m m' : Machine} (h : m.Interchangeable m') (n : Nat) :
    (m.after n).Interchangeable (m'.after n) := by
  induction n with
  | zero => exact h
  | succ n ih =>
      rw [after_succ, after_succ]
      refine ⟨(cycle_agrees _ _ ih).machine, fun address => ?_⟩
      rw [(cycle_store_table _).1, (cycle_store_table _).2, (cycle_store_table _).1,
        (cycle_store_table _).2]
      exact ih.words address

-- Outcomes that agree are both successes or both failures.
theorem Interchangeable.completes {m m' : Machine} (h : m.Interchangeable m') (n : Nat)
    (hm : m.Completes n) : m'.Completes n := by
  intro k hk
  obtain ⟨r, hr⟩ := hm k hk
  have hresult := (cycle_agrees _ _ (h.after k)).result
  rw [hr, mapError_ok, eq_comm, mapError_eq_ok_iff] at hresult
  exact ⟨r, hresult⟩

/-- Interchangeable machines end a run with any limit alike. -/
theorem runLimited_agrees (m m' : Machine) (limit : UInt64) (h : m.Interchangeable m') :
    (m.runLimited limit).Agrees (m'.runLimited limit) := by
  by_cases hall : m.Completes limit.toNat
  · rw [m.runLimited_of_completes limit hall,
      m'.runLimited_of_completes limit (h.completes _ hall)]
    exact ⟨(h.after _).agrees, rfl⟩
  · -- The first cycle that fails on one machine fails on the other, and none before it does.
    obtain ⟨k, e, hk, hbefore, he⟩ := m.first_failure _ hall
    have hresult := (cycle_agrees _ _ (h.after k)).result
    cases he' : (m'.after k).cycle.result with
    | ok r => rw [he, he', mapError_error, mapError_ok] at hresult; cases hresult
    | error e' =>
        rw [he, he'] at hresult
        rw [m.runLimited_of_fails limit k e hk hbefore he,
          m'.runLimited_of_fails limit k e' hk (h.completes k hbefore) he']
        refine ⟨(h.after k).agrees, ?_⟩
        rw [mapError_error, mapError_error, Except.error.injEq] at hresult
        rw [mapError_error, mapError_error, hresult]

/-- Interchangeable machines run alike. -/
theorem Interchangeable.runsAlike {m m' : Machine} (h : m.Interchangeable m') :
    m.RunsAlike m' where
  after n := (h.after n).agrees
  cycle n := cycle_agrees _ _ (h.after n)
  limited limit := runLimited_agrees m m' limit h

end Machine

end Microcode
