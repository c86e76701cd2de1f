import Microcode.Proofs.Flags
import Microcode.Proofs.Histories
/-!
# What the Flags Remember

The status word, said of the history of the machine.

Four of the flags belong to the ALU. Words that count, words that only sequence and words that are
rejected do not touch them, so however much of that has happened since, they are the flags of the
last transfer, and they are all unset before the first one. The fifth flag belongs to the serial
line. A transfer makes a new status word, but it takes this flag over, so it is what the line was
last driven to.

## Main definitions

* `ExecutedWord.isTransfer`: The word went through the ALU.
* `Computes`: The register that an executed word wrote, and the number that the ALU computed.
* `StatusWord.Classifies`: What the flags say about a byte.
* `StatusWord.Judges`: What the flags say about a number and the byte that is left of it.
* `Operation.driven?`, `lastDriven`: What the serial line was driven to.
* `Shows`: The flags of the ALU belong to a history.

## Theorems

* `StatusWord.Describes.judges`: A number judged by its flags.
* `status_of_executed`: What an executed word does to the status word.
* `line_of_executed`, `line_operate`, `line_operateAll`: Only driving it changes the serial line.
* `shows_start`, `shows_word`, `shows_rest`: The flags of the ALU follow the transfers.
* `flags_remember`: The status word of a machine belongs to its history.
-/

namespace Microcode

/-- The word went through the ALU. -/
def ExecutedWord.isTransfer (x : ExecutedWord) : Bool :=
  x.result.destination.isSome

/-- The register that an executed word wrote, and the number that the ALU computed for it, before
    it was cut to a byte. The operands are those that the word found. -/
inductive Computes (x : ExecutedWord) : Register → Int → Prop where
  | transfer (s : Selected) (hs : Selects x.machine.table x.word s) (ht : s.Transfers)
      (d : Register) (hw : s.write = .reg d) (f : AluFunction)
      (hf : x.machine.table.alu[x.word.alu.toNat]? = some (some f)) (b : UInt8)
      (hb : Operand x.machine.registers f s.read b) :
      Computes x d (f.value (x.machine.registers.get .aluIn) b)

namespace StatusWord

/-- What the flags say about a byte, read as a signed number. -/
structure Classifies (s : StatusWord) (byte : UInt8) : Prop where
  positive : s.positive = true ↔ 0 < byte.toInt8.toInt
  zero : s.zero = true ↔ byte.toInt8.toInt = 0
  negative : s.negative = true ↔ byte.toInt8.toInt < 0

/-- What the flags say about a number and the byte that is left of it. Without a carry the number
    is the byte; with one, it ran over and counts as positive, or it fell below zero. -/
structure Judges (s : StatusWord) (value : Int) (byte : UInt8) : Prop where
  one : [s.positive, s.zero, s.negative].count true = 1
  fits : s.carry = false → value = byte.toNat ∧ s.Classifies byte
  carries : s.carry = true →
    (255 < value ∧ s.positive = true) ∨ (value < 0 ∧ s.Classifies byte)

/-- A number that does not run over is classified by its byte. -/
theorem Describes.classifies {s : StatusWord} {value : Int} {byte : UInt8}
    (h : s.Describes value byte) (hle : value ≤ 255) : s.Classifies byte := by
  refine ⟨?_, ?_, ?_⟩
  · rw [h.positive]
    exact or_iff_right (Int.not_lt.mpr hle)
  · rw [h.zero]
    exact and_iff_right hle
  · rw [h.negative]
    exact and_iff_right hle

-- The serial line says nothing about a number.
theorem Describes.driven {s : StatusWord} {value : Int} {byte : UInt8}
    (h : s.Describes value byte) (dataNotAvailable : Bool) :
    { s with dataNotAvailable }.Describes value byte :=
  ⟨h.carry, h.positive, h.zero, h.negative, h.one⟩

/-- A number judged by its flags. -/
theorem Describes.judges {s : StatusWord} {value : Int} (h : s.Describes value (lowByte value)) :
    s.Judges value (lowByte value) := by
  refine ⟨h.one, ?_, ?_⟩
  · intro hc
    have hin : ¬ (value < 0 ∨ 255 < value) := by
      rw [← h.carry, hc]
      exact Bool.false_ne_true
    refine ⟨?_, h.classifies (by omega)⟩
    rw [lowByte_toNat]
    omega
  · intro hc
    rcases h.carry.mp hc with hlt | hgt
    · exact Or.inr ⟨hlt, h.classifies (by omega)⟩
    · exact Or.inl ⟨hgt, h.positive.mpr (Or.inl hgt)⟩

end StatusWord

/-- What an executed word does to the status word: nothing, unless it is a transfer, whose number
    decides all flags but one. -/
theorem status_of_executed (x : ExecutedWord) :
    x.result.status = x.after.status ∧
    ((x.isTransfer = false ∧ x.after.status = x.machine.status) ∨
      ∃ d value, x.result.destination = some d ∧ Computes x d value ∧
        x.after.registers.get d = lowByte value ∧
        x.after.status = .ofValue value x.machine.status.dataNotAvailable) := by
  rcases performs_of_executed x with ⟨s, action, status, hs, hp, hr, hm⟩
  refine ⟨by rw [hr, hm], ?_⟩
  rw [ExecutedWord.isTransfer, hr, hm]
  cases hp with
  | transfer d f b hn hw hf hb =>
      have ht : s.Transfers := ⟨hn, by rw [hw]; exact Slot.noConfusion⟩
      refine Or.inr ⟨d, _, rfl, .transfer s hs ht d hw f hf b hb, ?_, rfl⟩
      rw [Action.perform, RegisterFile.get_set, if_pos rfl]
      rfl
  | _ => exact Or.inl ⟨rfl, rfl⟩

/-- No executed word changes the serial line. -/
theorem line_of_executed (x : ExecutedWord) :
    x.after.status.dataNotAvailable = x.machine.status.dataNotAvailable := by
  rcases (status_of_executed x).2 with ⟨_, hs⟩ | ⟨_, value, _, _, _, hs⟩
  · rw [hs]
  · rw [hs, StatusWord.ofValue_dataNotAvailable]

/-- What an operation drives the serial line to, if it does. -/
def Operation.driven? : Operation → Option Bool
  | .drive unavailable => some unavailable
  | _ => none

/-- What the serial line was last driven to. -/
def lastDriven (ops : List Operation) : Bool :=
  (ops.filterMap Operation.driven?).getLast?.getD false

namespace Machine

theorem line_step (m : Machine) (word : MicroWord) :
    (m.step word).machine.status.dataNotAvailable = m.status.dataNotAvailable := by
  cases h : (m.step word).result with
  | ok r => exact line_of_executed ⟨m, word, r, h⟩
  | error e => rw [m.step_machine_of_error word e h]

theorem line_operate (m : Machine) (op : Operation) :
    (m.operate op).status.dataNotAvailable = op.driven?.getD m.status.dataNotAvailable := by
  cases op with
  | step word => exact m.line_step word
  | cycle =>
      rw [operate, cycle]
      cases m.store.read m.sequencer.mpc with
      | none => rfl
      | some word => exact m.line_step word
  | _ => rfl

/-- The serial line is what it was last driven to. -/
theorem line_operateAll (m : Machine) (hm : m.Fresh) (ops : List Operation) :
    (m.operateAll ops).status.dataNotAvailable = lastDriven ops := by
  induction ops using List.reverseRecOn with
  | nil =>
      rw [operateAll, List.foldl_nil, hm.status]
      rfl
  | append_singleton ops op ih =>
      rw [operateAll_concat, line_operate, ih, lastDriven, lastDriven, List.filterMap_append]
      cases hop : op.driven? with
      | none => rw [List.filterMap_cons_none hop, List.filterMap_nil, List.append_nil]; rfl
      | some b => rw [List.filterMap_cons_some hop, List.filterMap_nil, List.getLast?_concat]; rfl

end Machine

/-- The flags of the ALU belong to a history: they are those of its last transfer. -/
def Shows (past : List ExecutedWord) (m : Machine) : Prop :=
  m.status = { (ExecutedWord.latest? ExecutedWord.isTransfer past).elim {}
    (fun x => x.result.status) with dataNotAvailable := m.status.dataNotAvailable }

theorem shows_start (m : Machine) (h : m.Fresh) : Shows [] m := by
  rw [Shows, h.status]
  rfl

/-- A transfer shows its own flags, and any other word shows those that were there. -/
theorem shows_word (past : List ExecutedWord) (x : ExecutedWord) (h : Shows past x.machine) :
    Shows (past ++ [x]) x.after := by
  rcases status_of_executed x with ⟨hresult, ⟨hidle, hs⟩ | ⟨d, value, hd, _, _, _⟩⟩
  · rw [Shows, ExecutedWord.latest?_concat, if_neg (by rw [hidle]; exact Bool.false_ne_true), hs]
    exact h
  · have hx : x.isTransfer = true := by rw [ExecutedWord.isTransfer, hd]; rfl
    rw [Shows, ExecutedWord.latest?_concat, if_pos hx, Option.elim_some, hresult]

/-- While a machine rests, nothing but the serial line changes. -/
theorem shows_rest (past : List ExecutedWord) (m m' : Machine) (hrest : m.Rests m')
    (h : Shows past m) : Shows past m' :=
  hrest.status.trans (congrArg
    (fun s : StatusWord => { s with dataNotAvailable := m'.status.dataNotAvailable }) h)

/-- After any operations on a fresh machine the status word belongs to the history. The flag of the
    serial line is what it was last driven to, and no word changes it. The others are unset before
    the first transfer, and afterwards they are those of the last one, whatever was executed or
    rejected since: they judge the number that it computed and the byte that it wrote. -/
theorem flags_remember (m : Machine) (hm : m.Fresh) (ops : List Operation) :
    let s := (m.operateAll ops).status
    let last := ExecutedWord.latest? ExecutedWord.isTransfer (m.history ops)
    s.dataNotAvailable = lastDriven ops ∧
    (∀ x : ExecutedWord,
      x.after.status.dataNotAvailable = x.machine.status.dataNotAvailable) ∧
    (last = none →
      s.positive = false ∧ s.zero = false ∧ s.negative = false ∧ s.carry = false) ∧
    (∀ x, last = some x →
      s = { x.result.status with dataNotAvailable := s.dataNotAvailable } ∧
      ∃ d value, x.result.destination = some d ∧ Computes x d value ∧
        ((x.after.registers.get d).toNat : Int) = value % 256 ∧
        s.Judges value (x.after.registers.get d)) := by
  intro s last
  -- The status belongs to the history at the start, and each operation keeps it so.
  have hshows : Shows (m.history ops) (m.operateAll ops) :=
    Machine.history_induction (shows_start m hm) shows_word shows_rest ops
  refine ⟨m.line_operateAll hm ops, line_of_executed, ?_, ?_⟩
  · intro hnone
    have hs : s = { dataNotAvailable := s.dataNotAvailable } := by
      refine hshows.trans ?_
      rw [show ExecutedWord.latest? _ _ = none from hnone]
      rfl
    rw [hs]
    exact ⟨rfl, rfl, rfl, rfl⟩
  · intro x hx
    have hs : s = { x.result.status with dataNotAvailable := s.dataNotAvailable } := by
      refine hshows.trans ?_
      rw [show ExecutedWord.latest? _ _ = some x from hx]
      rfl
    have hkind : x.isTransfer = true := by
      have hmem := List.mem_of_getLast? hx
      exact (List.mem_filter.mp hmem).2
    rcases status_of_executed x with ⟨hresult, ⟨hidle, _⟩ | ⟨d, value, hd, hc, hbyte, hflags⟩⟩
    · exact absurd (hidle.symm.trans hkind) Bool.false_ne_true
    · refine ⟨hs, d, value, hd, hc, ?_, ?_⟩
      · rw [hbyte, lowByte_toNat]
      · have hdescribes := StatusWord.ofValue_describes value x.machine.status.dataNotAvailable
        rw [← hflags, ← hresult] at hdescribes
        rw [hbyte, hs]
        exact (hdescribes.driven _).judges

/-- Doubling the latch in front of the ALU runs over. The flags of that are still there after a word
    that counts, one that is rejected, and a change of the serial line. -/
theorem flags_remember_double :
    let double : MicroWord := { write := 13, read := 13, alu := 8, jump := 0, jumpAddress := 0 }
    let count : MicroWord := { write := 14, read := 0, alu := 0, jump := 0, jumpAddress := 0 }
    let unused : MicroWord := { write := 12, read := 0, alu := 0, jump := 0, jumpAddress := 0 }
    let m : Machine := .new .builtin
    let ops : List Operation := [.step double, .step count, .step unused, .drive true]
    let s := (m.operateAll ops).status
    m.Fresh ∧ s = { positive := true, carry := true, dataNotAvailable := true } ∧
      ∃ x : ExecutedWord, x.word = double ∧
        ExecutedWord.latest? ExecutedWord.isTransfer (m.history ops) = some x ∧
        ∃ d value, x.result.destination = some d ∧ Computes x d value ∧
          ((x.after.registers.get d).toNat : Int) = value % 256 ∧
          s.Judges value (x.after.registers.get d) := by
  intro double count unused m ops s
  have hm : m.Fresh := .created _
  -- The results are said of closed machines, so that they are computed.
  have hdouble : ((Machine.new .builtin).step double).result =
      .ok ⟨1, { positive := true, carry := true }, true, some .aluIn⟩ := rfl
  have hcount : (((Machine.new .builtin).step double).machine.step count).result =
      .ok ⟨2, { positive := true, carry := true }, true, none⟩ := rfl
  have hunused :
      ((((Machine.new .builtin).step double).machine.step count).machine.step unused).result =
        .error (.decode (.unusedCode .write 12)) := rfl
  let doubled : ExecutedWord := ⟨m, double, _, hdouble⟩
  let counted : ExecutedWord := ⟨doubled.after, count, _, hcount⟩
  have hhistory : m.history ops = [doubled, counted] := by
    have hfirst : m.history ops = doubled :: doubled.after.history (ops.drop 1) :=
      Machine.history_of_executed doubled _
    have hsecond :
        doubled.after.history (ops.drop 1) = counted :: counted.after.history (ops.drop 2) :=
      Machine.history_of_executed counted _
    have hthird : counted.after.history (ops.drop 2) =
        (counted.after.operate (.step unused)).history [.drive true] :=
      counted.after.history_of_none (.step unused) _
        (counted.after.attempt?_of_error unused _ hunused)
    rw [hfirst, hsecond, hthird]
    rfl
  have hlast : ExecutedWord.latest? ExecutedWord.isTransfer (m.history ops) = some doubled := by
    rw [hhistory]
    rfl
  have hwords := flags_remember m hm ops
  have hflags := hwords.2.2.2 doubled hlast
  rw [hwords.1] at hflags
  exact ⟨hm, hflags.1, doubled, rfl, hlast, hflags.2⟩

end Microcode
