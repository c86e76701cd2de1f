import Microcode.Alu
import Microcode.Trace
/-!
# Executing a Microinstruction

One microinstruction, from decoding to the next address.

A step first plans: it decodes the word and works out what would happen to the registers, the
status word and the sequencer. Only when the whole plan stands is it carried out, so a word that
is rejected leaves the machine as it was.

The write code, the read code and the jump code are decoded for every word. What comes after
depends on what they select. A counter in either slot counts and does nothing else. Without a
write the word only sequences. Otherwise a register is written through the ALU, and only then do
the ALU code and the operand of the function matter.

## Main definitions

* `Machine.select`: What the codes of a word select.
* `Selected.increment?`: The counters that a word counts up.
* `Machine.operands`: The destination, the function and the operands of a transfer.
* `Machine.plan`: What a word will do.
* `Action.perform`: Carrying out an action on the registers.
* `Machine.step`: Executing a given word.
* `Machine.cycle`: Executing the word at the micro-program counter.
-/

namespace Microcode

/-- What the write, read and jump codes of a word select. -/
structure Selected where
  write : Slot
  read : Slot
  condition : JumpCondition

/-- The counters that a word counts up, if it counts. Counting both takes precedence, and the
    read slot counts whatever the write slot selects. -/
def Selected.increment? (s : Selected) : Option Action :=
  if s.write = .incPcMar ∨ s.read = .incPcMar then some .incrementPcMar
  else if s.read = .incPc then some .incrementPc
  else if s.read = .incMar then some .incrementMar
  else none

/-- Where a transfer goes, and what the ALU computes for it. -/
structure Operands where
  destination : Register
  function : AluFunction
  a : UInt8
  b : UInt8

/-- What a word will do, worked out before anything changes. -/
structure Plan where
  action : Action
  status : StatusWord
  next : NextAddress

/-- The outcome of a microinstruction that was executed. -/
structure StepResult where
  /-- The address of the next word. -/
  next : UInt8
  status : StatusWord
  /-- Whether a register now holds another value. -/
  mutated : Bool
  /-- The register that was written through the ALU. -/
  destination : Option Register
  deriving DecidableEq, Repr

/-- What an operation on a machine comes to: the machine that it leaves, its result, and what
    was recorded on the way. -/
structure Outcome (α : Type) where
  machine : Machine
  result : Except StepError α
  log : List Trace.Entry

/-- The register of a slot that has to be one. -/
def Slot.expectRegister (slot : Slot) (field : Field) (code : UInt8) :
    Except DecodeError Register :=
  match slot with
  | .reg r => .ok r
  | .unused => .error (.unusedCode field code)
  | other => .error (.notARegister field code other)

namespace Machine

/-- What the write, read and jump codes of a word select, decoded in this order. -/
def select (m : Machine) (word : MicroWord) : Except StepError Selected := do
  let write ← (m.table.decodeWrite word.write).mapError .decode
  let read ← (m.table.decodeRead word.read).mapError .decode
  let condition ← (m.table.decodeJump word.jump).mapError .decode
  return { write, read, condition }

/-- The B operand of a function: the register in the read slot, or zero if the slot holds no
    register and the function does not look at B. -/
def operandB (m : Machine) (function : AluFunction) (read : Slot) (code : UInt8) :
    Except DecodeError UInt8 :=
  match read with
  | .reg r => .ok (m.registers.get r)
  | slot =>
    if function.needsB then
      match slot with
      | .nop => .error (.missingOperand function code)
      | slot => (slot.expectRegister .read code).map m.registers.get
    else .ok 0

/-- The destination, the function and the operands of a word that transfers. -/
def operands (m : Machine) (word : MicroWord) (s : Selected) : Except StepError Operands := do
  let destination ← (s.write.expectRegister .write word.write).mapError .decode
  let function ← (m.table.decodeAlu word.alu).mapError .unsupported
  let b ← (m.operandB function s.read word.read).mapError .decode
  return { destination, function, a := m.registers.get .aluIn, b }

/-- The plan of a word whose action and flags are known. -/
def planned (m : Machine) (word : MicroWord) (condition : JumpCondition) (action : Action)
    (status : StatusWord) : Plan :=
  { action, status, next := m.sequencer.resolve condition word.jumpAddress status }

/-- What a word will do, and what is recorded while that is worked out. -/
def plan (m : Machine) (word : MicroWord) : Except StepError Plan × List Trace.Entry :=
  match m.select word with
  | .error e => (.error e, [])
  | .ok s =>
    match s.increment? with
    | some action => (.ok (m.planned word s.condition action m.status), [])
    | none =>
      if s.write = .nop then (.ok (m.planned word s.condition .idle m.status), [])
      else match m.operands word s with
        | .error e => (.error e, [])
        | .ok o =>
          let (value, status) := o.function.evaluate o.a o.b m.status
          (.ok (m.planned word s.condition (.transfer o.destination value) status),
            [.evaluated o.function o.a o.b value status])

end Machine

/-- Carries out an action. The second component says whether a register now holds another
    value, which is always so for a counter, and the third names the destination of a
    transfer. -/
def Action.perform (action : Action) (f : RegisterFile) :
    RegisterFile × Bool × Option Register :=
  match action with
  | incrementPcMar => (f.incrementMar.incrementPc, true, none)
  | incrementPc => (f.incrementPc, true, none)
  | incrementMar => (f.incrementMar, true, none)
  | idle => (f, false, none)
  | transfer destination value =>
    (f.set destination value, f.get destination != value, some destination)

namespace Machine

/-- Executes a word. -/
def step (m : Machine) (word : MicroWord) : Outcome StepResult :=
  match m.plan word with
  | (.error e, log) =>
    { machine := m, result := .error e, log := log ++ [.rejected m.sequencer.mpc word e] }
  | (.ok p, log) =>
    let (registers, mutated, destination) := p.action.perform m.registers
    { machine := { m with
        registers
        status := p.status
        sequencer := .commit word p.next
        cycles := m.cycles + 1 }
      result := .ok { next := p.next.mpc, status := p.status, mutated, destination }
      log := log ++ [.executed m.sequencer.mpc word p.action p.next.mpc p.status] }

/-- Executes the word at the micro-program counter. -/
def cycle (m : Machine) : Outcome StepResult :=
  match m.store.read m.sequencer.mpc with
  | some word => m.step word
  | none => { machine := m, result := .error (.emptyAddress m.sequencer.mpc), log := [] }

/-- An executed word counts as one cycle. -/
theorem cycles_step {m : Machine} {word : MicroWord} {r : StepResult}
    (h : (m.step word).result = .ok r) : (m.step word).machine.cycles = m.cycles + 1 := by
  revert h
  unfold step
  split
  · intro h; cases h
  · intro _; rfl

/-- A successful fetch and execution counts as one cycle. -/
theorem cycles_cycle {m : Machine} {r : StepResult} (h : m.cycle.result = .ok r) :
    m.cycle.machine.cycles = m.cycles + 1 := by
  revert h
  unfold cycle
  split
  · exact cycles_step
  · intro h; cases h

end Machine

end Microcode
