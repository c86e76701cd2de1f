import Microcode.Control.Table
import Microcode.ControlStore
import Microcode.RegisterFile
import Microcode.Sequencer
import Microcode.Snapshot
/-!
# The Machine

The whole state of a microprogrammed machine.

## Main definitions

* `Machine`: The state.
* `Machine.new`: A machine after power-up, with a given control table.
* `Machine.reset`: The system reset.
* `Machine.snapshot`: A copy of the visible state.
* `Machine.toJson`, `Machine.ofJson?`: Saving and restoring the whole state.
* `StepError`: Why a microinstruction is not executed.
* `Action`: What a microinstruction does to the registers.
-/

namespace Microcode

/-- The state of a machine. -/
structure Machine where
  registers : RegisterFile := .initial
  status : StatusWord := {}
  sequencer : Sequencer := {}
  store : ControlStore := .empty
  /-- The number of words executed since the reset. -/
  cycles : UInt64 := 0
  table : ControlTable := .builtin
  deriving DecidableEq, Inhabited

namespace Machine

/-- A machine after power-up that decodes through the given table. -/
def new (table : ControlTable) : Machine :=
  { table }

/-- The system reset. The control store is read-only memory and survives, as does the table. -/
def reset (m : Machine) : Machine :=
  { m with registers := .initial, status := {}, sequencer := {}, cycles := 0 }

/-- Drives the /CDAV flag from outside. -/
def setDataNotAvailable (m : Machine) (unavailable : Bool) : Machine :=
  { m with status := { m.status with dataNotAvailable := unavailable } }

/-- Places a program in the control store. -/
def load (m : Machine) (program : List MicroWord) : Machine × Except StoreError Unit :=
  let (store, result) := m.store.load program
  ({ m with store }, result)

/-- A copy of the visible state. -/
def snapshot (m : Machine) : Snapshot where
  registers := m.registers.entries
  pipeline := m.sequencer.pipeline
  mux := m.sequencer.mux
  mrtn := m.sequencer.mrtn
  mpc := m.sequencer.mpc
  status := m.status
  cycles := m.cycles

/-- A summary of the machine. -/
def text (m : Machine) : String :=
  "Medusa \x7b cycles: " ++ toString m.cycles.toNat ++ ", mpc: " ++
    toString m.sequencer.mpc.toNat ++ ", status: " ++ m.status.layout ++ ", regs: " ++
    m.registers.text ++ " \x7d"

/-- The whole state as JSON. -/
def toJson (m : Machine) : Json :=
  .record [("regs", m.registers.toJson), ("status", m.status.toJson),
    ("seq", m.sequencer.toJson), ("microstore", m.store.toJson),
    ("cycles", .natural m.cycles.toNat), ("table", m.table.toJson)]

/-- The machine that a JSON value gives. -/
def ofJson? (j : Json) : Option Machine := do
  let [registers, status, sequencer, store, cycles, table] ←
    j.members? ["regs", "status", "seq", "microstore", "cycles", "table"] | none
  return {
    registers := ← Json.required RegisterFile.ofJson? registers
    status := ← Json.required StatusWord.ofJson? status
    sequencer := ← Json.required Sequencer.ofJson? sequencer
    store := ← Json.required ControlStore.ofJson? store
    cycles := ← Json.required Json.count? cycles
    table := ← Json.required ControlTable.ofJson? table }

/-- The whole state as JSON text. -/
def toText (m : Machine) : String :=
  m.toJson.compact

/-- The machine that a JSON text gives. -/
def ofText? (text : String) : Option Machine :=
  (Json.parse? text).bind ofJson?

end Machine

/-- Why a microinstruction is not executed. -/
inductive StepError where
  | decode (e : DecodeError)
  | unsupported (e : UnsupportedFunction)
  /-- Nothing is programmed at the address. -/
  | emptyAddress (address : UInt8)
  deriving DecidableEq, Repr

/-- The report of a step error. -/
def StepError.message : StepError → String
  | decode e => "decode error: " ++ e.message
  | unsupported e => e.message
  | emptyAddress address => "no microinstruction at micro-address " ++ Text.hexLiteralByte address

/-- What a microinstruction does to the registers. -/
inductive Action where
  | incrementPcMar
  | incrementPc
  | incrementMar
  /-- Nothing: the word only sequences. -/
  | idle
  /-- A result of the ALU goes to a register. -/
  | transfer (destination : Register) (value : UInt8)
  deriving DecidableEq, Repr

/-- An action as the trace shows it. -/
def Action.text : Action → String
  | incrementPcMar => "IncrementPcMar"
  | incrementPc => "IncrementPc"
  | incrementMar => "IncrementMar"
  | idle => "Idle"
  | transfer destination value =>
    "Transfer \x7b dest: " ++ destination.name ++ ", value: " ++ toString value.toNat ++ " \x7d"

end Microcode
