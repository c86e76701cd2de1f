import Microcode.Json.Basic
import Microcode.Name
/-!
# Registers

The twelve byte registers of the data path.

Five sixteen-bit registers are kept as a low and a high half: the memory address register MAR,
the accumulator AC, the buffer BR, the program counter PC and the stack pointer SP. The UART
slot stands for the serial line, and ALUin is the latch in front of the A input of the ALU.

## Main definitions

* `Register`: The registers.
* `Register.all`: All of them, in file order.
* `Register.index`: The place of a register in that order.
* `Register.name`: The name of a register.
* `Register.resetValue`: What a register holds after a reset.
* `Register.ofName`: The register of a given name.
-/

namespace Microcode

/-- A byte register of the data path. -/
inductive Register where
  | marLo | marHi | uart | acLo | acHi | brLo | brHi | pcLo | pcHi | spLo | spHi | aluIn
  deriving DecidableEq, Repr

namespace Register

/-- The registers in file order. -/
def all : List Register :=
  [marLo, marHi, uart, acLo, acHi, brLo, brHi, pcLo, pcHi, spLo, spHi, aluIn]

/-- The place of a register in file order. -/
def index : Register → Fin 12
  | marLo => 0
  | marHi => 1
  | uart => 2
  | acLo => 3
  | acHi => 4
  | brLo => 5
  | brHi => 6
  | pcLo => 7
  | pcHi => 8
  | spLo => 9
  | spHi => 10
  | aluIn => 11

/-- The register at a place in file order. -/
def ofIndex (i : Fin 12) : Register :=
  all.get i

@[simp] theorem ofIndex_index (r : Register) : ofIndex r.index = r := by
  cases r <;> rfl

/-- The name of a register in listings, snapshots and files. -/
def name : Register → String
  | marLo => "MARlo"
  | marHi => "MARhi"
  | uart => "UART"
  | acLo => "AClo"
  | acHi => "AChi"
  | brLo => "BRlo"
  | brHi => "BRhi"
  | pcLo => "PClo"
  | pcHi => "PChi"
  | spLo => "SPlo"
  | spHi => "SPhi"
  | aluIn => "ALUin"

/-- Whether a reset clears the register. The others are filled with ones. -/
def resetsToZero : Register → Bool
  | pcLo | pcHi | marLo | marHi => true
  | _ => false

/-- What the register holds after a reset. -/
def resetValue (r : Register) : UInt8 :=
  if r.resetsToZero then 0 else 0xFF

/-- The register that a text names. -/
def ofName (text : String) : Except UnknownName Register :=
  match findNamed? name all text with
  | some r => .ok r
  | none => .error (.register text)

/-- A register as JSON: its name. -/
def toJson (r : Register) : Json :=
  .string r.name

/-- The register that a JSON value gives, in the exact case of its name. -/
def ofJson? (j : Json) : Option Register := do
  let name ← j.name?
  all.find? (fun r => r.name == name)

end Register

end Microcode
