import Microcode.Register
/-!
# Slots

What the write code or the read code of a microinstruction may select.

Most codes select a register. The others are pseudo codes that the control logic handles itself:
no transfer at all, main memory, or one of the counters.

## Main definitions

* `Slot`: The selections.
* `Slot.register?`: The register of a slot that selects one.
* `Slot.name`: The name of a slot.
* `Slot.ofName`: The slot of a given name.
-/

namespace Microcode

/-- What a write or read code selects. -/
inductive Slot where
  | reg (r : Register)
  /-- No write, or no read. -/
  | nop
  /-- A code without a meaning. -/
  | unused
  /-- Main memory at the address in MAR. -/
  | memory
  | incPc
  | incMar
  | incPcMar
  deriving DecidableEq, Repr

namespace Slot

/-- The slots that are not registers. -/
def pseudo : List Slot :=
  [nop, unused, memory, incPc, incMar, incPcMar]

/-- The register that a slot selects, if it selects one. -/
def register? : Slot → Option Register
  | reg r => some r
  | _ => none

/-- Whether a slot counts a pair of registers up. -/
def isIncrement : Slot → Bool
  | incPc | incMar | incPcMar => true
  | _ => false

/-- The name of a slot in table files and messages. -/
def name : Slot → String
  | reg r => r.name
  | nop => "nop"
  | unused => "unused"
  | memory => "MEM"
  | incPc => "incPC"
  | incMar => "incMAR"
  | incPcMar => "incPC_MAR"

/-- The slot that a text names: a pseudo slot or, failing that, a register. -/
def ofName (text : String) : Except UnknownName Slot :=
  match findNamed? name pseudo text with
  | some slot => .ok slot
  | none => (Register.ofName text).map reg

/-- The word that stands for a pseudo slot in a saved machine; for a register it is the word in
    front of the register. -/
def tag : Slot → String
  | reg _ => "Reg"
  | nop => "Nop"
  | unused => "Unused"
  | memory => "Mem"
  | incPc => "IncPc"
  | incMar => "IncMar"
  | incPcMar => "IncPcMar"

/-- A slot spelled out with its tag. -/
def text (slot : Slot) : String :=
  match slot with
  | reg r => slot.tag ++ "(" ++ r.name ++ ")"
  | _ => slot.tag

/-- A slot as JSON: its tag, with the register as its value if it selects one. -/
def toJson (slot : Slot) : Json :=
  match slot with
  | reg r => .record [(slot.tag, r.toJson)]
  | _ => .string slot.tag

/-- The slot that a JSON value gives. -/
def ofJson? (j : Json) : Option Slot :=
  match j.name? with
  | some s => pseudo.find? (fun slot => slot.tag == s)
  | none => do
    let (s, value) ← j.tagged?
    if s = "Reg" then (Register.ofJson? value).map reg else none

end Slot

end Microcode
