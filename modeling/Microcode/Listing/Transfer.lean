import Microcode.Control.Table
import Microcode.MicroWord
/-!
# Register-Transfer Notation

What a microinstruction does, as a programmer would write it down.

The notation has two halves, as in `SPlo := ALUin + BRhi ; CALL 40`. The first tells what
happens on the data path: a counter counts, nothing happens, or a destination gets the value of
an expression. The second tells how the next word is chosen, and is left out if that is simply
the following one. A word whose first half does not decode is shown by its bytes alone.

## Main definitions

* `DataPath`: What happens on the data path.
* `DataPath.ofWord?`: The meaning of a word's write, read and ALU codes.
* `DataPath.text`: The first half of the notation.
* `JumpCondition.text`: The second half.
* `disassembleWord`: The notation for a word.
-/

namespace Microcode

/-- What a word does on the data path. -/
inductive DataPath where
  | incrementPcMar
  | incrementPc
  | incrementMar
  | idle
  /-- The destination gets the value of a function of ALUin and the source. -/
  | assign (destination : Slot) (function : AluFunction) (source : Slot)
  deriving DecidableEq, Repr

namespace DataPath

/-- The meaning of a word's write, read and ALU codes. The ALU code matters only for a word that
    assigns. -/
def ofWord? (t : ControlTable) (word : MicroWord) : Option DataPath :=
  match t.decodeWrite word.write, t.decodeRead word.read with
  | .ok .incPcMar, .ok _ => some incrementPcMar
  | .ok _, .ok .incPcMar => some incrementPcMar
  | .ok _, .ok .incPc => some incrementPc
  | .ok _, .ok .incMar => some incrementMar
  | .ok .nop, .ok _ => some idle
  | .ok write, .ok read => match t.decodeAlu word.alu with
    | .ok function => some (assign write function read)
    | .error _ => none
  | _, _ => none

/-- The name of a slot in an assignment. -/
def slotText : Slot → String
  | .memory => "M(MAR)"
  | slot => slot.name

/-- A function of ALUin and a source as an expression. -/
def expression (function : AluFunction) (source : String) : String :=
  match function with
  | .passB => source
  | .passA => "ALUin"
  | .notA => "not ALUin"
  | .aAndB => "ALUin and " ++ source
  | .aOrB => "ALUin or " ++ source
  | .aXorB => "ALUin xor " ++ source
  | .aPlus1 => "ALUin + 1"
  | .aPlusB => "ALUin + " ++ source
  | .aPlusBPlus1 => "ALUin + " ++ source ++ " + 1"
  | .aMinus1 => "ALUin - 1"
  | .aMinusB => "ALUin - " ++ source
  | .aMinusBMinus1 => "ALUin - " ++ source ++ " - 1"
  | .one => "1"
  | .zero => "0"
  | .minusOne => "-1"

/-- The first half of the notation. -/
def text : DataPath → String
  | incrementPcMar => "MAR++, PC++"
  | incrementPc => "PC++"
  | incrementMar => "MAR++"
  | idle => "--"
  | assign destination function source =>
    slotText destination ++ " := " ++ expression function (slotText source)

end DataPath

/-- The second half of the notation: how the next word is chosen. -/
def JumpCondition.text (condition : JumpCondition) (address : UInt8) : String :=
  match condition with
  | fallThrough => ""
  | always => "JUMP " ++ Text.hexByte address
  | call => "CALL " ++ Text.hexByte address
  | .return => "RTN"
  | opcodeIn => "OPCODE-IN"
  | conditional => "JUMP " ++ conditional.name ++ " " ++ Text.hexByte address

/-- The register-transfer notation for a word. -/
def disassembleWord (word : MicroWord) (t : ControlTable) : String :=
  match DataPath.ofWord? t word with
  | none => "??? ; " ++ word.text
  | some path => match t.decodeJump word.jump with
    | .ok .fallThrough => path.text
    | .ok condition => path.text ++ " ; " ++ condition.text word.jumpAddress
    | .error _ => path.text ++ " ; ???"

end Microcode
