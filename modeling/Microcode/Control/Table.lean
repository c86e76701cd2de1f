import Microcode.Control.AluFunction
import Microcode.Control.JumpCondition
import Microcode.Control.Slot
import Microcode.Text.Hex
/-!
# The Control Table

What the four-bit select codes of a microinstruction mean.

Every microinstruction carries a write code, a read code, an ALU code and a jump code. The
control logic looks each of them up in a column of sixteen rows. The column of ALU functions has
rows without a function; the write and read columns may hold the slot `unused`.

The codes of a microinstruction are kept as bytes, and a code above fifteen selects no row. For
the ALU such a code is like a row without a function, for the other columns it is out of range.

## Main definitions

* `Field`: The fields of a microinstruction that hold a select code.
* `DecodeError`: Why a field does not resolve to something that can be executed.
* `UnsupportedFunction`: An ALU code without a function.
* `ControlTable`: The four columns.
* `ControlTable.builtin`: The table of the hardware.
* `ControlTable.decodeWrite`, `ControlTable.decodeRead`, `ControlTable.decodeAlu`,
  `ControlTable.decodeJump`: The meaning of a code.
-/

namespace Microcode

/-- A field of a microinstruction that holds a select code. -/
inductive Field where
  | write
  | read
  | alu
  | jump
  deriving DecidableEq, Repr

/-- The name of a field in messages. -/
def Field.name : Field → String
  | write => "write"
  | read => "read"
  | alu => "alu"
  | jump => "jump"

/-- Why a field does not resolve to something that can be executed. -/
inductive DecodeError where
  | codeOutOfRange (field : Field) (code : UInt8)
  | unusedCode (field : Field) (code : UInt8)
  | notARegister (field : Field) (code : UInt8) (slot : Slot)
  | missingOperand (function : AluFunction) (code : UInt8)
  deriving DecidableEq, Repr

/-- The report of a decode error. -/
def DecodeError.message : DecodeError → String
  | codeOutOfRange field code =>
    field.name ++ " code " ++ Text.hexLiteral code.toNat ++ " is outside the 4-bit range"
  | unusedCode field code =>
    field.name ++ " code " ++ Text.hexLiteral code.toNat ++ " is not used"
  | notARegister field code slot =>
    field.name ++ " code " ++ Text.hexLiteral code.toNat ++ " selects " ++ slot.name ++
      ", which is not a register"
  | missingOperand function code =>
    "ALU function " ++ function.symbol ++ " needs a B operand but read code " ++
      Text.hexLiteral code.toNat ++ " selects none"

/-- An ALU code without a function. -/
structure UnsupportedFunction where
  code : UInt8
  deriving DecidableEq, Repr

/-- The report of an ALU code without a function. -/
def UnsupportedFunction.message (e : UnsupportedFunction) : String :=
  "unsupported ALU function code " ++ Text.hexLiteral e.code.toNat

/-- The meaning of the select codes, a column for each field. -/
structure ControlTable where
  write : Vector Slot 16
  read : Vector Slot 16
  alu : Vector (Option AluFunction) 16
  jump : Vector JumpCondition 16
  deriving DecidableEq

namespace ControlTable

open Slot AluFunction JumpCondition in
/-- The table of the hardware. -/
def builtin : ControlTable where
  write := #v[nop, memory, reg .acLo, reg .acHi, reg .brLo, reg .brHi, reg .pcLo, reg .pcHi,
    reg .spLo, reg .spHi, reg .marLo, reg .marHi, unused, reg .aluIn, incPcMar, reg .uart]
  read := #v[nop, memory, reg .acLo, reg .acHi, reg .brLo, reg .brHi, reg .pcLo, reg .pcHi,
    reg .spLo, reg .spHi, incPc, incMar, unused, reg .aluIn, incPcMar, reg .uart]
  alu := #v[some passB, some passA, some notA, some aAndB, some aOrB, some aXorB, none,
    some aPlus1, some aPlusB, some aPlusBPlus1, some aMinus1, some aMinusB, some aMinusBMinus1,
    some one, some zero, some minusOne]
  jump := #v[fallThrough, always, call, .return, ifNegative, ifZero, ifPositive, ifCarry,
    ifDataUnavailable, fallThrough, fallThrough, fallThrough, fallThrough, fallThrough,
    fallThrough, opcodeIn]

instance : Inhabited ControlTable := ⟨builtin⟩

/-- The entry of a column for a code of the given field. -/
def entry {α : Type} (column : Vector α 16) (field : Field) (code : UInt8) :
    Except DecodeError α :=
  match column[code.toNat]? with
  | some a => .ok a
  | none => .error (.codeOutOfRange field code)

/-- What a write code selects. -/
def decodeWrite (t : ControlTable) (code : UInt8) : Except DecodeError Slot :=
  entry t.write .write code

/-- What a read code selects. -/
def decodeRead (t : ControlTable) (code : UInt8) : Except DecodeError Slot :=
  entry t.read .read code

/-- The function that an ALU code selects. -/
def decodeAlu (t : ControlTable) (code : UInt8) : Except UnsupportedFunction AluFunction :=
  match t.alu[code.toNat]? with
  | some (some f) => .ok f
  | _ => .error ⟨code⟩

/-- The condition that a jump code selects. -/
def decodeJump (t : ControlTable) (code : UInt8) : Except DecodeError JumpCondition :=
  entry t.jump .jump code

/-- A control table as JSON, a column for each field. -/
def toJson (t : ControlTable) : Json :=
  .record [
    ("write", .array (t.write.toList.map Slot.toJson)),
    ("read", .array (t.read.toList.map Slot.toJson)),
    ("alu", .array (t.alu.toList.map (Json.nullable AluFunction.toJson))),
    ("jump", .array (t.jump.toList.map JumpCondition.toJson))]

/-- A column from the items of a JSON array. -/
def column? {α : Type} (f : Json → Option α) (j : Json) : Option (Vector α 16) := do
  let items ← j.items? f
  if h : items.length = 16 then some ⟨items.toArray, by simpa using h⟩ else none

/-- The control table that a JSON value gives. -/
def ofJson? (j : Json) : Option ControlTable := do
  let [write, read, alu, jump] ← j.members? ["write", "read", "alu", "jump"] | none
  return {
    write := ← Json.required (column? Slot.ofJson?) write
    read := ← Json.required (column? Slot.ofJson?) read
    alu := ← Json.required (column? (Json.nullable? AluFunction.ofJson?)) alu
    jump := ← Json.required (column? JumpCondition.ofJson?) jump }

end ControlTable

end Microcode
