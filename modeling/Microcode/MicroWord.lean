import Microcode.Json.Basic
import Microcode.Text.Hex
/-!
# Microwords

One microinstruction.

A microinstruction is spread over three memory chips. The hi byte holds the write and the read
code, the mid byte the ALU and the jump code, and the low byte is the jump address:

    hi           mid         low
    write read   ALU  jump   jump address
    7..4  3..0   7..4 3..0   7..0

A word also remembers the label that was defined at it and the micro-address that it was
assembled for. Neither is part of the twenty-four bits.

## Main definitions

* `MicroWord`: A microinstruction.
* `WordError`: Why codes or bits do not form a word.
* `MicroWord.ofCodes`: The word with given codes.
* `MicroWord.ofBits`, `MicroWord.bits`: Between words and twenty-four bits.
* `MicroWord.text`: The three bytes as hexadecimal columns.
-/

namespace Microcode

/-- A microinstruction. The codes are meant to fit in four bits; words that come out of a saved
    machine are not held to that. -/
structure MicroWord where
  write : UInt8
  read : UInt8
  alu : UInt8
  jump : UInt8
  jumpAddress : UInt8
  /-- The label that was defined at the word. -/
  label : Option String := none
  /-- The micro-address that the word was assembled for. -/
  address : Option UInt8 := none
  deriving DecidableEq, Inhabited, Repr

/-- Why codes or bits do not form a word. -/
inductive WordError where
  | fieldOverflow (field : String) (code : UInt8)
  | tooWide (bits : UInt32)
  deriving DecidableEq, Repr

/-- The report of a word error. -/
def WordError.message : WordError → String
  | fieldOverflow field code =>
    field ++ " code " ++ Text.hexLiteral code.toNat ++ " does not fit in 4 bits"
  | tooWide bits =>
    "microword " ++ Text.hexLiteral bits.toNat ++ " is wider than 24 bits"

namespace MicroWord

/-- The word with the given codes and jump address. The first code that does not fit in four
    bits is reported. -/
def ofCodes (write read alu jump jumpAddress : UInt8) : Except WordError MicroWord :=
  let codes := [("write", write), ("read", read), ("alu", alu), ("jump", jump)]
  match codes.find? (fun entry => 0xF < entry.2) with
  | some (field, code) => .error (.fieldOverflow field code)
  | none => .ok { write, read, alu, jump, jumpAddress }

/-- The word in twenty-four bits. -/
def ofBits (bits : UInt32) : Except WordError MicroWord :=
  if 0xFFFFFF < bits then .error (.tooWide bits)
  else
    let nibble (shift : UInt32) : UInt8 := ((bits >>> shift) &&& 0xF).toUInt8
    ofCodes (nibble 20) (nibble 16) (nibble 12) (nibble 8) (bits &&& 0xFF).toUInt8

/-- The word as bits. Codes that do not fit in four bits overlap their neighbours. -/
def bits (w : MicroWord) : UInt32 :=
  w.write.toUInt32 <<< 20 ||| w.read.toUInt32 <<< 16 ||| w.alu.toUInt32 <<< 12 |||
    w.jump.toUInt32 <<< 8 ||| w.jumpAddress.toUInt32

/-- The word with a label. -/
def withLabel (w : MicroWord) (label : String) : MicroWord :=
  { w with label := some label }

/-- The word at a micro-address. -/
def placedAt (w : MicroWord) (address : UInt8) : MicroWord :=
  { w with address := some address }

/-- The word with another jump address. -/
def retarget (w : MicroWord) (jumpAddress : UInt8) : MicroWord :=
  { w with jumpAddress }

/-- The hi, mid and low byte as hexadecimal columns. -/
def text (w : MicroWord) : String :=
  Text.hexCode w.write ++ Text.hexCode w.read ++ " " ++ Text.hexCode w.alu ++
    Text.hexCode w.jump ++ " " ++ Text.hexByte w.jumpAddress

/-- A word as JSON. -/
def toJson (w : MicroWord) : Json :=
  .record [("write", .byte w.write), ("read", .byte w.read), ("alu", .byte w.alu),
    ("jump", .byte w.jump), ("jump_address", .byte w.jumpAddress),
    ("label", .nullable .string w.label), ("address", .nullable .byte w.address)]

/-- The word that a JSON value gives. Its codes may be any bytes. -/
def ofJson? (j : Json) : Option MicroWord := do
  let [write, read, alu, jump, jumpAddress, label, address] ←
    j.members? ["write", "read", "alu", "jump", "jump_address", "label", "address"] | none
  return {
    write := ← Json.required Json.byte? write
    read := ← Json.required Json.byte? read
    alu := ← Json.required Json.byte? alu
    jump := ← Json.required Json.byte? jump
    jumpAddress := ← Json.required Json.byte? jumpAddress
    label := ← Json.optional Json.text? label
    address := ← Json.optional Json.byte? address }

end MicroWord

end Microcode
