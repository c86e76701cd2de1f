import Microcode.Register
import Microcode.Text.Hex
/-!
# The Register File

The contents of the registers, and the counters that some pairs of them form.

PC and MAR are built from counter chips, so a low half that runs past 0xFF carries into its high
half. The counters sit beside the ALU: counting involves no status flag.

## Main definitions

* `RegisterFile`: The contents of the twelve registers.
* `RegisterFile.initial`: The contents after a reset.
* `RegisterFile.get`, `RegisterFile.set`, `RegisterFile.setMasked`: Access to one register.
* `RegisterFile.increment`: Counting up a pair of registers.
* `RegisterFile.pair`: A pair of registers as one number.
* `RegisterFile.entries`: All registers with their contents.
* `RegisterFile.text`, `RegisterFile.layout`: The contents as text, on one line or on many.

## Theorems

* `RegisterFile.get_set`: What a register holds after one of them was set.
-/

namespace Microcode

/-- The contents of the registers, in file order. -/
structure RegisterFile where
  bytes : Vector UInt8 12
  deriving DecidableEq

namespace RegisterFile

/-- The contents after a reset: zero in the halves of PC and MAR, ones everywhere else. -/
def initial : RegisterFile :=
  ⟨Vector.ofFn (fun i => (Register.ofIndex i).resetValue)⟩

instance : Inhabited RegisterFile := ⟨initial⟩

/-- The contents of a register. -/
def get (f : RegisterFile) (r : Register) : UInt8 :=
  f.bytes[r.index.val]

/-- Puts a byte into a register. -/
def set (f : RegisterFile) (r : Register) (value : UInt8) : RegisterFile :=
  ⟨f.bytes.set r.index.val value r.index.isLt⟩

/-- Puts the low eight bits of a wider value into a register. -/
def setMasked (f : RegisterFile) (r : Register) (value : UInt32) : RegisterFile :=
  f.set r (value &&& 0xFF).toUInt8

theorem get_set (f : RegisterFile) (r s : Register) (value : UInt8) :
    (f.set r value).get s = if r = s then value else f.get s := by
  have h : r.index.val = s.index.val ↔ r = s :=
    ⟨fun h => by rw [← r.ofIndex_index, ← s.ofIndex_index, Fin.ext h], fun h => h ▸ rfl⟩
  simp only [get, set, Vector.getElem_set, h]

/-- Counts a pair of registers up by one: a low half of 0xFF becomes zero and carries into the
    high half, which wraps. -/
def increment (f : RegisterFile) (lo hi : Register) : RegisterFile :=
  if f.get lo = 0xFF then
    let cleared := f.set lo 0
    cleared.set hi (cleared.get hi + 1)
  else f.set lo (f.get lo + 1)

/-- A pair of registers as one sixteen-bit number. -/
def pair (f : RegisterFile) (lo hi : Register) : UInt16 :=
  (f.get hi).toUInt16 <<< 8 ||| (f.get lo).toUInt16

/-- The program counter. -/
def pc (f : RegisterFile) : UInt16 :=
  f.pair .pcLo .pcHi

/-- The memory address register. -/
def mar (f : RegisterFile) : UInt16 :=
  f.pair .marLo .marHi

/-- Counts the program counter up by one. -/
def incrementPc (f : RegisterFile) : RegisterFile :=
  f.increment .pcLo .pcHi

/-- Counts the memory address register up by one. -/
def incrementMar (f : RegisterFile) : RegisterFile :=
  f.increment .marLo .marHi

/-- The registers with their contents, in file order. -/
def entries (f : RegisterFile) : List (Register × UInt8) :=
  Register.all.map (fun r => (r, f.get r))

/-- A register and its contents, as they stand in the text of a register file. -/
def entryText (entry : Register × UInt8) : String :=
  "\"" ++ entry.1.name ++ "\": " ++ Text.hexByte entry.2

/-- The contents on one line. -/
def text (f : RegisterFile) : String :=
  "\x7b" ++ ", ".intercalate (f.entries.map entryText) ++ "\x7d"

/-- The contents with one register per line. -/
def layout (f : RegisterFile) : String :=
  "\x7b\n" ++ String.join (f.entries.map (fun e => "    " ++ entryText e ++ ",\n")) ++ "\x7d"

/-- A register file as JSON. -/
def toJson (f : RegisterFile) : Json :=
  .record [("values", .array (f.bytes.toList.map .byte))]

/-- The register file that a JSON value gives. -/
def ofJson? (j : Json) : Option RegisterFile := do
  let [values] ← j.members? ["values"] | none
  let bytes ← Json.required (Json.items? Json.byte?) values
  if h : bytes.length = 12 then some ⟨⟨bytes.toArray, by simpa using h⟩⟩ else none

end RegisterFile

end Microcode
