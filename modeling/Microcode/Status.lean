import Microcode.Json.Basic
/-!
# The Status Word

The five flags that conditional jumps look at.

Four of the flags describe the last result of the ALU. The fifth, /CDAV, says that the serial
line has no character available; it is driven from outside and no computation changes it.

## Main definitions

* `StatusWord`: The flags.
* `StatusWord.bits`: The flags as the row of status lights shows them.
* `StatusWord.text`: The flags behind their legend.
-/

namespace Microcode

/-- The flags of the machine. -/
structure StatusWord where
  positive : Bool := false
  zero : Bool := false
  negative : Bool := false
  carry : Bool := false
  /-- The serial line has no character available. -/
  dataNotAvailable : Bool := false
  deriving DecidableEq, Inhabited, Repr

namespace StatusWord

/-- The flags as digits in the order of the status lights: /CDAV, carry, positive, zero,
    negative. -/
def bits (s : StatusWord) : String :=
  String.ofList ([s.dataNotAvailable, s.carry, s.positive, s.zero, s.negative].map
    (fun flag => if flag then '1' else '0'))

/-- The flags behind their legend. -/
def text (s : StatusWord) : String :=
  "(NOTCd,Co,PZN): " ++ s.bits

/-- The flags with their names. -/
def layout (s : StatusWord) : String :=
  "StatusWord \x7b positive: " ++ toString s.positive ++ ", zero: " ++ toString s.zero ++
    ", negative: " ++ toString s.negative ++ ", carry: " ++ toString s.carry ++
    ", data_not_available: " ++ toString s.dataNotAvailable ++ " \x7d"

/-- The flags as JSON. -/
def toJson (s : StatusWord) : Json :=
  .record [("positive", .bool s.positive), ("zero", .bool s.zero), ("negative", .bool s.negative),
    ("carry", .bool s.carry), ("data_not_available", .bool s.dataNotAvailable)]

/-- The flags that a JSON value gives. -/
def ofJson? (j : Json) : Option StatusWord := do
  let [positive, zero, negative, carry, dataNotAvailable] ←
    j.members? ["positive", "zero", "negative", "carry", "data_not_available"] | none
  return {
    positive := ← Json.required Json.flag? positive
    zero := ← Json.required Json.flag? zero
    negative := ← Json.required Json.flag? negative
    carry := ← Json.required Json.flag? carry
    dataNotAvailable := ← Json.required Json.flag? dataNotAvailable }

end StatusWord

end Microcode
