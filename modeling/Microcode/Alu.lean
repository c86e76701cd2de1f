import Microcode.Control.AluFunction
import Microcode.Status
/-!
# The ALU

What a function of the ALU computes, and the flags that it leaves.

The ALU works on whole numbers. The result byte is the number modulo 256, and the flags look at
the number before it is cut: a number above 255 counts as positive with a carry, whatever its
low byte looks like, and a number below zero sets the carry as a borrow and takes its sign from
the byte.

## Main definitions

* `AluFunction.value`: The number that a function computes.
* `StatusWord.ofValue`: The flags for a number.
* `AluFunction.evaluate`: The result byte and the flags.
-/

namespace Microcode

/-- The number that a function computes from its operands, before it is cut to a byte. -/
def AluFunction.value (f : AluFunction) (a b : UInt8) : Int :=
  match f with
  | passB => b.toNat
  | passA => a.toNat
  | notA => 255 - a.toNat
  | aAndB => (a &&& b).toNat
  | aOrB => (a ||| b).toNat
  | aXorB => (a ^^^ b).toNat
  | aPlus1 => a.toNat + 1
  | aPlusB => a.toNat + b.toNat
  | aPlusBPlus1 => a.toNat + b.toNat + 1
  | aMinus1 => a.toNat - 1
  | aMinusB => a.toNat - b.toNat
  | aMinusBMinus1 => a.toNat - b.toNat - 1
  | one => 1
  | zero => 0
  | minusOne => 255

/-- The low byte of a number. -/
def lowByte (value : Int) : UInt8 :=
  UInt8.ofNat (value % 256).toNat

/-- The flags for a number that the ALU computed. -/
def StatusWord.ofValue (value : Int) (dataNotAvailable : Bool) : StatusWord :=
  if 255 < value then { positive := true, carry := true, dataNotAvailable }
  else
    let byte := lowByte value
    { positive := 0 < byte && byte < 128
      zero := byte == 0
      negative := 128 ≤ byte
      carry := value < 0
      dataNotAvailable }

/-- The result byte of a function and the flags that it leaves. Of the flags before, only /CDAV
    has an effect: it stays. -/
def AluFunction.evaluate (f : AluFunction) (a b : UInt8) (status : StatusWord) :
    UInt8 × StatusWord :=
  let value := f.value a b
  (lowByte value, StatusWord.ofValue value status.dataNotAvailable)

end Microcode
