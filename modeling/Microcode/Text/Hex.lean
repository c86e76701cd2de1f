/-!
# Hexadecimal Text

Numbers as hexadecimal text, and the reader of the bytes in a listing.

Everything a microprogrammer looks at is hexadecimal, but not everything has the same width. A
byte of the control store or a register takes two digits, a four-bit code one, a sixteen-bit
counter four. Messages about codes use the lower-case literal form with `0x` in front. The
reader is more generous than the writers: it takes a plus sign, any number of leading zeros and
either case, and only the value has to fit in a byte.

## Main definitions

* `hexDigit`: The upper-case digit of a value below sixteen.
* `hexByte`: A byte as two upper-case digits.
* `hexCode`: A select code as one upper-case digit, or two if it does not fit in four bits.
* `hexPair`: A sixteen-bit value as four upper-case digits.
* `hexLiteral`: A number in lower case behind `0x`, without padding.
* `hexLiteralByte`: A byte in lower case behind `0x`, with two digits.
* `hexValue?`: The value of a digit of either case.
* `readHexByte?`: A byte from its digits.
-/

namespace Microcode

namespace Text

/-- The upper-case digit of a value below sixteen. -/
def hexDigit (n : Nat) : Char :=
  if n < 10 then Char.ofNat (48 + n) else Char.ofNat (55 + n)

/-- A byte as two upper-case digits. -/
def hexByte (b : UInt8) : String :=
  String.ofList [hexDigit (b.toNat / 16), hexDigit (b.toNat % 16)]

/-- A select code in as few upper-case digits as it takes: one, unless the code is wider than
    its four-bit field. -/
def hexCode (b : UInt8) : String :=
  if b.toNat < 16 then String.ofList [hexDigit b.toNat] else hexByte b

/-- A sixteen-bit value as four upper-case digits. -/
def hexPair (w : UInt16) : String :=
  String.ofList [hexDigit (w.toNat / 4096), hexDigit (w.toNat / 256 % 16),
    hexDigit (w.toNat / 16 % 16), hexDigit (w.toNat % 16)]

/-- A number in lower case behind `0x`, in as few digits as it takes. -/
def hexLiteral (n : Nat) : String :=
  "0x" ++ String.ofList (Nat.toDigits 16 n)

/-- A byte in lower case behind `0x`, always with two digits. -/
def hexLiteralByte (b : UInt8) : String :=
  "0x" ++ String.ofList ([hexDigit (b.toNat / 16), hexDigit (b.toNat % 16)].map Char.toLower)

/-- The value of a hexadecimal digit of either case. -/
def hexValue? (c : Char) : Option Nat :=
  let n := c.toNat
  if 48 ≤ n ∧ n ≤ 57 then some (n - 48)
  else if 65 ≤ n ∧ n ≤ 70 then some (n - 55)
  else if 97 ≤ n ∧ n ≤ 102 then some (n - 87)
  else none

/-- Whether a character is a hexadecimal digit. -/
def isHexDigit (c : Char) : Bool :=
  (hexValue? c).isSome

/-- The number that a run of hexadecimal digits spells; an empty run spells none. -/
def readHex? (digits : List Char) : Option Nat :=
  if digits.isEmpty then none
  else digits.foldlM (fun n c => (hexValue? c).map (16 * n + ·)) 0

/-- A byte from its hexadecimal digits: an optional plus sign, then one digit or more, with a
    value of at most 255. -/
def readHexByte? (token : List Char) : Option UInt8 :=
  let digits := match token with
    | '+' :: rest => rest
    | _ => token
  match readHex? digits with
  | some n => if n < 256 then some (UInt8.ofNat n) else none
  | none => none

end Text

end Microcode
