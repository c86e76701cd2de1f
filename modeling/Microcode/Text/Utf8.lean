/-!
# Bytes as Text

How bytes are shown as text, whatever they are.

Bytes in UTF-8 are shown as the characters they spell. Where they spell none, the longest piece
that could still have begun a character is shown as one replacement character, and reading goes
on with the byte after it. A byte that cannot begin a character is such a piece by itself.

The bytes are read one at a time. Between two of them stands a `Partial`: the bits of the
character so far, how many bytes it lacks, and the bounds of the next one. The bounds are what
keeps out characters that are spelled longer than needed, surrogates, and numbers beyond the last
code point.

## Main definitions

* `Partial`: A character of which some bytes are read.
* `Partial.start`, `Partial.next`: The effect of one byte.
* `decode`: The characters that bytes are shown as.
-/

namespace Microcode

namespace Text

/-- A character of which some bytes are read. -/
structure Partial where
  /-- The bits so far. -/
  bits : Nat
  /-- How many bytes come after the next one. -/
  later : Nat
  /-- The least value of the next byte. -/
  low : Nat := 0x80
  /-- The greatest value of the next byte. -/
  high : Nat := 0xBF
  deriving DecidableEq, Repr

/-- The character that stands for bytes without meaning. -/
def replacement : Char := '\ufffd'

namespace Partial

/-- Reads a byte at which a character begins: the characters it shows, and the character that
    it leaves unfinished. -/
def start (b : Nat) : List Char × Option Partial :=
  if b < 0x80 then ([Char.ofNat b], none)
  else if b < 0xC2 then ([replacement], none)
  else if b < 0xE0 then ([], some { bits := b - 0xC0, later := 0 })
  else if b = 0xE0 then ([], some { bits := 0, later := 1, low := 0xA0 })
  else if b = 0xED then ([], some { bits := 0xD, later := 1, high := 0x9F })
  else if b < 0xF0 then ([], some { bits := b - 0xE0, later := 1 })
  else if b = 0xF0 then ([], some { bits := 0, later := 2, low := 0x90 })
  else if b < 0xF4 then ([], some { bits := b - 0xF0, later := 2 })
  else if b = 0xF4 then ([], some { bits := 4, later := 2, high := 0x8F })
  else ([replacement], none)

/-- Reads a byte inside a character. If it does not belong there, a character begins at it. -/
def next (p : Partial) (b : Nat) : List Char × Option Partial :=
  if p.low ≤ b ∧ b ≤ p.high then
    let bits := p.bits * 64 + (b - 0x80)
    match p.later with
    | 0 => ([Char.ofNat bits], none)
    | later + 1 => ([], some { bits, later })
  else
    let (shown, rest) := start b
    (replacement :: shown, rest)

end Partial

/-- The characters that bytes are shown as, behind an unfinished character. -/
def decodeAfter : Option Partial → List UInt8 → List Char
  | none, [] => []
  | some _, [] => [replacement]
  | unfinished, b :: bs =>
    let (shown, rest) := match unfinished with
      | none => Partial.start b.toNat
      | some p => p.next b.toNat
    shown ++ decodeAfter rest bs

/-- The characters that bytes are shown as. -/
def decode (bytes : List UInt8) : List Char :=
  decodeAfter none bytes

end Text

end Microcode
