import Microcode.Listing.Transfer
import Microcode.Text.Blank
/-!
# Printing a Listing

A microprogram as the source of a listing.

Each word takes a line with its label, its three bytes, and a comment with its address and its
register-transfer notation. An `ORG` line stands in front of a word that does not follow the
word before it. A word without an address counts as standing at its place in the list.

## Main definitions

* `Listing.heading`: The comment at the top.
* `Listing.wordLine`: The line of a word.
* `Listing.wordLines`: The lines of several words.
* `disassemble`: The listing of a microprogram.
-/

namespace Microcode

namespace Listing

/-- The comment at the top of a listing. -/
def heading : String :=
  "; Medusa microcode listing\n; ------------------------\n\n"

/-- The line that sets the address of the next word. -/
def originLine (address : UInt8) : String :=
  "        ORG " ++ Text.hexByte address ++ "\n"

/-- The label column of a word. -/
def labelColumn : Option String → String
  | some label => label ++ ":"
  | none => ""

/-- The line of a word at an address. -/
def wordLine (t : ControlTable) (address : UInt8) (word : MicroWord) : String :=
  Text.padRight 8 (labelColumn word.label) ++ " " ++ word.text ++ "    ; " ++
    Text.hexByte address ++ "  " ++ disassembleWord word t ++ "\n"

/-- The address that follows another, if there is one. -/
def following (address : UInt8) : Option UInt8 :=
  if address = 0xFF then none else some (address + 1)

/-- The lines of the words from a place in the list on, where `next` is the address that the
    next word has without an `ORG`. -/
def wordLines (t : ControlTable) (place : Nat) (next : Option UInt8) : List MicroWord → String
  | [] => ""
  | word :: rest =>
    let address := word.address.getD (UInt8.ofNat place)
    (if next = some address then "" else originLine address) ++ wordLine t address word ++
      wordLines t (place + 1) (following address) rest

end Listing

/-- The listing of a microprogram, annotated through a control table. -/
def disassemble (words : List MicroWord) (t : ControlTable) : String :=
  Listing.heading ++ Listing.wordLines t 0 (some 0) words

end Microcode
