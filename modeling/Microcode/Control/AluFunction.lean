import Microcode.Json.Basic
import Microcode.Name
import Microcode.Text.Blank
/-!
# ALU Functions

The functions that the ALU code of a microinstruction may select.

A function is written the way the decode table prints it, `A+B+1` or `not A`, and read with any
blanks inside, so `A + B + 1` and `notA` name functions too.

## Main definitions

* `AluFunction`: The functions.
* `AluFunction.needsB`: Whether a function reads its B operand.
* `AluFunction.symbol`: The notation of the decode table.
* `AluFunction.ofSymbol`: The function of a given notation.
-/

namespace Microcode

/-- A function of the ALU on its operands A and B. -/
inductive AluFunction where
  | passB
  | passA
  | notA
  | aAndB
  | aOrB
  | aXorB
  | aPlus1
  | aPlusB
  | aPlusBPlus1
  | aMinus1
  | aMinusB
  | aMinusBMinus1
  | one
  | zero
  | minusOne
  deriving DecidableEq, Repr

namespace AluFunction

/-- The functions, in the order of the decode table. -/
def all : List AluFunction :=
  [passB, passA, notA, aAndB, aOrB, aXorB, aPlus1, aPlusB, aPlusBPlus1, aMinus1, aMinusB,
    aMinusBMinus1, one, zero, minusOne]

/-- Whether the function reads its B operand, which comes from the read slot. -/
def needsB : AluFunction → Bool
  | passB | aAndB | aOrB | aXorB | aPlusB | aPlusBPlus1 | aMinusB | aMinusBMinus1 => true
  | passA | notA | aPlus1 | aMinus1 | one | zero | minusOne => false

/-- The notation of the decode table. -/
def symbol : AluFunction → String
  | passB => "B"
  | passA => "A"
  | notA => "not A"
  | aAndB => "A and B"
  | aOrB => "A or B"
  | aXorB => "A xor B"
  | aPlus1 => "A+1"
  | aPlusB => "A+B"
  | aPlusBPlus1 => "A+B+1"
  | aMinus1 => "A-1"
  | aMinusB => "A-B"
  | aMinusBMinus1 => "A-B-1"
  | one => "1"
  | zero => "0"
  | minusOne => "-1"

/-- The function that a text denotes, up to blanks and the case of the letters A to Z. -/
def ofSymbol (text : String) : Except UnknownName AluFunction :=
  let squeezed (s : String) := Text.squeeze s.toList
  match all.find? (fun f => Text.equalUpToCase (squeezed f.symbol) (squeezed text)) with
  | some f => .ok f
  | none => .error (.aluFunction text)

/-- The word that stands for the function in a saved machine. -/
def tag : AluFunction → String
  | passB => "PassB"
  | passA => "PassA"
  | notA => "NotA"
  | aAndB => "AAndB"
  | aOrB => "AOrB"
  | aXorB => "AXorB"
  | aPlus1 => "APlus1"
  | aPlusB => "APlusB"
  | aPlusBPlus1 => "APlusBPlus1"
  | aMinus1 => "AMinus1"
  | aMinusB => "AMinusB"
  | aMinusBMinus1 => "AMinusBMinus1"
  | one => "One"
  | zero => "Zero"
  | minusOne => "MinusOne"

/-- A function as JSON: its tag. -/
def toJson (f : AluFunction) : Json :=
  .string f.tag

/-- The function that a JSON value gives. -/
def ofJson? (j : Json) : Option AluFunction := do
  let s ← j.name?
  all.find? (fun f => f.tag == s)

end AluFunction

end Microcode
