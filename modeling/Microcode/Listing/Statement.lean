import Microcode.MicroWord
import Microcode.Text.Blank
import Microcode.Text.Capital
/-!
# Statements of a Listing

What one line of a listing says.

A semicolon begins a comment. What is left of the line is cut into tokens at its blanks. A first
token that ends in a colon defines a label, and the tokens behind it are the body of the line:

    LOOP:   2D A0 00        a word, by its hi, mid and low byte
            D2 05 LOOP      a word that jumps to a label
            00 03 xx        a word whose jump address does not matter
            ORG 40          the address of the next word
    END:                    nothing but a label

A jump address of one or two hexadecimal digits is a number, so a label such as `AB` can be
defined but not referred to. Labels are compared in upper case.

## Main definitions

* `Token`, `Listing.tokens`: The tokens of a line.
* `Listing.splitLabel`: The label that a line defines, and its body.
* `Target`: What a word says about its jump address.
* `Body`: What the body of a line says.
* `SyntaxFault`: Why a line says nothing.
* `Body.ofTokens`: Reading a body.
-/

namespace Microcode

/-- A token of a listing: a run of characters without a blank. -/
abbrev Token := List Char

namespace Listing

/-- The tokens of a line in front of its comment. -/
def tokens (line : List Char) : List Token :=
  Text.words (line.takeWhile (· != ';'))

/-- The lines of a source text, each with its number. -/
def numberedLines (source : String) : List (List Char × Nat) :=
  (Text.lines source.toList).zipIdx 1

/-- The label that a token defines: what stands in front of its final colon. -/
def labelOf? (token : Token) : Option Token :=
  if token.getLast? = some ':' then some token.dropLast else none

/-- The label that a line defines, and the tokens of its body. -/
def splitLabel : List Token → Option Token × List Token
  | [] => (none, [])
  | first :: rest => match labelOf? first with
    | some label => (some label, rest)
    | none => (none, first :: rest)

/-- The form of a label in which labels are compared. -/
def labelName (token : Token) : String :=
  String.ofList (Text.upper token)

end Listing

/-- The columns of a word. -/
inductive Column where
  | hi
  | mid
  | address
  deriving DecidableEq, Repr

/-- The name of a column in messages. -/
def Column.name : Column → String
  | hi => "hi"
  | mid => "mid"
  | address => "address"

/-- Why a line does not say anything. -/
inductive SyntaxFault where
  | emptyLabel
  /-- The operand of `ORG` is not a hex byte. -/
  | originOperand (token : String)
  /-- The body has none of the permitted shapes. -/
  | columns (tokens : List String)
  | notAByte (column : Column) (token : String)
  /-- The codes do not form a word. -/
  | codes (e : WordError)
  deriving DecidableEq, Repr

/-- The report of a syntax fault. -/
def SyntaxFault.message : SyntaxFault → String
  | emptyLabel => "empty label"
  | originOperand token => "ORG needs a hex micro-address, found '" ++ token ++ "'"
  | columns tokens => "expected '<hi> <mid> <addr>', found '" ++ " ".intercalate tokens ++ "'"
  | notAByte column token => column.name ++ " column: '" ++ token ++ "' is not a hex byte"
  | codes e => e.message

/-- What a word says about its jump address. -/
inductive Target where
  | fixed (address : UInt8)
  /-- The address of a label, in the form in which labels are compared. -/
  | label (name : String)
  deriving DecidableEq, Repr

/-- What the body of a line says. -/
inductive Body where
  | nothing
  /-- The address of the next word. -/
  | origin (address : UInt8)
  /-- A word. -/
  | word (hi mid : UInt8) (target : Target)
  deriving DecidableEq, Repr

namespace Body

/-- A byte in a column. -/
def byte (column : Column) (token : Token) : Except SyntaxFault UInt8 :=
  match Text.readHexByte? token with
  | some b => .ok b
  | none => .error (.notAByte column (String.ofList token))

/-- What the third column of a word says. -/
def target (token : Token) : Except SyntaxFault Target :=
  if Text.equalUpToCase token "xx".toList then .ok (.fixed 0)
  else if token.length ≤ 2 ∧ token.all Text.isHexDigit then (byte .address token).map .fixed
  else .ok (.label (Listing.labelName token))

/-- What the tokens of a body say. -/
def ofTokens (tokens : List Token) : Except SyntaxFault Body :=
  let other : Except SyntaxFault Body := .error (.columns (tokens.map String.ofList))
  match tokens with
  | [] => .ok .nothing
  | [directive, operand] =>
    if Text.equalUpToCase directive "ORG".toList then
      match Text.readHexByte? operand with
      | some address => .ok (.origin address)
      | none => .error (.originOperand (String.ofList operand))
    else other
  | [hi, mid, low] => do return .word (← byte .hi hi) (← byte .mid mid) (← target low)
  | _ => other

end Body

end Microcode
