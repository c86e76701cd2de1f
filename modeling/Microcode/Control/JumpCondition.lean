import Microcode.Json.Basic
import Microcode.Name
/-!
# Jump Conditions

The ways in which a microinstruction may choose its successor.

## Main definitions

* `JumpCondition`: The conditions.
* `JumpCondition.usesAddress`: Whether a condition looks at the jump address.
* `JumpCondition.name`: The name of a condition.
* `JumpCondition.ofName`: The condition of a given name.
-/

namespace Microcode

/-- How the successor of a microinstruction is chosen. -/
inductive JumpCondition where
  /-- On to the following micro-address. -/
  | fallThrough
  | always
  | call
  | return
  | ifNegative
  | ifZero
  | ifPositive
  | ifCarry
  /-- Jump while the serial line has no character available. -/
  | ifDataUnavailable
  /-- Dispatch on the opcode latched from main memory. -/
  | opcodeIn
  deriving DecidableEq, Repr

namespace JumpCondition

/-- The conditions, in the order of the decode table. -/
def all : List JumpCondition :=
  [fallThrough, always, call, .return, ifNegative, ifZero, ifPositive, ifCarry,
    ifDataUnavailable, opcodeIn]

/-- Whether the condition looks at the jump address. -/
def usesAddress : JumpCondition → Bool
  | fallThrough | .return => false
  | _ => true

/-- The name of a condition in table files and listings. -/
def name : JumpCondition → String
  | fallThrough => "none"
  | always => "always"
  | call => "call"
  | .return => "return"
  | ifNegative => "neg"
  | ifZero => "zero"
  | ifPositive => "pos"
  | ifCarry => "carry"
  | ifDataUnavailable => "notCDAV"
  | opcodeIn => "opcodeIn"

/-- The condition that a text names. -/
def ofName (text : String) : Except UnknownName JumpCondition :=
  match findNamed? name all text with
  | some condition => .ok condition
  | none => .error (.jumpCondition text)

/-- The word that stands for the condition in a saved machine. -/
def tag : JumpCondition → String
  | fallThrough => "None"
  | always => "Always"
  | call => "Call"
  | .return => "Return"
  | ifNegative => "IfNegative"
  | ifZero => "IfZero"
  | ifPositive => "IfPositive"
  | ifCarry => "IfCarry"
  | ifDataUnavailable => "IfDataUnavailable"
  | opcodeIn => "OpcodeIn"

/-- A condition as JSON: its tag. -/
def toJson (condition : JumpCondition) : Json :=
  .string condition.tag

/-- The condition that a JSON value gives. -/
def ofJson? (j : Json) : Option JumpCondition := do
  let s ← j.name?
  all.find? (fun condition => condition.tag == s)

end JumpCondition

end Microcode
