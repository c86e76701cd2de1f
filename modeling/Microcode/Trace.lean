import Microcode.Machine.Basic
/-!
# Traces

What is recorded while programs are assembled and microinstructions are executed.

An entry belongs to one of three targets: the ALU, the sequencer or the assembler. The entries
of an operation come in the order in which they arise, so the computation of a result precedes
the word that it belongs to.

## Main definitions

* `Trace.Entry`: One recorded event.
* `Trace.Target`, `Trace.Level`: Where an entry belongs, and how detailed it is.
* `Trace.Entry.line`: An entry as a line behind its target.
* `Trace.Entry.text`: The same line behind its level.
-/

namespace Microcode

namespace Trace

/-- Where an entry belongs. -/
inductive Target where
  | alu
  | sequencer
  | assembler
  deriving DecidableEq, Repr

/-- The name of a target. -/
def Target.name : Target → String
  | alu => "alu"
  | sequencer => "useq"
  | assembler => "asm"

/-- How detailed an entry is. -/
inductive Level where
  | debug
  | trace
  deriving DecidableEq, Repr

/-- The name of a level. -/
def Level.name : Level → String
  | debug => "DEBUG"
  | trace => "TRACE"

/-- One recorded event. -/
inductive Entry where
  /-- The ALU computed a result and flags. -/
  | evaluated (function : AluFunction) (a b result : UInt8) (status : StatusWord)
  /-- A word at an address was executed and chose the next address. -/
  | executed (address : UInt8) (word : MicroWord) (action : Action) (next : UInt8)
    (status : StatusWord)
  /-- A word at an address was not executed. -/
  | rejected (address : UInt8) (word : MicroWord) (error : StepError)
  /-- A listing was assembled. -/
  | assembled (words labels : Nat)
  deriving DecidableEq, Repr

namespace Entry

/-- Where the entry belongs. -/
def target : Entry → Target
  | evaluated .. => .alu
  | executed .. => .sequencer
  | rejected .. => .sequencer
  | assembled .. => .assembler

/-- How detailed the entry is. -/
def level : Entry → Level
  | evaluated .. => .trace
  | executed .. => .trace
  | rejected .. => .debug
  | assembled .. => .debug

/-- What the entry says. -/
def message : Entry → String
  | evaluated function a b result status =>
    function.symbol ++ " A=" ++ Text.hexByte a ++ " B=" ++ Text.hexByte b ++ " -> " ++
      Text.hexByte result ++ " " ++ status.text
  | executed address word action next status =>
    Text.hexByte address ++ ": " ++ word.text ++ " " ++ action.text ++ " -> " ++
      Text.hexByte next ++ " " ++ status.text
  | rejected address word error =>
    Text.hexByte address ++ ": " ++ word.text ++ " rejected: " ++ error.message
  | assembled words labels =>
    "assembled " ++ toString words ++ " words, " ++ toString labels ++ " labels"

/-- The entry as a line behind its target. -/
def line (e : Entry) : String :=
  "[" ++ e.target.name ++ "]: " ++ e.message

/-- The entry as a line behind its level and its target. -/
def text (e : Entry) : String :=
  e.level.name ++ " " ++ e.line

end Entry

end Trace

end Microcode
