import Microcode.Listing.Statement
import Microcode.Trace
/-!
# Assembling a Listing

The words that a listing says.

The lines are taken in order. Words are placed one after the other, from address zero or from
the operand of the last `ORG`. A label waits for the next word and takes its address, so an
`ORG` between the two moves the label along; labels behind the last word take the address past
it. A word that refers to a label is written with jump address zero and noted, and when all
lines have been read every noted word is pointed at its label.

The first line that is in error ends the assembly. Labels that nothing defines come to light
last.

## Main definitions

* `AssemblyError`: Why a listing is not assembled.
* `Assembly`: What is known after some of the lines.
* `Assembly.define`, `Assembly.emit`: The effect of a label and of a word.
* `Assembly.line`: The effect of a line.
* `Assembly.finish`: Binding the last labels and resolving the references.
* `Assembly.ofSource`: The assembly of a whole listing.
* `assemble`: The words of a listing.
-/

namespace Microcode

/-- Why a listing is not assembled. Lines are counted from one. -/
inductive AssemblyError where
  | syntaxFault (line : Nat) (fault : SyntaxFault)
  | undefinedLabel (line : Nat) (label : String)
  | duplicateLabel (line : Nat) (label : String)
  | addressOverflow (line : Nat)
  deriving DecidableEq, Repr

/-- The report of an assembly error. -/
def AssemblyError.message : AssemblyError → String
  | syntaxFault line fault => "syntax error on line " ++ toString line ++ ": " ++ fault.message
  | undefinedLabel line label => "undefined label on line " ++ toString line ++ ": " ++ label
  | duplicateLabel line label => "duplicate label on line " ++ toString line ++ ": " ++ label
  | addressOverflow line => "line " ++ toString line ++ " runs past micro-address 0xFF"

/-- A word that waits for the address of a label. -/
structure Reference where
  /-- The place of the word in the output. -/
  index : Nat
  label : String
  line : Nat
  deriving DecidableEq, Repr

/-- What is known after some lines of a listing. -/
structure Assembly where
  /-- The address of the next word. -/
  next : Nat := 0
  /-- The labels with their addresses. -/
  symbols : List (String × UInt8) := []
  /-- The labels that wait for the next word, with their lines. -/
  waiting : List (String × Nat) := []
  references : Array Reference := #[]
  words : Array MicroWord := #[]

namespace Assembly

/-- Whether a label is defined, bound or waiting. -/
def defines (a : Assembly) (label : String) : Bool :=
  a.symbols.any (fun symbol => symbol.1 == label) || a.waiting.any (fun entry => entry.1 == label)

/-- Defines the label that stands in front of a colon. -/
def define (a : Assembly) (line : Nat) (token : Token) : Except AssemblyError Assembly :=
  let label := Listing.labelName token
  if label.isEmpty then .error (.syntaxFault line .emptyLabel)
  else if a.defines label then .error (.duplicateLabel line label)
  else .ok { a with waiting := a.waiting ++ [(label, line)] }

/-- The address of the next word, for something on the given line. -/
def address (a : Assembly) (line : Nat) : Except AssemblyError UInt8 :=
  if a.next < 256 then .ok (UInt8.ofNat a.next) else .error (.addressOverflow line)

/-- Points every waiting label at an address. -/
def bindLabels (a : Assembly) (address : UInt8) : Assembly :=
  { a with
    symbols := a.symbols ++ a.waiting.map (fun entry => (entry.1, address))
    waiting := [] }

/-- The jump address that a word is written with, and the reference that it leaves. -/
def jumpAddress (a : Assembly) (line : Nat) : Target → UInt8 × Array Reference
  | .fixed address => (address, #[])
  | .label name => (0, #[{ index := a.words.size, label := name, line }])

/-- Writes a word at the next address. It carries the label that was defined last. -/
def emit (a : Assembly) (line : Nat) (hi mid : UInt8) (target : Target) :
    Except AssemblyError Assembly := do
  let (jumpAddress, reference) := a.jumpAddress line target
  let address ← a.address line
  let word ← (MicroWord.ofCodes (hi >>> 4) (hi &&& 0xF) (mid >>> 4) (mid &&& 0xF)
    jumpAddress).mapError (fun e => .syntaxFault line (.codes e))
  let label := a.waiting.getLast?.map Prod.fst
  return { a.bindLabels address with
    next := a.next + 1
    references := a.references ++ reference
    words := a.words.push { word with label, address := some address } }

/-- The effect of a body. -/
def body (a : Assembly) (line : Nat) : Body → Except AssemblyError Assembly
  | .nothing => .ok a
  | .origin address => .ok { a with next := address.toNat }
  | .word hi mid target => a.emit line hi mid target

/-- The effect of a line. A label takes effect before the body is looked at. -/
def line (a : Assembly) (numbered : List Char × Nat) : Except AssemblyError Assembly := do
  let (label, rest) := Listing.splitLabel (Listing.tokens numbered.1)
  let labelled ← match label with
    | some token => a.define numbered.2 token
    | none => .ok a
  let body ← (Body.ofTokens rest).mapError (.syntaxFault numbered.2)
  labelled.body numbered.2 body

/-- Points a word at the label that it refers to. -/
def resolve (symbols : List (String × UInt8)) (words : Array MicroWord) (r : Reference) :
    Except AssemblyError (Array MicroWord) :=
  match symbols.lookup r.label with
  | some address => .ok (words.modify r.index (·.retarget address))
  | none => .error (.undefinedLabel r.line r.label)

/-- Binds the labels behind the last word and resolves the references. -/
def finish (a : Assembly) : Except AssemblyError Assembly := do
  let bound ← match a.waiting.getLast? with
    | some (_, line) => (a.address line).map a.bindLabels
    | none => .ok a
  let words ← bound.references.toList.foldlM (resolve bound.symbols) bound.words
  return { bound with words }

/-- The assembly of a whole listing. -/
def ofSource (source : String) : Except AssemblyError Assembly := do
  let read ← (Listing.numberedLines source).foldlM line {}
  read.finish

/-- What is recorded of a finished assembly. -/
def entry (a : Assembly) : Trace.Entry :=
  .assembled a.words.size a.symbols.length

end Assembly

/-- The words of a listing, each with its address and with the label defined last in front of
    it. -/
def assemble (source : String) : Except AssemblyError (List MicroWord) :=
  (Assembly.ofSource source).map (·.words.toList)

end Microcode
