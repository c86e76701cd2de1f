import Microcode.Text.Capital
/-!
# Names

How the things that a microprogram speaks of are found by their names.

Registers, slots and jump conditions go by fixed names, in which the case of the letters A to Z
does not matter. A table file and a person at the debugger use the same names.

## Main definitions

* `findNamed?`: The first candidate of a given name.
* `UnknownName`: A text that names nothing of its kind.
* `UnknownName.message`: The report of such a text.
-/

namespace Microcode

/-- The first candidate whose name is `text`, up to the case of the letters A to Z. -/
def findNamed? {α : Type} (name : α → String) (candidates : List α) (text : String) : Option α :=
  candidates.find? (fun a => Text.equalUpToCase (name a).toList text.toList)

/-- A text that names nothing of the kind that was asked for. -/
inductive UnknownName where
  | register (text : String)
  | aluFunction (text : String)
  | jumpCondition (text : String)
  deriving DecidableEq, Repr

/-- The report of a text that names nothing. -/
def UnknownName.message : UnknownName → String
  | .register text => "unknown register '" ++ text ++ "'"
  | .aluFunction text => "unknown ALU function '" ++ text ++ "'"
  | .jumpCondition text => "unknown jump condition '" ++ text ++ "'"

end Microcode
