import Microcode.Control.Table
import Microcode.Json.Parser
import Microcode.Json.Printer
/-!
# Table Files

A control table as the rows of a file, and the table that the rows of a file give.

A table file is a JSON list with one row for each code, in the order of the codes. A row names
what the code selects in each field; `unused` in the ALU column stands for no function. The
names are those of `Slot`, `AluFunction` and `JumpCondition`. A row that names something unknown
makes the whole file invalid, and the first such name is reported: rows come in order, and
within a row the fields in the order write, read, ALU, jump.

## Main definitions

* `TableRow`: The names in one row.
* `TableError`: Why a file does not give a table.
* `ControlTable.toRows`, `ControlTable.ofRows`: Between tables and rows.
* `ControlTable.toText`, `ControlTable.ofText`: Between tables and the text of files.
-/

namespace Microcode

/-- What one code selects, by name. -/
structure TableRow where
  write : String
  read : String
  alu : String
  jump : String
  deriving DecidableEq, Repr

/-- Why a file does not give a control table. -/
inductive TableError where
  /-- The text is not JSON, or not a list of rows. -/
  | malformed
  | rowCount (found : Nat)
  | unknownIdentifier (row : Nat) (column : Field) (name : String)
  deriving DecidableEq, Repr

/-- The report of a table error. -/
def TableError.message : TableError → String
  | malformed => "malformed table file:"
  | rowCount found => "expected 16 rows, found " ++ toString found
  | unknownIdentifier row column name =>
    "row " ++ Text.hexLiteral row ++ ", " ++ column.name ++ " column: unknown identifier '" ++
      name ++ "'"

namespace TableRow

/-- A row as JSON. -/
def toJson (row : TableRow) : Json :=
  .record [("write", .string row.write), ("read", .string row.read), ("alu", .string row.alu),
    ("jump", .string row.jump)]

/-- The row that a JSON value gives. -/
def ofJson? (j : Json) : Option TableRow := do
  let [write, read, alu, jump] ← j.members? ["write", "read", "alu", "jump"] | none
  return {
    write := ← Json.required Json.text? write
    read := ← Json.required Json.text? read
    alu := ← Json.required Json.text? alu
    jump := ← Json.required Json.text? jump }

end TableRow

/-- What one code selects. -/
structure Selection where
  write : Slot
  read : Slot
  alu : Option AluFunction
  jump : JumpCondition
  deriving DecidableEq

namespace Selection

/-- The name of an entry in the ALU column. -/
def aluName : Option AluFunction → String
  | some f => f.symbol
  | none => "unused"

/-- The entry of the ALU column that a text names. -/
def aluOfName (text : String) : Except UnknownName (Option AluFunction) :=
  if Text.equalUpToCase text.toList "unused".toList then .ok none
  else (AluFunction.ofSymbol text).map some

/-- The row with the names of a selection. -/
def toRow (s : Selection) : TableRow :=
  ⟨s.write.name, s.read.name, aluName s.alu, s.jump.name⟩

/-- The value that a cell of a table names, with the cell's place for the report. -/
def cell {α : Type} (row : Nat) (column : Field) (read : String → Except UnknownName α)
    (text : String) : Except TableError α :=
  (read text).mapError (fun _ => .unknownIdentifier row column text)

/-- The selection that the row with the given number names. -/
def ofRow (number : Nat) (row : TableRow) : Except TableError Selection := do
  return {
    write := ← cell number .write Slot.ofName row.write
    read := ← cell number .read Slot.ofName row.read
    alu := ← cell number .alu aluOfName row.alu
    jump := ← cell number .jump JumpCondition.ofName row.jump }

end Selection

namespace ControlTable

/-- What the code of a row selects. -/
def selection (t : ControlTable) (code : Fin 16) : Selection :=
  ⟨t.write[code.val], t.read[code.val], t.alu[code.val], t.jump[code.val]⟩

/-- The table with the given selections, in the order of the codes. -/
def ofSelections (selections : Vector Selection 16) : ControlTable :=
  ⟨selections.map (·.write), selections.map (·.read), selections.map (·.alu),
    selections.map (·.jump)⟩

/-- The rows of a table, in the order of the codes. -/
def toRows (t : ControlTable) : List TableRow :=
  (List.finRange 16).map (fun code => (t.selection code).toRow)

/-- The selections that rows name, numbered from the given row on. -/
def selections (number : Nat) : List TableRow → Except TableError (List Selection)
  | [] => .ok []
  | row :: rest => do return (← Selection.ofRow number row) :: (← selections (number + 1) rest)

/-- The table that rows name. There have to be sixteen. -/
def ofRows (rows : List TableRow) : Except TableError ControlTable :=
  if rows.length = 16 then do
    let list ← selections 0 rows
    if h : list.toArray.size = 16 then .ok (ofSelections ⟨list.toArray, h⟩)
    else .error (.rowCount list.length)
  else .error (.rowCount rows.length)

/-- The text of the file for a table. -/
def toText (t : ControlTable) : String :=
  (Json.array (t.toRows.map TableRow.toJson)).pretty

/-- The table that the text of a file gives. -/
def ofText (text : String) : Except TableError ControlTable :=
  match (Json.parse? text).bind (Json.items? TableRow.ofJson?) with
  | some rows => ofRows rows
  | none => .error .malformed

end ControlTable

end Microcode
