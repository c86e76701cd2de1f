import Microcode.Proofs.Json.Reading
import Microcode.Proofs.Json.Records
import Microcode.Proofs.Names
import Microcode.Proofs.Outcomes
/-!
# Table Files Read Back

The rows and the file of a control table give the table back.

A row is read cell by cell, and a cell that is written for an entry names that entry and no other,
whatever else the table holds. So the rows of a table are read one by one as what its codes select,
and sixteen selections make up a table again. The file adds nothing but the JSON text, in which
four texts are written for each row.

## Theorems

* `TableRow.restores`: A row is restored from its JSON value.
* `Selection.ofRow_toRow`: A row is read as the selection for which it was written.
* `selections_map_toRow`: So are the rows of many selections.
* `ofRows_toRows`: The rows of a table give the table.
* `table_file_restores`: So does the text of the file.
-/

namespace Microcode

open Json

/-- A row is restored with its four texts. -/
theorem TableRow.restores : Restores toJson ofJson? := by
  intro row
  have h : row.toJson.members? _ = _ :=
    members?_record ["write", "read", "alu", "jump"]
      [.string row.write, .string row.read, .string row.alu, .string row.jump] rfl (by decide)
  rw [ofJson?, h]
  rfl

/-- A row is read as the selection for which it was written, whatever its number. -/
theorem Selection.ofRow_toRow (number : Nat) (s : Selection) :
    ofRow number s.toRow = .ok s := by
  have hslot : ∀ slot : Slot, Slot.ofName slot.name = .ok slot := fun slot =>
    (Slot.ofName_eq_ok_iff _ slot).mpr ((Text.equalUpToCase_iff _ _).mpr rfl)
  have hjump : JumpCondition.ofName s.jump.name = .ok s.jump :=
    (JumpCondition.ofName_eq_ok_iff _ s.jump).mpr ((Text.equalUpToCase_iff _ _).mpr rfl)
  simp only [ofRow, toRow, cell, hslot, aluOfName_aluName, hjump]
  rfl

namespace ControlTable

theorem selections_map_toRow (number : Nat) (list : List Selection) :
    selections number (list.map Selection.toRow) = .ok list := by
  induction list generalizing number with
  | nil => rfl
  | cons s list ih =>
      rw [List.map_cons, selections, Selection.ofRow_toRow, ih]
      rfl

/-- A table is made up of what its codes select. -/
theorem ofSelections_selection (t : ControlTable)
    (h : ((List.finRange 16).map t.selection).toArray.size = 16) :
    ofSelections ⟨((List.finRange 16).map t.selection).toArray, h⟩ = t := by
  have hget : ∀ (i : Nat) (hi : i < 16),
      (⟨((List.finRange 16).map t.selection).toArray, h⟩ : Vector Selection 16)[i] =
        t.selection ⟨i, hi⟩ := by
    intro i hi
    simp only [Vector.getElem_mk, List.getElem_toArray, List.getElem_map, List.getElem_finRange,
      Fin.cast_mk]
  cases t
  simp only [ofSelections, ControlTable.mk.injEq]
  refine ⟨?_, ?_, ?_, ?_⟩ <;>
    exact Vector.ext (fun i hi => by rw [Vector.getElem_map, hget i hi]; rfl)

/-- The rows of a table give the table. -/
theorem ofRows_toRows (t : ControlTable) : ofRows t.toRows = .ok t := by
  have hrows : t.toRows = ((List.finRange 16).map t.selection).map Selection.toRow := by
    rw [toRows, List.map_map]
    rfl
  have hlength : t.toRows.length = 16 := by
    rw [toRows, List.length_map, List.length_finRange]
  have hsize : ((List.finRange 16).map t.selection).toArray.size = 16 := by
    rw [List.size_toArray, List.length_map, List.length_finRange]
  rw [ofRows, if_pos hlength, bind_eq_ok_iff]
  refine ⟨(List.finRange 16).map t.selection, ?_, ?_⟩
  · rw [hrows, selections_map_toRow]
  · rw [dif_pos hsize, ofSelections_selection t hsize]

/-- The rows of a table, and the text of its file, are read as the table, whatever its columns
    hold. -/
theorem table_file_restores (t : ControlTable) :
    ofRows t.toRows = .ok t ∧ ofText t.toText = .ok t := by
  refine ⟨ofRows_toRows t, ?_⟩
  rw [ofText, toText, parse?_pretty, Option.bind_some, TableRow.restores.items]
  exact ofRows_toRows t

end ControlTable

end Microcode
