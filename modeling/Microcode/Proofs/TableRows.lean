import Mathlib.Data.List.Forall2
import Mathlib.Data.Nat.Find
import Microcode.Proofs.Names
import Microcode.Proofs.Outcomes
/-!
# What the Rows of a Table Say

Which rows give a control table, and what is reported of the others.

A cell is the name of something or it is not, and each column has names of its own: slots, jump
conditions, and for the ALU either a symbol, in which blanks have no meaning, or the word for no
function, in which they do. `Says` puts the four columns together. A row that says something says
one thing only, since no two things of a kind have names that agree.

`Verdict` is what rows come to, said without reading them. The order in which cells are looked at
is in `FirstUnknown`: the rows in front of the reported one are known in all columns, and the
reported row in all columns in front of the reported one. A table has an entry for every code, so
when rows are read as a table there is no entry left that does not come from them.

## Main definitions

* `TableRow.Says`: A row is made up of the names of a selection.
* `TableRow.Known`: A cell is the name of something.
* `TableRow.FirstUnknown`, `ControlTable.FirstUnknown`: The first cell that is not, in a row and in
  a list of rows.
* `ControlTable.Verdict`: What rows come to.

## Theorems

* `cell_of_known`, `cell_of_unknown`: A cell is read or reported.
* `ofRow_eq_ok_iff`, `ofRow_of_firstUnknown`: So is a row, for its first cell that is not known.
* `Says.unique`: A row says one thing only.
* `selections_of_said`, `selections_of_unknown`: Many rows are read, or the first bad one reported.
* `known_or_firstUnknown`: All cells are known, or one is the first that is not.
* `ofRows_of_known`, `ofRows_of_firstUnknown`: The two ways of sixteen rows.
* `ofRows_verdict`: What rows come to is what is read of them.
-/

namespace Microcode

/-- The place of a field among the columns of a table. -/
def Field.rank : Field → Nat
  | write => 0
  | read => 1
  | alu => 2
  | jump => 3

/-- A cell of the ALU column says that there is no function, or else which one there is. Blanks have
    no meaning in the symbol of a function, but the word for no function is written without any. -/
def Selection.AluNamed (text : String) : Option AluFunction → Prop
  | none => Text.equalUpToCase text.toList "unused".toList = true
  | some f =>
    Text.equalUpToCase text.toList "unused".toList = false ∧
      Text.equalUpToCase (Text.squeeze f.symbol.toList) (Text.squeeze text.toList) = true

namespace TableRow

/-- The text in a column of a row. -/
def text (row : TableRow) : Field → String
  | .write => row.write
  | .read => row.read
  | .alu => row.alu
  | .jump => row.jump

/-- A row says what a code selects: its cells are the names of the selection. -/
structure Says (row : TableRow) (s : Selection) : Prop where
  write : Text.equalUpToCase s.write.name.toList row.write.toList = true
  read : Text.equalUpToCase s.read.name.toList row.read.toList = true
  alu : Selection.AluNamed row.alu s.alu
  jump : Text.equalUpToCase s.jump.name.toList row.jump.toList = true

/-- The cell in a column is the name of something. -/
def Known (row : TableRow) : Field → Prop
  | .write => ∃ slot : Slot, Text.equalUpToCase slot.name.toList row.write.toList = true
  | .read => ∃ slot : Slot, Text.equalUpToCase slot.name.toList row.read.toList = true
  | .alu => ∃ entry, Selection.AluNamed row.alu entry
  | .jump => ∃ condition : JumpCondition,
      Text.equalUpToCase condition.name.toList row.jump.toList = true

/-- A column of a row holds the first cell that is the name of nothing. -/
structure FirstUnknown (row : TableRow) (column : Field) : Prop where
  unknown : ¬ row.Known column
  before : ∀ c : Field, c.rank < column.rank → row.Known c

/-- All cells of a row are names of something, or there is a first one that is not. -/
theorem known_or_firstUnknown (row : TableRow) :
    (∀ c, row.Known c) ∨ ∃ column, row.FirstUnknown column := by
  classical
  by_cases hall : ∀ c, row.Known c
  · exact Or.inl hall
  · rw [not_forall] at hall
    rcases hall with ⟨c, hc⟩
    have hex : ∃ n, ∃ c : Field, c.rank = n ∧ ¬ row.Known c := ⟨_, c, rfl, hc⟩
    rcases Nat.find_spec hex with ⟨column, hrank, hunknown⟩
    refine Or.inr ⟨column, hunknown, fun d hd => ?_⟩
    rw [hrank] at hd
    by_contra hnot
    exact Nat.find_min hex hd ⟨d, rfl, hnot⟩

end TableRow

namespace Selection

theorem aluOfName_eq_ok_iff (text : String) (entry : Option AluFunction) :
    aluOfName text = .ok entry ↔ AluNamed text entry := by
  rw [aluOfName]
  cases hunused : Text.equalUpToCase text.toList "unused".toList with
  | true =>
      rw [if_pos rfl]
      cases entry with
      | none => exact ⟨fun _ => hunused, fun _ => rfl⟩
      | some f =>
          refine ⟨fun h => ?_, fun h => ?_⟩
          · cases h
          · exact absurd (h.1.symm.trans hunused) Bool.false_ne_true
  | false =>
      rw [if_neg Bool.false_ne_true, map_eq_ok_iff]
      cases entry with
      | none =>
          refine ⟨?_, fun h => ?_⟩
          · rintro ⟨f, _, hf⟩
            cases hf
          · exact absurd (hunused.symm.trans h) Bool.false_ne_true
      | some f =>
          simp only [Option.some.injEq, exists_eq_right, AluFunction.ofSymbol_eq_ok_iff]
          exact ⟨fun h => ⟨hunused, h⟩, fun h => h.2⟩

section Cell

variable {α : Type} {read : String → Except UnknownName α} {text : String} {P : α → Prop}

/-- A cell is read if its text is the name of something, where `P` holds of what it names. -/
theorem cell_of_known (number : Nat) (column : Field) (hread : ∀ a, read text = .ok a ↔ P a)
    (h : ∃ a, P a) : ∃ a, cell number column read text = .ok a := by
  rcases h with ⟨a, ha⟩
  exact ⟨a, by rw [cell, (hread a).mpr ha]; rfl⟩

/-- A cell whose text is the name of nothing is reported. -/
theorem cell_of_unknown (number : Nat) (column : Field) (hread : ∀ a, read text = .ok a ↔ P a)
    (h : ¬ ∃ a, P a) :
    cell number column read text = .error (.unknownIdentifier number column text) := by
  rw [cell]
  cases htext : read text with
  | ok a => exact absurd ⟨a, (hread a).mp htext⟩ h
  | error e => rfl

end Cell

/-- A row is read as a selection if it says what the code selects. -/
theorem ofRow_eq_ok_iff (number : Nat) (row : TableRow) (s : Selection) :
    ofRow number row = .ok s ↔ row.Says s := by
  simp only [ofRow, cell, bind_eq_ok_iff, mapError_eq_ok_iff, Slot.ofName_eq_ok_iff,
    aluOfName_eq_ok_iff, JumpCondition.ofName_eq_ok_iff]
  constructor
  · rintro ⟨write, hw, read, hr, alu, ha, jump, hj, h⟩
    cases h
    exact ⟨hw, hr, ha, hj⟩
  · intro h
    exact ⟨s.write, h.write, s.read, h.read, s.alu, h.alu, s.jump, h.jump, rfl⟩

/-- A row is reported for its first cell that names nothing. -/
theorem ofRow_of_firstUnknown (number : Nat) (row : TableRow) (column : Field)
    (h : row.FirstUnknown column) :
    ofRow number row = .error (.unknownIdentifier number column (row.text column)) := by
  have hslot := Slot.ofName_eq_ok_iff
  have halu := aluOfName_eq_ok_iff row.alu
  have hjump := JumpCondition.ofName_eq_ok_iff row.jump
  have hwrite := fun hlt => cell_of_known number .write (hslot row.write) (h.before .write hlt)
  have hread := fun hlt => cell_of_known number .read (hslot row.read) (h.before .read hlt)
  -- The cells in front of the unknown one name something, so they are passed.
  cases column with
  | write =>
      rw [ofRow, cell_of_unknown number .write (hslot row.write) h.unknown]
      rfl
  | read =>
      rcases hwrite (by decide) with ⟨w, hw⟩
      rw [ofRow, hw, cell_of_unknown number .read (hslot row.read) h.unknown]
      rfl
  | alu =>
      rcases hwrite (by decide) with ⟨w, hw⟩
      rcases hread (by decide) with ⟨r, hr⟩
      rw [ofRow, hw, hr, cell_of_unknown number .alu halu h.unknown]
      rfl
  | jump =>
      rcases hwrite (by decide) with ⟨w, hw⟩
      rcases hread (by decide) with ⟨r, hr⟩
      rcases cell_of_known number .alu halu (h.before .alu (by decide)) with ⟨a, ha⟩
      rw [ofRow, hw, hr, ha, cell_of_unknown number .jump hjump h.unknown]
      rfl

end Selection

namespace TableRow

/-- A row whose cells are all known says something. -/
theorem exists_said (row : TableRow) (h : ∀ c, row.Known c) : ∃ s, row.Says s := by
  rcases h .write with ⟨write, hw⟩
  rcases h .read with ⟨read, hr⟩
  rcases h .alu with ⟨alu, ha⟩
  rcases h .jump with ⟨jump, hj⟩
  exact ⟨⟨write, read, alu, jump⟩, hw, hr, ha, hj⟩

theorem Says.known {row : TableRow} {s : Selection} (h : row.Says s) (c : Field) :
    row.Known c := by
  cases c with
  | write => exact ⟨s.write, h.write⟩
  | read => exact ⟨s.read, h.read⟩
  | alu => exact ⟨s.alu, h.alu⟩
  | jump => exact ⟨s.jump, h.jump⟩

/-- A row says one thing only. -/
theorem Says.unique {row : TableRow} {s s' : Selection} (h : row.Says s) (h' : row.Says s') :
    s' = s := by
  have hs := (Selection.ofRow_eq_ok_iff 0 row s).mpr h
  have hs' := (Selection.ofRow_eq_ok_iff 0 row s').mpr h'
  exact Except.ok.inj (hs'.symm.trans hs)

end TableRow

namespace ControlTable

/-- The first cell of some rows that is the name of nothing: the number of its row, its column and
    its text. Rows are counted from zero. -/
inductive FirstUnknown (rows : List TableRow) : Nat → Field → String → Prop where
  | cell (before after : List TableRow) (row : TableRow) (column : Field)
      (hrows : rows = before ++ row :: after) (hbefore : ∀ r, r ∈ before → ∀ c, r.Known c)
      (h : row.FirstUnknown column) :
      FirstUnknown rows before.length column (row.text column)

/-- Rows are read as what they say. -/
theorem selections_of_said (number : Nat) (rows : List TableRow) (list : List Selection)
    (h : List.Forall₂ TableRow.Says rows list) : selections number rows = .ok list := by
  induction h generalizing number with
  | nil => rfl
  | cons hsaid _ ih =>
      rw [selections, (Selection.ofRow_eq_ok_iff number _ _).mpr hsaid, ih]
      rfl

theorem exists_said_of_known (rows : List TableRow) (h : ∀ r, r ∈ rows → ∀ c, r.Known c) :
    ∃ list, List.Forall₂ TableRow.Says rows list := by
  induction rows with
  | nil => exact ⟨[], .nil⟩
  | cons row rows ih =>
      rw [List.forall_mem_cons] at h
      rcases row.exists_said h.1 with ⟨s, hs⟩
      rcases ih h.2 with ⟨list, hlist⟩
      exact ⟨s :: list, .cons hs hlist⟩

/-- Behind rows that are known, the first row that is not is reported. -/
theorem selections_of_unknown (number : Nat) (before after : List TableRow) (row : TableRow)
    (column : Field) (hbefore : ∀ r, r ∈ before → ∀ c, r.Known c) (h : row.FirstUnknown column) :
    selections number (before ++ row :: after) =
      .error (.unknownIdentifier (number + before.length) column (row.text column)) := by
  induction before generalizing number with
  | nil =>
      rw [List.nil_append, selections, Selection.ofRow_of_firstUnknown number row column h]
      rfl
  | cons first before ih =>
      rw [List.forall_mem_cons] at hbefore
      rcases first.exists_said hbefore.1 with ⟨s, hs⟩
      rw [List.cons_append, selections, (Selection.ofRow_eq_ok_iff number _ _).mpr hs,
        ih (number + 1) hbefore.2, List.length_cons, Nat.add_assoc, Nat.add_comm 1]
      rfl

/-- All rows are known, or there is a first cell that is not. -/
theorem known_or_firstUnknown (rows : List TableRow) :
    (∀ r, r ∈ rows → ∀ c, r.Known c) ∨
      ∃ number column text, FirstUnknown rows number column text := by
  induction rows with
  | nil => exact Or.inl (fun r hr => absurd hr List.not_mem_nil)
  | cons row rows ih =>
      rcases row.known_or_firstUnknown with hknown | ⟨column, hcolumn⟩
      · rcases ih with hall | ⟨_, column, _, ⟨before, after, r, _, rfl, hbefore, h⟩⟩
        · exact Or.inl (List.forall_mem_cons.mpr ⟨hknown, hall⟩)
        · exact Or.inr ⟨_, column, _, .cell (row :: before) after r column rfl
            (List.forall_mem_cons.mpr ⟨hknown, hbefore⟩) h⟩
      · exact Or.inr ⟨_, column, _, .cell [] rows row column rfl
          (fun r hr => absurd hr List.not_mem_nil) hcolumn⟩

/-- Rows of the right number are reported for their first unknown cell. -/
theorem ofRows_of_firstUnknown (rows : List TableRow) (number : Nat) (column : Field)
    (text : String) (hlength : rows.length = 16) (h : FirstUnknown rows number column text) :
    ofRows rows = .error (.unknownIdentifier number column text) := by
  cases h with
  | cell before after row _ hrows hbefore h =>
      rw [ofRows, if_pos hlength, hrows, selections_of_unknown 0 before after row column hbefore h,
        Nat.zero_add]
      rfl

/-- What a code selects in a table that was put together from selections. -/
theorem selection_ofSelections (list : Vector Selection 16) (code : Fin 16) :
    (ofSelections list).selection code = list.get code := by
  simp only [selection, ofSelections, Vector.getElem_map]
  rfl

/-- Tables in which every code selects the same are equal. -/
theorem ext_selection (t t' : ControlTable) (h : ∀ code, t.selection code = t'.selection code) :
    t = t' := by
  cases t
  cases t'
  rw [ControlTable.mk.injEq]
  exact ⟨Vector.ext (fun i hi => congrArg Selection.write (h ⟨i, hi⟩)),
    Vector.ext (fun i hi => congrArg Selection.read (h ⟨i, hi⟩)),
    Vector.ext (fun i hi => congrArg Selection.alu (h ⟨i, hi⟩)),
    Vector.ext (fun i hi => congrArg Selection.jump (h ⟨i, hi⟩))⟩

/-- Rows of the right number that are all known give a table in which every code selects what its
    row says. -/
theorem ofRows_of_known (rows : List TableRow) (hlength : rows.length = 16)
    (h : ∀ r, r ∈ rows → ∀ c, r.Known c) :
    ∃ t, ofRows rows = .ok t ∧
      ∀ code : Fin 16, ∃ row, rows[code.val]? = some row ∧ row.Says (t.selection code) := by
  rcases exists_said_of_known rows h with ⟨list, hlist⟩
  have hsize : list.toArray.size = 16 := by
    rw [List.size_toArray, ← hlist.length_eq, hlength]
  refine ⟨ofSelections ⟨list.toArray, hsize⟩, ?_, fun code => ?_⟩
  · rw [ofRows, if_pos hlength, selections_of_said 0 rows list hlist]
    exact dif_pos hsize
  · have hrow : code.val < rows.length := by
      rw [hlength]
      exact code.isLt
    refine ⟨rows[code.val], List.getElem?_eq_getElem hrow, ?_⟩
    rw [selection_ofSelections]
    exact hlist.get hrow (by rw [← hlist.length_eq]; exact hrow)

-- A cell that is not known is in the way of all rows being known.
theorem exists_unknown_of_firstUnknown (rows : List TableRow) (number : Nat) (column : Field)
    (text : String) (h : FirstUnknown rows number column text) :
    ∃ row, row ∈ rows ∧ ∃ column, ¬ row.Known column := by
  cases h with
  | cell before after row _ hrows _ h =>
      rw [hrows]
      exact ⟨row, List.mem_append_right _ List.mem_cons_self, column, h.unknown⟩

/-- What rows come to: a report of their number, a report of the first cell that is the name of
    nothing, or the table in which every code selects what its row says and nothing else. -/
inductive Verdict (rows : List TableRow) : Except TableError ControlTable → Prop where
  | count (h : rows.length ≠ 16) : Verdict rows (.error (.rowCount rows.length))
  | unknown (h : rows.length = 16) (number : Nat) (column : Field) (text : String)
      (hfirst : FirstUnknown rows number column text) :
      Verdict rows (.error (.unknownIdentifier number column text))
  | table (h : rows.length = 16) (t : ControlTable)
      (hsaid : ∀ code : Fin 16, ∃ row, rows[code.val]? = some row ∧
        ∀ s, row.Says s ↔ s = t.selection code) : Verdict rows (.ok t)

/-- Rows come to what is read of them. -/
theorem verdict_ofRows (rows : List TableRow) : Verdict rows (ofRows rows) := by
  by_cases hlength : rows.length = 16
  · rcases known_or_firstUnknown rows with hknown | ⟨number, column, text, hfirst⟩
    · rcases ofRows_of_known rows hlength hknown with ⟨t, ht, hsaid⟩
      rw [ht]
      refine .table hlength t (fun code => ?_)
      rcases hsaid code with ⟨row, hrow, hrowis⟩
      exact ⟨row, hrow, fun s => ⟨hrowis.unique, fun hs => hs ▸ hrowis⟩⟩
    · rw [ofRows_of_firstUnknown rows number column text hlength hfirst]
      exact .unknown hlength number column text hfirst
  · have hcount : ofRows rows = .error (.rowCount rows.length) := if_neg hlength
    rw [hcount]
    exact .count hlength

/-- A table that says what the rows say is read of them. -/
theorem ofRows_of_said (rows : List TableRow) (hlength : rows.length = 16) (t : ControlTable)
    (hsaid : ∀ code : Fin 16, ∃ row, rows[code.val]? = some row ∧ row.Says (t.selection code)) :
    ofRows rows = .ok t := by
  have hknown : ∀ r, r ∈ rows → ∀ c, r.Known c := by
    intro r hr
    rcases List.getElem_of_mem hr with ⟨i, hi, rfl⟩
    rcases hsaid ⟨i, hlength ▸ hi⟩ with ⟨row, hrow, hrowis⟩
    rw [List.getElem?_eq_getElem hi] at hrow
    cases hrow
    exact hrowis.known
  rcases ofRows_of_known rows hlength hknown with ⟨t', ht', hsaid'⟩
  rw [ht', ext_selection t' t (fun code => ?_)]
  rcases hsaid code with ⟨row, hrow, hrowis⟩
  rcases hsaid' code with ⟨row', hrow', hrowis'⟩
  cases hrow.symm.trans hrow'
  exact hrowis.unique hrowis'

/-- Rows give a table exactly if there are sixteen and every cell is the name of something, and then
    each code selects the one thing that its row names, whatever the table of the hardware has for
    it. Otherwise their number is reported, or the first cell that is the name of nothing. -/
theorem ofRows_verdict (rows : List TableRow) :
    (∀ r, ofRows rows = r ↔ Verdict rows r) ∧
    ((∃ number column text, ofRows rows = .error (.unknownIdentifier number column text)) ↔
      rows.length = 16 ∧ ∃ row, row ∈ rows ∧ ∃ column, ¬ row.Known column) := by
  refine ⟨fun r => ⟨?_, fun h => ?_⟩, ?_, ?_⟩
  · rintro rfl
    exact verdict_ofRows rows
  · cases h with
    | count h => exact if_neg h
    | unknown h number column text hfirst =>
        exact ofRows_of_firstUnknown rows number column text h hfirst
    | table h t hsaid =>
        refine ofRows_of_said rows h t (fun code => ?_)
        rcases hsaid code with ⟨row, hrow, hiff⟩
        exact ⟨row, hrow, (hiff _).mpr rfl⟩
  · rintro ⟨number, column, text, h⟩
    have hverdict := verdict_ofRows rows
    rw [h] at hverdict
    cases hverdict with
    | unknown hlength _ _ _ hfirst =>
        exact ⟨hlength, exists_unknown_of_firstUnknown rows number column text hfirst⟩
  · rintro ⟨hlength, row, hrow, column, hunknown⟩
    rcases known_or_firstUnknown rows with hknown | ⟨number, c, text, hfirst⟩
    · exact absurd (hknown row hrow column) hunknown
    · exact ⟨number, c, text, ofRows_of_firstUnknown rows number c text hlength hfirst⟩

-- A later column of an earlier row is reported before an earlier column of a later row.
example :
    ofRows ((builtin.toRows.modify 3 (fun row => { row with alu := "A + C" })).modify 5
      (fun row => { row with write := "PC" })) = .error (.unknownIdentifier 3 .alu "A + C") := by
  decide +kernel

end ControlTable

end Microcode
