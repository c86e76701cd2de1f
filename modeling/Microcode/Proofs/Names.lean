import Microcode.Control.TableFile
import Microcode.Proofs.Lookups
import Microcode.Proofs.Text.LetterCase
/-!
# Names in a Table

What a name in a table stands for.

Every kind of thing that a table speaks of is looked up in a list of candidates, and the first
candidate whose name agrees up to case is taken. No two candidates of a kind have names that agree
up to case, so it makes no difference in which order they are tried, and a name stands for what it
is the name of and for nothing else. For slots this covers two lists, the pseudo slots and the
registers that are tried after them, and for the ALU column a word of its own besides the symbols.

## Main definitions

* `Slot.all`: All slots, in the order in which names are tried.

## Theorems

* `findNamed?_eq_some_iff`: The candidate with a name.
* `Slot.ofName_eq_ok_iff`, `JumpCondition.ofName_eq_ok_iff`, `AluFunction.ofSymbol_eq_ok_iff`: What
  a text names.
* `aluOfName_aluName`: An entry of the ALU column is found by the name that is written for it.
-/

namespace Microcode

section Candidates

variable {α : Type}

/-- What is found by a name is what has the name, if names are distinct. -/
theorem findNamed?_eq_some_iff (name : α → String) (candidates : List α) (text : String)
    (hnames : (candidates.map (fun a => (name a).toList.map Char.toLower)).Nodup) (a : α) :
    findNamed? name candidates text = some a ↔
      a ∈ candidates ∧ Text.equalUpToCase (name a).toList text.toList = true := by
  rw [findNamed?, Text.equalUpToCase_iff]
  exact find?_eq_some_iff_of_nodup candidates _ _ _ (fun b => Text.equalUpToCase_iff _ _) hnames a

end Candidates

namespace Slot

/-- All slots, in the order in which names are tried. -/
def all : List Slot :=
  pseudo ++ Register.all.map reg

theorem mem_all (slot : Slot) : slot ∈ all := by
  cases slot with
  | reg r => cases r <;> decide
  | _ => decide

-- The pseudo slots and the registers are one list of candidates.
theorem ofName_eq (text : String) :
    ofName text = match findNamed? name all text with
      | some slot => .ok slot
      | none => .error (.register text) := by
  have happend : findNamed? name all text =
      (findNamed? name pseudo text).or ((findNamed? Register.name Register.all text).map reg) := by
    rw [findNamed?, all, List.find?_append, List.find?_map]
    rfl
  rw [happend, ofName, Register.ofName]
  cases findNamed? name pseudo text with
  | some slot => rfl
  | none => cases findNamed? Register.name Register.all text <;> rfl

theorem names_nodup : (all.map (fun slot => slot.name.toList.map Char.toLower)).Nodup := by
  decide

/-- A text names a slot exactly if it is the name of the slot up to case. -/
theorem ofName_eq_ok_iff (text : String) (slot : Slot) :
    ofName text = .ok slot ↔ Text.equalUpToCase slot.name.toList text.toList = true := by
  have h := findNamed?_eq_some_iff name all text names_nodup slot
  rw [and_iff_right slot.mem_all] at h
  rw [← h, ofName_eq]
  cases findNamed? name all text with
  | none => simp only [reduceCtorEq]
  | some found => simp only [Except.ok.injEq, Option.some.injEq]

end Slot

namespace JumpCondition

theorem mem_all (condition : JumpCondition) : condition ∈ all := by
  cases condition <;> decide

theorem names_nodup :
    (all.map (fun condition => condition.name.toList.map Char.toLower)).Nodup := by
  decide

/-- A text names a condition exactly if it is the name of the condition up to case. -/
theorem ofName_eq_ok_iff (text : String) (condition : JumpCondition) :
    ofName text = .ok condition ↔
      Text.equalUpToCase condition.name.toList text.toList = true := by
  have h := findNamed?_eq_some_iff name all text names_nodup condition
  rw [and_iff_right condition.mem_all] at h
  rw [← h, ofName]
  cases findNamed? name all text with
  | none => simp only [reduceCtorEq]
  | some found => simp only [Except.ok.injEq, Option.some.injEq]

end JumpCondition

namespace AluFunction

theorem mem_all (f : AluFunction) : f ∈ all := by
  cases f <;> decide

theorem symbols_nodup :
    (all.map (fun f => (Text.squeeze f.symbol.toList).map Char.toLower)).Nodup := by
  decide

/-- A text denotes a function exactly if it is the symbol of the function up to blanks and
    case. -/
theorem ofSymbol_eq_ok_iff (text : String) (f : AluFunction) :
    ofSymbol text = .ok f ↔
      Text.equalUpToCase (Text.squeeze f.symbol.toList) (Text.squeeze text.toList) = true := by
  have h := find?_eq_some_iff_of_nodup all _
    (fun f => Text.equalUpToCase (Text.squeeze f.symbol.toList) (Text.squeeze text.toList)) _
    (fun f => Text.equalUpToCase_iff _ _) symbols_nodup f
  rw [and_iff_right f.mem_all] at h
  rw [Text.equalUpToCase_iff, ← h]
  simp only [ofSymbol]
  cases all.find? _ with
  | none => simp only [reduceCtorEq]
  | some found => simp only [Except.ok.injEq, Option.some.injEq]

end AluFunction

namespace Selection

-- The word for no function is no symbol.
theorem symbol_ne_unused (f : AluFunction) :
    Text.equalUpToCase f.symbol.toList "unused".toList = false := by
  cases f <;> decide

theorem aluOfName_aluName (entry : Option AluFunction) : aluOfName (aluName entry) = .ok entry := by
  cases entry with
  | none => rfl
  | some f =>
      have hself := (AluFunction.ofSymbol_eq_ok_iff f.symbol f).mpr
        ((Text.equalUpToCase_iff _ _).mpr rfl)
      rw [aluName, aluOfName, symbol_ne_unused f, if_neg Bool.false_ne_true, hself]
      rfl

end Selection

end Microcode
