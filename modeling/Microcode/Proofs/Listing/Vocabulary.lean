import Microcode.Proofs.Listing.Columns
/-!
# The Words of the Notation

The register-transfer notation as a list of words.

The notation is printed with single spaces between its words, so cutting it at the spaces gives
back what the printer put together: a destination, a sign, the terms and operators of an
expression, a semicolon, and the words of a jump. The lists are written down here once more, word
by word, and the printed text is proved to consist of just these.

The semicolon between the two halves is a word of its own that occurs nowhere in the first half,
and none of the words has a question mark in it. That mark is left for what does not decode.

## Main definitions

* `Text.strings`: The words of a text.
* `AluFunction.spelled`, `DataPath.spelled`, `JumpCondition.spelled`: The words of an expression,
  of the first half and of the second half.
* `Unquestioned`: A word without a question mark.
* `operators`, `directions`: The words that do not come from a slot or an address.

## Theorems

* `strings_join`: The words of two texts with a space between them.
* `strings_expression`, `strings_dataPath`, `strings_condition`: The printed parts are their words.
* `strings_disassembleWord`: The words of the notation of a word that decodes.
* `spelled_dataPath`, `spelled_condition`: The words of both halves have no question mark, and
  those of the first half are no semicolons.
-/

namespace Microcode

namespace Text

/-- The words of a text. -/
def strings (s : String) : List String :=
  (words s.toList).map String.ofList

theorem strings_join (s t : String) : strings (s ++ " " ++ t) = strings s ++ strings t := by
  have hspace : " ".toList = [' '] := rfl
  rw [strings, String.toList_append, String.toList_append, hspace, List.append_assoc,
    List.singleton_append, words_append s.toList ' ' _ rfl, List.map_append]
  rfl

-- A text without blanks is one word.
theorem strings_of_free (s : String) (hne : s ≠ "")
    (h : ∀ c, c ∈ s.toList → isBlank c = false) : strings s = [s] := by
  have hlist : s.toList ≠ [] := fun hc => hne (String.toList_inj.mp hc)
  rw [strings, words_of_free s.toList hlist h, List.map_singleton, String.ofList_toList]

theorem strings_hexByte (b : UInt8) : strings (hexByte b) = [hexByte b] := by
  refine strings_of_free _ ?_ (fun c hc => isBlank_of_isHexDigit c (isHexDigit_hexByte b c hc))
  intro hc
  have hlist := congrArg String.toList hc
  rw [hexByte, String.toList_ofList] at hlist
  cases hlist

end Text

/-- The words of an expression. -/
def AluFunction.spelled (source : String) : AluFunction → List String
  | passB => [source]
  | passA => ["ALUin"]
  | notA => ["not", "ALUin"]
  | aAndB => ["ALUin", "and", source]
  | aOrB => ["ALUin", "or", source]
  | aXorB => ["ALUin", "xor", source]
  | aPlus1 => ["ALUin", "+", "1"]
  | aPlusB => ["ALUin", "+", source]
  | aPlusBPlus1 => ["ALUin", "+", source, "+", "1"]
  | aMinus1 => ["ALUin", "-", "1"]
  | aMinusB => ["ALUin", "-", source]
  | aMinusBMinus1 => ["ALUin", "-", source, "-", "1"]
  | one => ["1"]
  | zero => ["0"]
  | minusOne => ["-1"]

/-- The words of the first half. -/
def DataPath.spelled : DataPath → List String
  | incrementPcMar => ["MAR++,", "PC++"]
  | incrementPc => ["PC++"]
  | incrementMar => ["MAR++"]
  | idle => ["--"]
  | assign destination function source =>
    slotText destination :: ":=" :: function.spelled (slotText source)

/-- The words of the second half, with the semicolon in front of it. -/
def JumpCondition.spelled (address : UInt8) : JumpCondition → List String
  | fallThrough => []
  | always => [";", "JUMP", Text.hexByte address]
  | call => [";", "CALL", Text.hexByte address]
  | .return => [";", "RTN"]
  | opcodeIn => [";", "OPCODE-IN"]
  | conditional => [";", "JUMP", conditional.name, Text.hexByte address]

theorem strings_slotText (slot : Slot) :
    Text.strings (DataPath.slotText slot) = [DataPath.slotText slot] := by
  cases slot with
  | reg r => cases r <;> rfl
  | _ => rfl

/-- The words of an expression are found again in its text. -/
theorem strings_expression (f : AluFunction) (source : String)
    (h : Text.strings source = [source]) :
    Text.strings (DataPath.expression f source) = f.spelled source := by
  -- A text that ends in the source is a text and a word, and nothing else is printed behind it
  -- but the one that is added or taken away.
  have hlast : ∀ front : String, Text.strings (front ++ " " ++ source) =
      Text.strings front ++ [source] := by
    intro front
    rw [Text.strings_join, h]
  cases f with
  | passB => exact h
  | aAndB => exact hlast "ALUin and"
  | aOrB => exact hlast "ALUin or"
  | aXorB => exact hlast "ALUin xor"
  | aPlusB => exact hlast "ALUin +"
  | aMinusB => exact hlast "ALUin -"
  | aPlusBPlus1 =>
      have hone : DataPath.expression .aPlusBPlus1 source =
          ("ALUin +" ++ " " ++ source) ++ " " ++ "+ 1" := by
        simp only [DataPath.expression, String.append_assoc]
        rfl
      rw [hone, Text.strings_join, hlast]
      rfl
  | aMinusBMinus1 =>
      have hone : DataPath.expression .aMinusBMinus1 source =
          ("ALUin -" ++ " " ++ source) ++ " " ++ "- 1" := by
        simp only [DataPath.expression, String.append_assoc]
        rfl
      rw [hone, Text.strings_join, hlast]
      rfl
  | _ =>
      simp only [DataPath.expression, AluFunction.spelled]
      decide

/-- The words of the first half are found again in its text. -/
theorem strings_dataPath (path : DataPath) : Text.strings path.text = path.spelled := by
  cases path with
  | assign destination function source =>
      have htext : (DataPath.assign destination function source).text =
          (DataPath.slotText destination ++ " " ++ ":=") ++ " " ++
            DataPath.expression function (DataPath.slotText source) := by
        simp only [DataPath.text, String.append_assoc]
        rfl
      rw [htext, Text.strings_join, Text.strings_join, strings_slotText,
        strings_expression function _ (strings_slotText source)]
      rfl
  | _ => rfl

/-- The words of the second half are found again behind the first. -/
theorem strings_condition (first : String) (condition : JumpCondition) (address : UInt8)
    (h : condition ≠ .fallThrough) :
    Text.strings (first ++ " ; " ++ condition.text address) =
      Text.strings first ++ condition.spelled address := by
  have hcut : first ++ " ; " ++ condition.text address =
      first ++ " " ++ (";" ++ " " ++ condition.text address) := by
    simp only [String.append_assoc]
    rfl
  rw [hcut, Text.strings_join, Text.strings_join]
  congr 1
  have hjump : ∀ front, Text.strings (front ++ " " ++ Text.hexByte address) =
      Text.strings front ++ [Text.hexByte address] := by
    intro front
    rw [Text.strings_join, Text.strings_hexByte]
  cases condition with
  | fallThrough => exact absurd rfl h
  | always => exact congrArg (Text.strings ";" ++ ·) (hjump "JUMP")
  | call => exact congrArg (Text.strings ";" ++ ·) (hjump "CALL")
  | «return» =>
      simp only [JumpCondition.text, JumpCondition.spelled]
      decide
  | opcodeIn =>
      simp only [JumpCondition.text, JumpCondition.spelled]
      decide
  | ifNegative => exact congrArg (Text.strings ";" ++ ·) (hjump "JUMP neg")
  | ifZero => exact congrArg (Text.strings ";" ++ ·) (hjump "JUMP zero")
  | ifPositive => exact congrArg (Text.strings ";" ++ ·) (hjump "JUMP pos")
  | ifCarry => exact congrArg (Text.strings ";" ++ ·) (hjump "JUMP carry")
  | ifDataUnavailable => exact congrArg (Text.strings ";" ++ ·) (hjump "JUMP notCDAV")

/-- The words of the notation of a word that decodes. -/
theorem strings_disassembleWord (t : ControlTable) (word : MicroWord) (path : DataPath)
    (condition : JumpCondition) (hp : DataPath.ofWord? t word = some path)
    (hc : t.decodeJump word.jump = .ok condition) :
    Text.strings (disassembleWord word t) =
      path.spelled ++ condition.spelled word.jumpAddress := by
  unfold disassembleWord
  rw [hp, hc]
  by_cases hf : condition = .fallThrough
  · rw [hf, JumpCondition.spelled, List.append_nil]
    exact strings_dataPath path
  · rw [← strings_dataPath path, ← strings_condition path.text condition word.jumpAddress hf]
    cases condition with
    | fallThrough => exact absurd rfl hf
    | _ => rfl

/-- A word without a question mark. -/
def Unquestioned (w : String) : Prop :=
  '?' ∉ w.toList

instance (w : String) : Decidable (Unquestioned w) :=
  inferInstanceAs (Decidable ('?' ∉ w.toList))

theorem unquestioned_hexByte (b : UInt8) : Unquestioned (Text.hexByte b) := by
  intro hc
  exact absurd (Text.isHexDigit_hexByte b '?' hc) (by decide)

/-- What stands in an expression besides its source. -/
def operators : List String :=
  ["ALUin", "not", "and", "or", "xor", "+", "-", "1", "0", "-1"]

/-- What stands in the second half besides the address. -/
def directions : List String :=
  [";", "JUMP", "CALL", "RTN", "OPCODE-IN", "neg", "zero", "pos", "carry", "notCDAV"]

theorem spelled_expression (f : AluFunction) (source : String) :
    f.spelled source ⊆ source :: operators := by
  cases f <;> simp [AluFunction.spelled, operators]

/-- The words of the first half are no semicolons, and they have no question mark. -/
theorem spelled_dataPath (path : DataPath) (w : String) (hw : w ∈ path.spelled) :
    w ≠ ";" ∧ Unquestioned w := by
  have hslot : ∀ slot, DataPath.slotText slot ≠ ";" ∧ Unquestioned (DataPath.slotText slot) := by
    intro slot
    cases slot with
    | reg r => cases r <;> decide
    | _ => decide
  have hoperator : ∀ w, w ∈ operators → w ≠ ";" ∧ Unquestioned w := by decide
  revert w
  cases path with
  | assign destination function source =>
      intro w hw
      rw [DataPath.spelled, List.mem_cons, List.mem_cons] at hw
      rcases hw with rfl | rfl | hw
      · exact hslot destination
      · decide
      · rcases List.mem_cons.mp (spelled_expression function _ hw) with rfl | hw
        · exact hslot source
        · exact hoperator w hw
  | _ => decide

/-- The words of the second half have no question mark. -/
theorem spelled_condition (condition : JumpCondition) (address : UInt8) (w : String)
    (hw : w ∈ condition.spelled address) : Unquestioned w := by
  have hsubset : condition.spelled address ⊆ Text.hexByte address :: directions := by
    cases condition <;> simp [JumpCondition.spelled, JumpCondition.name, directions]
  have hdirection : ∀ w, w ∈ directions → Unquestioned w := by decide
  rcases List.mem_cons.mp (hsubset hw) with rfl | hw
  · exact unquestioned_hexByte address
  · exact hdirection w hw

end Microcode
