import Microcode.Listing.Printer
import Microcode.Proofs.Listing.Statements
/-!
# Printed Lines

A printed listing taken apart again: into its lines, and the lines into their tokens.

The printer works on one growing text, the assembler on lines. `rows` is the list of lines that
the printer means, and `lines_disassemble` says that the text is cut at just these places. That
takes an argument for every part of a line, since a line feed inside the notation of a word would
cut the line in two; `OneLine` is the property, and it passes from the names up to the line.

What a line says is then a matter of its columns. The comment is cut off, padding adds no
tokens, and the label and the three bytes stand apart.

## Main definitions

* `OneLine`: A text without a line feed.
* `originRow`, `wordRow`: The printed lines, as characters and without their line feeds.
* `rows`: The lines of several words.
* `labelTokens`: The token that a label is printed as.

## Theorems

* `oneLine_disassembleWord`: The notation of a word fits in a line.
* `toList_wordLines`: The printed text is its lines.
* `lines_disassemble`: The lines of a printed listing.
* `tokens_originRow`, `tokens_wordRow`: What the tokens of a printed line are.
* `splitLabel_wordRow`: The line of a word defines the label of the word.
-/

namespace Microcode

/-- A text without a line feed. -/
def OneLine (s : String) : Prop :=
  '\n' ∉ s.toList

instance (s : String) : Decidable (OneLine s) :=
  inferInstanceAs (Decidable ('\n' ∉ s.toList))

/-- Texts of one line form a text of one line. -/
theorem OneLine.append {s s' : String} (h : OneLine s) (h' : OneLine s') : OneLine (s ++ s') := by
  rw [OneLine, String.toList_append, List.mem_append]
  exact not_or.mpr ⟨h, h'⟩

theorem OneLine.padRight {s : String} (width : Nat) (h : OneLine s) :
    OneLine (Text.padRight width s) := by
  refine h.append ?_
  rw [OneLine, String.toList_ofList, List.mem_replicate]
  exact fun hmem => absurd hmem.2 (by decide)

theorem oneLine_hexByte (b : UInt8) : OneLine (Text.hexByte b) := by
  have hdigit : ∀ n, n < 16 → Text.hexDigit n ≠ '\n' := by decide
  have hb := b.toNat_lt
  rw [OneLine, Text.hexByte, String.toList_ofList, List.mem_cons, List.mem_singleton, not_or]
  exact ⟨(hdigit _ (by omega)).symm, (hdigit _ (by omega)).symm⟩

theorem oneLine_hexCode (b : UInt8) : OneLine (Text.hexCode b) := by
  have hdigit : ∀ n, n < 16 → Text.hexDigit n ≠ '\n' := by decide
  unfold Text.hexCode
  split
  · rename_i hb
    rw [OneLine, String.toList_ofList, List.mem_singleton]
    exact (hdigit _ hb).symm
  · exact oneLine_hexByte b

theorem oneLine_text (w : MicroWord) : OneLine w.text :=
  ((((((oneLine_hexCode _).append (oneLine_hexCode _)).append (by decide)).append
    (oneLine_hexCode _)).append (oneLine_hexCode _)).append (by decide)).append
    (oneLine_hexByte _)

theorem oneLine_slotText (slot : Slot) : OneLine (DataPath.slotText slot) := by
  cases slot with
  | reg r => cases r <;> decide
  | _ => decide

theorem oneLine_expression (f : AluFunction) (source : String) (h : OneLine source) :
    OneLine (DataPath.expression f source) := by
  have hand : OneLine "ALUin and " := by decide
  have hor : OneLine "ALUin or " := by decide
  have hxor : OneLine "ALUin xor " := by decide
  have hplus : OneLine "ALUin + " := by decide
  have hminus : OneLine "ALUin - " := by decide
  -- A function that reads B has the source in its text; the others have a text of their own.
  cases f with
  | passB => exact h
  | aAndB => exact hand.append h
  | aOrB => exact hor.append h
  | aXorB => exact hxor.append h
  | aPlusB => exact hplus.append h
  | aPlusBPlus1 => exact (hplus.append h).append (by decide)
  | aMinusB => exact hminus.append h
  | aMinusBMinus1 => exact (hminus.append h).append (by decide)
  | _ =>
      simp only [DataPath.expression]
      decide

theorem oneLine_dataPath (path : DataPath) : OneLine path.text := by
  cases path with
  | assign destination function source =>
      exact ((oneLine_slotText destination).append (by decide)).append
        (oneLine_expression function _ (oneLine_slotText source))
  | _ => decide

theorem oneLine_conditionName (condition : JumpCondition) : OneLine condition.name := by
  cases condition <;> decide

theorem oneLine_jump (condition : JumpCondition) (address : UInt8) :
    OneLine (condition.text address) := by
  have ha := oneLine_hexByte address
  have hjump : OneLine "JUMP " := by decide
  have hcall : OneLine "CALL " := by decide
  unfold JumpCondition.text
  split
  · decide
  · exact hjump.append ha
  · exact hcall.append ha
  · decide
  · decide
  · exact ((hjump.append (oneLine_conditionName condition)).append (by decide)).append ha

/-- The notation of a word fits in a line, whatever the control table makes of its codes. -/
theorem oneLine_disassembleWord (w : MicroWord) (t : ControlTable) :
    OneLine (disassembleWord w t) := by
  have hthen : OneLine " ; " := by decide
  unfold disassembleWord
  cases DataPath.ofWord? t w with
  | none =>
      have hunknown : OneLine "??? ; " := by decide
      exact hunknown.append (oneLine_text w)
  | some path =>
      have hpath := oneLine_dataPath path
      cases t.decodeJump w.jump with
      | error e => exact hpath.append (by decide)
      | ok condition =>
          cases condition with
          | fallThrough => exact hpath
          | _ => exact (hpath.append hthen).append (oneLine_jump _ _)

namespace Listing

/-- The lines of the heading. -/
def headingRows : List String :=
  ["; Medusa microcode listing", "; ------------------------", ""]

/-- The line that sets an address, without its line feed. -/
def originRow (address : UInt8) : String :=
  "        ORG " ++ Text.hexByte address

/-- The line of a word, without its line feed. -/
def wordRow (t : ControlTable) (address : UInt8) (word : MicroWord) : String :=
  Text.padRight 8 (labelColumn word.label) ++ " " ++ word.text ++ "    ; " ++
    Text.hexByte address ++ "  " ++ disassembleWord word t

/-- The lines of the words from a place in the list on. -/
def rows (t : ControlTable) (place : Nat) (next : Option UInt8) : List MicroWord → List String
  | [] => []
  | word :: rest =>
    let address := word.address.getD (UInt8.ofNat place)
    (if next = some address then [] else [originRow address]) ++
      wordRow t address word :: rows t (place + 1) (following address) rest

/-- Lines as they stand in a text, with a line feed behind each of them. -/
def ended (ls : List String) : List Char :=
  (ls.map String.toList).flatMap (· ++ ['\n'])

theorem ended_append (ls ls' : List String) : ended (ls ++ ls') = ended ls ++ ended ls' := by
  rw [ended, List.map_append, List.flatMap_append]
  rfl

theorem ended_singleton (l : String) : ended [l] = (l ++ "\n").toList := by
  rw [String.toList_append]
  exact List.append_nil _

theorem ended_heading : heading.toList = ended headingRows := by
  decide +kernel

/-- The printed text is its lines. -/
theorem toList_wordLines (t : ControlTable) (words : List MicroWord) (place : Nat)
    (next : Option UInt8) :
    (wordLines t place next words).toList = ended (rows t place next words) := by
  induction words generalizing place next with
  | nil => rfl
  | cons word rest ih =>
      -- The two texts that the printer appends are lines with their line feeds.
      have hcons : ∀ l ls, ended (l :: ls) = ended [l] ++ ended ls := fun l ls =>
        ended_append [l] ls
      have hword : ∀ address, wordLine t address word = wordRow t address word ++ "\n" :=
        fun _ => rfl
      have horigin : ∀ address, originLine address = originRow address ++ "\n" := fun _ => rfl
      rw [wordLines, rows, String.toList_append, String.toList_append, ih, ended_append, hcons,
        ended_singleton, ← hword, List.append_assoc]
      split
      · rfl
      · rw [ended_singleton, ← horigin]

/-- A word whose label is one line is printed in one line. -/
theorem oneLine_wordRow (t : ControlTable) (address : UInt8) (word : MicroWord)
    (h : ∀ name, word.label = some name → OneLine name) : OneLine (wordRow t address word) := by
  have hlabel : OneLine (labelColumn word.label) := by
    cases hl : word.label with
    | none => decide
    | some name => exact (h name hl).append (by decide)
  exact ((((((hlabel.padRight 8).append (by decide)).append (oneLine_text word)).append
    (by decide)).append (oneLine_hexByte address)).append (by decide)).append
      (oneLine_disassembleWord word t)

theorem oneLine_rows (t : ControlTable) (words : List MicroWord) (place : Nat)
    (next : Option UInt8) (h : ∀ w, w ∈ words → ∀ name, w.label = some name → OneLine name)
    (l : String) (hl : l ∈ rows t place next words) : OneLine l := by
  induction words generalizing place next with
  | nil => exact absurd hl List.not_mem_nil
  | cons word rest ih =>
      rw [rows, List.mem_append, List.mem_cons] at hl
      rcases hl with horigin | rfl | hrest
      · split at horigin
        · exact absurd horigin List.not_mem_nil
        · have hrow : OneLine "        ORG " := by decide
          rw [List.mem_singleton.mp horigin]
          exact hrow.append (oneLine_hexByte _)
      · exact oneLine_wordRow t _ word (h word (List.mem_cons_self ..))
      · exact ih _ _ (fun w hw => h w (List.mem_cons_of_mem word hw)) hrest

/-- The lines of a printed listing: the heading, the rows, and an empty line behind the last
    line feed. -/
theorem lines_disassemble (t : ControlTable) (words : List MicroWord)
    (h : ∀ w, w ∈ words → ∀ name, w.label = some name → OneLine name) :
    Text.lines (disassemble words t).toList =
      (headingRows ++ rows t 0 (some 0) words).map String.toList ++ [[]] := by
  rw [disassemble, String.toList_append, toList_wordLines, ended_heading, ← ended_append, ended]
  refine Text.lines_flatMap _ (fun l hl => ?_)
  rcases List.mem_map.mp hl with ⟨row, hrow, rfl⟩
  rcases List.mem_append.mp hrow with hhead | hrow
  · have hheading : ∀ row, row ∈ headingRows → OneLine row := by decide
    exact hheading row hhead
  · exact oneLine_rows t words 0 (some 0) h row hrow

/-- The tokens that a label is printed as. -/
def labelTokens : Option String → List Token
  | some name => [name.toList ++ [':']]
  | none => []

theorem tokens_originRow (address : UInt8) :
    tokens (originRow address).toList = ["ORG".toList, (Text.hexByte address).toList] := by
  have hfront : "        ORG ".toList = "        ORG".toList ++ [' '] := by decide
  have hdirective : Text.words "        ORG".toList = ["ORG".toList] := by decide
  have hoperand := isToken_digits _ (Text.isHexDigit_hexByte address)
  have hne : (Text.hexByte address).toList ≠ [] := by
    rw [Text.hexByte, String.toList_ofList]
    exact List.cons_ne_nil _ _
  have hopen : ';' ∉ "        ORG ".toList ++ (Text.hexByte address).toList := by
    rw [List.mem_append, not_or]
    exact ⟨by decide, hoperand.uncommented⟩
  change tokens ("        ORG " ++ Text.hexByte address).toList = _
  rw [String.toList_append, tokens_of_uncommented _ hopen, hfront, List.append_assoc,
    List.singleton_append, Text.words_append _ ' ' _ rfl, hdirective,
    Text.words_of_free _ hne hoperand.solid]
  rfl

theorem words_labelColumn (label : Option String)
    (h : ∀ name, label = some name → IsLabel name) :
    Text.words (labelColumn label).toList = labelTokens label := by
  cases label with
  | none => rfl
  | some name =>
      rw [labelColumn, labelTokens, String.toList_append]
      refine Text.words_of_free _ ?_ (fun c hc => ?_)
      · exact List.append_ne_nil_of_right_ne_nil _ (List.cons_ne_nil _ _)
      · rcases List.mem_append.mp hc with hc | hc
        · exact (h name rfl).token.solid c hc
        · rw [List.mem_singleton.mp hc]
          decide

-- The three columns of a word stand apart.
theorem words_text (w : MicroWord) (h : w.Narrow) (rest : List Char) :
    Text.words (w.text.toList ++ ' ' :: rest) =
      [MicroWord.pairText w.write w.read, MicroWord.pairText w.alu w.jump,
        (Text.hexByte w.jumpAddress).toList] ++ Text.words rest := by
  have hpair : ∀ a b : UInt8, a ≤ 0xF → b ≤ 0xF →
      Text.words (MicroWord.pairText a b) = [MicroWord.pairText a b] := by
    intro a b ha hb
    exact Text.words_of_free _ (List.cons_ne_nil _ _)
      (isToken_digits _ (MicroWord.isHexDigit_pairText a b ha hb)).solid
  have hbyte : Text.words (Text.hexByte w.jumpAddress).toList =
      [(Text.hexByte w.jumpAddress).toList] := by
    refine Text.words_of_free _ ?_ (isToken_digits _ (Text.isHexDigit_hexByte _)).solid
    rw [Text.hexByte, String.toList_ofList]
    exact List.cons_ne_nil _ _
  rw [MicroWord.text_of_narrow w h, List.append_assoc, List.cons_append, List.append_assoc,
    List.cons_append, Text.words_append _ ' ' _ rfl, Text.words_append _ ' ' _ rfl,
    Text.words_append _ ' ' _ rfl, hpair _ _ h.write h.read, hpair _ _ h.alu h.jump, hbyte]
  rfl

/-- What stands in front of the comment on the line of a word. -/
def wordColumns (word : MicroWord) : List Char :=
  (Text.padRight 8 (labelColumn word.label)).toList ++ ' ' :: (word.text.toList ++
    ' ' :: [' ', ' ', ' '])

theorem toList_wordRow (t : ControlTable) (address : UInt8) (word : MicroWord) :
    ∃ comment, (wordRow t address word).toList = wordColumns word ++ ';' :: comment := by
  have hblank : " ".toList = [' '] := by decide
  have hcut : "    ; ".toList = [' ', ' ', ' ', ' ', ';', ' '] := by decide
  refine ⟨' ' :: ((Text.hexByte address).toList ++ ("  ".toList ++
    (disassembleWord word t).toList)), ?_⟩
  simp only [wordRow, wordColumns, String.toList_append, hblank, hcut, List.append_assoc,
    List.cons_append, List.nil_append]

theorem uncommented_wordColumns (word : MicroWord)
    (hlabel : ∀ name, word.label = some name → IsLabel name) (hw : word.Narrow) :
    ';' ∉ wordColumns word := by
  have hcolumn : ';' ∉ (labelColumn word.label).toList := by
    cases hl : word.label with
    | none => decide
    | some name =>
        rw [labelColumn, String.toList_append, List.mem_append, not_or]
        exact ⟨(hlabel name hl).token.uncommented, by decide⟩
  have hpadding : ∀ n, ';' ∉ List.replicate n ' ' := by
    intro n hmem
    exact absurd (List.mem_replicate.mp hmem).2 (by decide)
  have hpair : ∀ a b : UInt8, a ≤ 0xF → b ≤ 0xF → ';' ∉ MicroWord.pairText a b := fun a b ha hb =>
    (isToken_digits _ (MicroWord.isHexDigit_pairText a b ha hb)).uncommented
  have hbyte := (isToken_digits _ (Text.isHexDigit_hexByte word.jumpAddress)).uncommented
  have hblank : ';' ≠ ' ' := by decide
  simp only [wordColumns, Text.padRight, String.toList_append, String.toList_ofList,
    MicroWord.text_of_narrow word hw, List.mem_append, List.mem_cons, List.not_mem_nil, hcolumn,
    hpadding, hpair _ _ hw.write hw.read, hpair _ _ hw.alu hw.jump, hbyte, hblank, or_self,
    not_false_iff]

/-- The columns of a word are its tokens, and its comment has none. -/
theorem tokens_wordRow (t : ControlTable) (address : UInt8) (word : MicroWord)
    (hlabel : ∀ name, word.label = some name → IsLabel name) (hw : word.Narrow) :
    tokens (wordRow t address word).toList = labelTokens word.label ++
      [MicroWord.pairText word.write word.read, MicroWord.pairText word.alu word.jump,
        (Text.hexByte word.jumpAddress).toList] := by
  rcases toList_wordRow t address word with ⟨comment, hrow⟩
  have hspaces : Text.words [' ', ' ', ' '] = [] := by decide
  rw [hrow, tokens_comment _ _ (uncommented_wordColumns word hlabel hw), wordColumns,
    Text.words_padRight, words_labelColumn _ hlabel, words_text word hw, hspaces, List.append_nil]

/-- The line of a word defines the label of the word. -/
theorem splitLabel_wordRow (t : ControlTable) (address : UInt8) (word : MicroWord)
    (hlabel : ∀ name, word.label = some name → IsLabel name) (hw : word.Narrow) :
    splitLabel (tokens (wordRow t address word).toList) = (word.label.map String.toList,
      [MicroWord.pairText word.write word.read, MicroWord.pairText word.alu word.jump,
        (Text.hexByte word.jumpAddress).toList]) := by
  rw [tokens_wordRow t address word hlabel hw]
  cases word.label with
  | some name => exact splitLabel_of_label name.toList _
  | none =>
      -- The first token is a pair of digits, and a colon is no digit.
      refine splitLabel_of_body _ _ (fun hcolon => ?_)
      have hdigit := MicroWord.isHexDigit_pairText _ _ hw.write hw.read ':' hcolon
      exact absurd hdigit (by decide)

end Listing

end Microcode
