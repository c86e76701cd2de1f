import Microcode.Proofs.Listing.Layout
import Microcode.Proofs.Listing.Progress
import Microcode.Proofs.Listing.Reassembly
/-!
# Retyped Listings

The outcome of an assembly depends on nothing but the content of the text.

Two texts with the same content are not compared with each other. Each of them is compared with
the content itself, taken as lines of tokens in lower case that are numbered one after the other.
The assembly of a text is the assembly of its content, up to a translation: in a report, lines are
counted without those that have no tokens, and what is quoted is in lower case. The translation
is the same for every part of the assembler, from the reading of a token to the resolving of the
references, and `assemble_translated` puts the parts together.

The assembler compares words in lower case, reads digits of either case, and puts labels into
capitals. Each of these gives the same for a token and its lower case. What it does with line
numbers is to hand them on, so a translation of line numbers commutes with it whatever the
translation is. `reports_tokens` makes use of this. Two translations that differ only for lines
without tokens cannot differ for the line of a report, so that this line has tokens.

## Main definitions

* `SyntaxFault.inLower`, `AssemblyError.translated`: A report in terms of the content.
* `Reference.renumbered`, `Assembly.renumbered`: Line numbers translated.
* `Assembly.image`: The outcome of a part of the assembler, translated.
* `Assembly.tokenLine`: The effect of a line, by its tokens.
* `Listing.numberedContent`: The lines that have tokens, with their numbers.
* `Listing.contentNumber`: The number of a line, counted without lines that have no tokens.
* `assembleContent`: The words of lines of tokens.

## Theorems

* `ofTokens_lower`: The body of a line in lower case.
* `tokenLine_translated`: The effect of a line, translated.
* `finish_translated`: The end of a listing, translated.
* `foldlM_line`: Lines without tokens do nothing.
* `map_numberedContent`: The lines that have tokens, numbered one after the other.
* `assemble_translated`: The assembly of a text is that of its content.
* `reports_tokens`: A report is about a line that has tokens.
* `assemble_retyped`: Texts of the same content have the same outcome.
* `assemble_retyped_comment`: A listing that is edited.
-/

namespace Microcode

open Listing

/-- A syntax fault with the tokens that it quotes in lower case. -/
def SyntaxFault.inLower : SyntaxFault → SyntaxFault
  | emptyLabel => emptyLabel
  | originOperand token => originOperand (String.ofList (Text.lower token.toList))
  | columns tokens => columns (tokens.map (fun token => String.ofList (Text.lower token.toList)))
  | notAByte column token => notAByte column (String.ofList (Text.lower token.toList))
  | codes e => codes e

namespace AssemblyError

/-- The line that an error is about. -/
def line : AssemblyError → Nat
  | syntaxFault line _ => line
  | undefinedLabel line _ => line
  | duplicateLabel line _ => line
  | addressOverflow line => line

/-- An error with its line number translated and with the tokens that it quotes in lower case. -/
def translated (number : Nat → Nat) : AssemblyError → AssemblyError
  | syntaxFault line fault => syntaxFault (number line) fault.inLower
  | undefinedLabel line label => undefinedLabel (number line) label
  | duplicateLabel line label => duplicateLabel (number line) label
  | addressOverflow line => addressOverflow (number line)

theorem line_translated (number : Nat → Nat) (e : AssemblyError) :
    (e.translated number).line = number e.line := by
  cases e <;> rfl

end AssemblyError

namespace Listing

theorem labelOf?_lower (token : Token) :
    labelOf? (Text.lower token) = (labelOf? token).map Text.lower := by
  have hcolon : (Text.lower token).getLast? = some ':' ↔ token.getLast? = some ':' := by
    rw [Text.lower, List.getLast?_map, Option.map_eq_some_iff]
    simp only [Text.toLower_eq_iff ':' rfl, exists_eq_right]
  unfold labelOf?
  by_cases h : token.getLast? = some ':'
  · rw [if_pos h, if_pos (hcolon.mpr h), Text.lower, ← List.map_dropLast]
    rfl
  · rw [if_neg h, if_neg (fun hl => h (hcolon.mp hl))]
    rfl

/-- A line in lower case has the label and the body of the line, in lower case. -/
theorem splitLabel_lower (line : List Token) : splitLabel (line.map Text.lower) =
    ((splitLabel line).1.map Text.lower, (splitLabel line).2.map Text.lower) := by
  cases line with
  | nil => rfl
  | cons first rest =>
      rw [List.map_cons, splitLabel, splitLabel, labelOf?_lower]
      cases labelOf? first <;> rfl

/-- A label and its lower case are one label. -/
theorem labelName_lower (token : Token) : labelName (Text.lower token) = labelName token := by
  rw [labelName, Text.upper_lower, labelName]

end Listing

namespace Body

theorem byte_lower (column : Column) (token : Token) :
    byte column (Text.lower token) = translate SyntaxFault.inLower id (byte column token) := by
  rw [byte, Text.readHexByte?_lower, byte]
  cases Text.readHexByte? token with
  | some b => rfl
  | none =>
      rw [translate, SyntaxFault.inLower, String.toList_ofList]

theorem target_lower (token : Token) :
    target (Text.lower token) = translate SyntaxFault.inLower id (target token) := by
  have hbyte := byte_lower .address token
  unfold target
  rw [Text.equalUpToCase_lower, Text.length_lower, Text.all_isHexDigit_lower, hbyte,
    labelName_lower]
  split
  · rfl
  · split
    · cases byte .address token <;> rfl
    · rfl

/-- The body of a line in lower case says what the body of the line says. -/
theorem ofTokens_lower (line : List Token) :
    ofTokens (line.map Text.lower) = translate SyntaxFault.inLower id (ofTokens line) := by
  -- What is quoted of a body without a permitted shape is the whole body.
  have hother : (Except.error (.columns ((line.map Text.lower).map String.ofList)) :
        Except SyntaxFault Body) =
      translate SyntaxFault.inLower id (.error (.columns (line.map String.ofList))) := by
    simp only [translate, SyntaxFault.inLower, List.map_map, Function.comp_def,
      String.toList_ofList]
  match line with
  | [] => rfl
  | [directive, operand] =>
      simp only [List.map_cons, List.map_nil, ofTokens, Text.equalUpToCase_lower,
        Text.readHexByte?_lower] at hother ⊢
      split
      · cases Text.readHexByte? operand with
        | some address => rfl
        | none => simp only [translate, SyntaxFault.inLower, String.toList_ofList]
      · exact hother
  | [hi, mid, low] =>
      simp only [List.map_cons, List.map_nil, ofTokens, byte_lower, target_lower]
      refine translate_bind _ _ _ (byte .hi hi) _ _ (fun b => ?_)
      refine translate_bind _ _ _ (byte .mid mid) _ _ (fun b' => ?_)
      exact translate_bind _ _ _ (target low) _ _ (fun _ => rfl)
  | [_] => exact hother
  | _ :: _ :: _ :: _ :: _ => exact hother

end Body

/-- A reference with its line number translated. -/
def Reference.renumbered (number : Nat → Nat) (r : Reference) : Reference :=
  { r with line := number r.line }

namespace Assembly

/-- An assembly with its line numbers translated. -/
def renumbered (number : Nat → Nat) (a : Assembly) : Assembly :=
  { a with
    waiting := a.waiting.map (fun entry => (entry.1, number entry.2))
    references := a.references.map (·.renumbered number) }

/-- The effect of a line, by its tokens. -/
def tokenLine (a : Assembly) (numbered : List Token × Nat) : Except AssemblyError Assembly :=
  a.labelledBy numbered.2 (splitLabel numbered.1).1 >>= fun labelled =>
    (Body.ofTokens (splitLabel numbered.1).2).mapError (.syntaxFault numbered.2) >>= fun body =>
      labelled.body numbered.2 body

variable (number : Nat → Nat) (a : Assembly)

/-- The outcome of a part of the assembler, translated. -/
abbrev image : Except AssemblyError Assembly → Except AssemblyError Assembly :=
  translate (AssemblyError.translated number) (renumbered number)

theorem names_renumbered : (a.renumbered number).names = a.names := by
  rw [names, renumbered, List.map_map, names]
  rfl

/-- A label is defined as its lower case is on the line with the other number. -/
theorem define_translated (n : Nat) (token : Token) :
    (a.renumbered number).define (number n) (Text.lower token) =
      image number (a.define n token) := by
  have hdefines : (a.renumbered number).defines (labelName token) =
      a.defines (labelName token) := by
    rw [Bool.eq_iff_iff, defines_iff, defines_iff, names_renumbered]
  simp only [define, labelName_lower, hdefines]
  split
  · rfl
  · split
    · rfl
    · simp only [image, translate, renumbered, List.map_append, List.map_cons, List.map_nil]

theorem labelledBy_translated (n : Nat) (label : Option Token) :
    (a.renumbered number).labelledBy (number n) (label.map Text.lower) =
      image number (a.labelledBy n label) := by
  cases label with
  | none => rfl
  | some token => exact define_translated number a n token

theorem jumpAddress_renumbered (n : Nat) (target : Target) :
    (a.renumbered number).jumpAddress (number n) target =
      ((a.jumpAddress n target).1, (a.jumpAddress n target).2.map (·.renumbered number)) := by
  cases target with
  | fixed address => rw [jumpAddress, jumpAddress, List.map_toArray, List.map_nil]
  | label name =>
      rw [jumpAddress, jumpAddress, List.map_toArray, List.map_singleton]
      rfl

/-- The word itself does not depend on the line that it is on. -/
theorem wordAt_renumbered (n : Nat) (hi mid : UInt8) (target : Target) :
    (a.renumbered number).wordAt (number n) hi mid target = a.wordAt n hi mid target := by
  have hlast : (a.renumbered number).waiting.getLast?.map Prod.fst =
      a.waiting.getLast?.map Prod.fst := by
    rw [renumbered, List.getLast?_map, Option.map_map]
    rfl
  rw [wordAt, hlast, jumpAddress_renumbered]
  rfl

theorem bindLabels_renumbered (address : UInt8) :
    (a.renumbered number).bindLabels address = (a.bindLabels address).renumbered number := by
  rw [bindLabels, renumbered, List.map_map]
  rfl

theorem placed_renumbered (n : Nat) (hi mid : UInt8) (target : Target) :
    (a.renumbered number).placed (number n) hi mid target =
      (a.placed n hi mid target).renumbered number := by
  have hreferences : (a.renumbered number).references ++
      (a.jumpAddress n target).2.map (·.renumbered number) =
        (a.references ++ (a.jumpAddress n target).2).map (·.renumbered number) :=
    Array.map_append.symm
  rw [placed, wordAt_renumbered, jumpAddress_renumbered, bindLabels_renumbered, hreferences]
  rfl

/-- A word is emitted as it is on the line with the other number. -/
theorem emit_translated (n : Nat) (hi mid : UInt8) (target : Target) :
    (a.renumbered number).emit (number n) hi mid target =
      image number (a.emit n hi mid target) := by
  by_cases hnext : a.next < 256
  · rw [((a.emit_eq_ok_iff _ n hi mid target).mpr ⟨hnext, rfl⟩),
      (((a.renumbered number).emit_eq_ok_iff _ _ hi mid target).mpr ⟨hnext, rfl⟩),
      placed_renumbered]
    rfl
  · have hfull : 0xFF < a.next := by omega
    rw [a.emit_of_full n hi mid target hfull, (a.renumbered number).emit_of_full _ _ _ _ hfull]
    rfl

/-- The body of a line does what it does on the line with the other number. -/
theorem body_translated (n : Nat) (body : Body) :
    (a.renumbered number).body (number n) body = image number (a.body n body) := by
  cases body with
  | nothing => rfl
  | origin address => rfl
  | word hi mid target => exact emit_translated number a n hi mid target

/-- The effect of a line in lower case, under another number, is the effect of the line. -/
theorem tokenLine_translated (numbered : List Token × Nat) :
    (a.renumbered number).tokenLine (numbered.1.map Text.lower, number numbered.2) =
      image number (a.tokenLine numbered) := by
  rw [tokenLine, splitLabel_lower, tokenLine]
  simp only [labelledBy_translated, Body.ofTokens_lower]
  refine translate_bind _ _ _ _ _ _ (fun labelled => ?_)
  have hfault : ∀ x : Except SyntaxFault Body,
      (translate SyntaxFault.inLower id x).mapError (.syntaxFault (number numbered.2)) =
        translate (AssemblyError.translated number) id
          (x.mapError (.syntaxFault numbered.2)) := by
    intro x
    cases x <;> rfl
  rw [hfault]
  exact translate_bind _ _ _ _ _ _ (body_translated number labelled numbered.2)

-- What a reference does to a word does not depend on the line that it is from.
theorem resolve_translated (symbols : List (String × UInt8)) (words : Array MicroWord)
    (r : Reference) : resolve symbols words (r.renumbered number) =
      translate (AssemblyError.translated number) id (resolve symbols words r) := by
  rw [resolve, resolve, Reference.renumbered]
  cases symbols.lookup r.label <;> rfl

/-- The end of a listing, under other line numbers. -/
theorem finish_translated : (a.renumbered number).finish = image number a.finish := by
  by_cases hroom : a.waiting ≠ [] → a.next < 256
  · have hroom' : (a.renumbered number).waiting ≠ [] → (a.renumbered number).next < 256 :=
      fun hopen => hroom (fun hnil => hopen (by rw [renumbered, hnil, List.map_nil]))
    have hresolved := translate_foldlM (AssemblyError.translated number) id
      (Reference.renumbered number) (resolve (a.bindLabels (UInt8.ofNat a.next)).symbols) _
      (resolve_translated number _) a.references.toList a.words
    have hreferences : (a.renumbered number).references.toList =
        a.references.toList.map (Reference.renumbered number) := Array.toList_map
    rw [a.finish_eq hroom, (a.renumbered number).finish_eq hroom', bindLabels_renumbered,
      hreferences]
    refine Eq.trans (congrArg (· >>= _) hresolved) ?_
    exact translate_bind _ id _ _ _ _ (fun words => rfl)
  · -- Without room for them, the last of the labels that wait is reported.
    rcases Classical.not_imp.mp hroom with ⟨hopen, hfull⟩
    have hlast := List.getLast?_eq_some_getLast hopen
    have hlast' : (a.renumbered number).waiting.getLast? =
        some ((a.waiting.getLast hopen).1, number (a.waiting.getLast hopen).2) := by
      rw [renumbered, List.getLast?_map, hlast]
      rfl
    rw [a.finish_of_full _ _ hlast hfull, (a.renumbered number).finish_of_full _ _ hlast' hfull]
    rfl

theorem line_eq_tokenLine (numbered : List Char × Nat) :
    a.line numbered = a.tokenLine (tokens numbered.1, numbered.2) :=
  a.line_eq numbered _ _ rfl

end Assembly

namespace Listing

/-- The lines that have tokens, with their numbers. -/
def numberedContent (source : String) : List (List Token × Nat) :=
  ((numberedLines source).map (fun line => (tokens line.1, line.2))).filter
    (fun line => !line.1.isEmpty)

/-- The number of a line, counted without the lines that have no tokens. -/
def contentNumber (source : String) (line : Nat) : Nat :=
  ((Text.lines source.toList).take line).countP (fun line => !(tokens line).isEmpty)

/-- Lines without tokens do nothing. -/
theorem foldlM_line (lines : List (List Char × Nat)) (a : Assembly) :
    lines.foldlM Assembly.line a =
      ((lines.map (fun line => (tokens line.1, line.2))).filter
        (fun line => !line.1.isEmpty)).foldlM Assembly.tokenLine a := by
  induction lines generalizing a with
  | nil => rfl
  | cons line rest ih =>
      rw [List.foldlM_cons, List.map_cons, List.filter_cons]
      cases h : (tokens line.1).isEmpty with
      | true =>
          rw [a.line_of_blank line.1 line.2 (List.isEmpty_iff.mp h)]
          exact ih a
      | false =>
          rw [a.line_eq_tokenLine]
          exact congrArg (a.tokenLine _ >>= ·) (funext ih)

/-- Among some elements, one that satisfies a predicate has as its number how many do up to it. -/
theorem map_filter_zipIdx {α : Type} (p : α → Bool) (xs : List α) :
    ((xs.zipIdx 1).filter (fun x => p x.1)).map (fun x => (x.1, (xs.take x.2).countP p)) =
      (xs.filter p).zipIdx 1 := by
  induction xs using List.reverseRecOn with
  | nil => rfl
  | append_singleton xs y ih =>
      -- The elements in front keep their numbers.
      have hfront : ((xs.zipIdx 1).filter (fun x => p x.1)).map
          (fun x => (x.1, ((xs ++ [y]).take x.2).countP p)) = (xs.filter p).zipIdx 1 := by
        rw [← ih]
        refine List.map_congr_left (fun x hx => ?_)
        have hbound := List.snd_lt_add_of_mem_zipIdx (List.mem_of_mem_filter hx)
        rw [List.take_append_of_le_length (by omega)]
      have hlast : ((xs ++ [y]).take (1 + xs.length)).countP p =
          (xs.filter p).length + (if p y = true then 1 else 0) := by
        rw [List.take_of_length_le (by rw [List.length_append, List.length_singleton]; omega),
          List.countP_append, List.countP_singleton, List.countP_eq_length_filter]
      rw [List.zipIdx_append, List.filter_append, List.map_append, hfront, List.filter_append,
        List.zipIdx_append, List.zipIdx_singleton]
      refine congrArg _ ?_
      cases hy : p y with
      | true =>
          simp only [List.filter_singleton, hy, cond_true, List.map_singleton,
            List.zipIdx_singleton]
          rw [hlast, if_pos hy, Nat.add_comm 1 (xs.filter p).length]
      | false => simp only [List.filter_singleton, hy, cond_false, List.map_nil, List.zipIdx_nil]

/-- The lines that have tokens, numbered one after the other, are the content. -/
theorem map_numberedContent (source : String) :
    (numberedContent source).map
        (fun line => (line.1.map Text.lower, contentNumber source line.2)) =
      (inLower (content source.toList)).zipIdx 1 := by
  have hnumbers := map_filter_zipIdx (fun line => !(tokens line).isEmpty) (Text.lines source.toList)
  rw [numberedContent, List.filter_map, List.map_map, inLower, content, List.filter_map,
    List.map_map, List.zipIdx_map]
  refine Eq.trans ?_ (congrArg (List.map _) hnumbers)
  rw [List.map_map]
  rfl

end Listing

/-- The words of lines of tokens. -/
def assembleContent (lines : List (List Token)) : Except AssemblyError (List MicroWord) :=
  ((lines.zipIdx 1).foldlM Assembly.tokenLine {} >>= Assembly.finish).map (·.words.toList)

/-- The assembly of a text is that of its content, under any translation of line numbers that
    numbers the lines with tokens one after the other. -/
theorem assemble_translated (source : String) (number : Nat → Nat)
    (hnumber : (numberedContent source).map (fun line => (line.1.map Text.lower, number line.2)) =
      (inLower (content source.toList)).zipIdx 1) :
    assembleContent (inLower (content source.toList)) =
      translate (AssemblyError.translated number) id (assemble source) := by
  have hread := translate_foldlM (AssemblyError.translated number) (Assembly.renumbered number)
    (fun line : List Token × Nat => (line.1.map Text.lower, number line.2)) Assembly.tokenLine
    Assembly.tokenLine (Assembly.tokenLine_translated number) (numberedContent source) {}
  have hlines : (numberedLines source).foldlM Assembly.line {} =
      (numberedContent source).foldlM Assembly.tokenLine {} := foldlM_line _ {}
  have hempty : ({} : Assembly).renumbered number = {} := by
    rw [Assembly.renumbered, List.map_nil, List.map_toArray, List.map_nil]
  rw [hnumber, hempty] at hread
  have hfinished : ((inLower (content source.toList)).zipIdx 1).foldlM Assembly.tokenLine {} >>=
      Assembly.finish = translate (AssemblyError.translated number) (Assembly.renumbered number)
        (Assembly.ofSource source) := by
    rw [hread, Assembly.ofSource, hlines]
    exact translate_bind _ _ _ _ _ _ (Assembly.finish_translated number)
  rw [assembleContent, hfinished, assemble]
  cases Assembly.ofSource source <;> rfl

/-- A report is about a line that has tokens. -/
theorem reports_tokens (source : String) (e : AssemblyError) (h : assemble source = .error e) :
    ∃ line, (line, e.line) ∈ numberedContent source := by
  classical
  -- A translation that differs from the numbers of the content for the other lines.
  let other : Nat → Nat := fun n =>
    if ∃ line, (line, n) ∈ numberedContent source then contentNumber source n
    else contentNumber source n + 1
  have hother : (numberedContent source).map (fun line => (line.1.map Text.lower, other line.2)) =
      (inLower (content source.toList)).zipIdx 1 := by
    rw [← map_numberedContent]
    refine List.map_congr_left (fun line hline => ?_)
    exact congrArg (Prod.mk _) (if_pos ⟨line.1, hline⟩)
  have hsame := (assemble_translated source _ (map_numberedContent source)).symm.trans
    (assemble_translated source other hother)
  rw [h] at hsame
  have hline := congrArg AssemblyError.line (Except.error.inj hsame)
  rw [AssemblyError.line_translated, AssemblyError.line_translated] at hline
  by_contra hnone
  rw [show other e.line = _ from if_neg hnone] at hline
  omega

/-- Layout, comments and the case of letters do not matter. Texts with the same content, up to the
    case of the letters A to Z, are both assembled to the same words or both reported for the same
    error: its line is the same if lines without tokens are not counted, and what it quotes is the
    same in lower case. Edits of the layout, of comments and of case keep the content. -/
theorem assemble_retyped (source source' : String) :
    (SameContent source source' →
      (∀ words, assemble source = .ok words ↔ assemble source' = .ok words) ∧
      ∀ e, assemble source = .error e → ∃ e', assemble source' = .error e' ∧
        e.translated (contentNumber source) = e'.translated (contentNumber source') ∧
        (∃ line, (line, e.line) ∈ numberedContent source) ∧
        ∃ line', (line', e'.line) ∈ numberedContent source') ∧
    (Relation.EqvGen Edit source.toList source'.toList → SameContent source source') := by
  refine ⟨fun hcontent => ?_, sameContent_of_edits source source'⟩
  have hsame : translate (AssemblyError.translated (contentNumber source)) id (assemble source) =
      translate (AssemblyError.translated (contentNumber source')) id (assemble source') := by
    rw [← assemble_translated source _ (map_numberedContent source),
      ← assemble_translated source' _ (map_numberedContent source'),
      (sameContent_iff source source').mp hcontent]
  refine ⟨eq_ok_iff_of_translate _ _ _ _ hsame, fun e h => ?_⟩
  rcases exists_error_of_translate _ _ _ _ hsame e h with ⟨e', h', hreport⟩
  exact ⟨e', h', hreport, reports_tokens source e h, reports_tokens source' e' h'⟩

/-- A comment that looks like a label, a carriage return, and letters in the other case. -/
theorem assemble_retyped_comment :
    let source := "LOOP: 2D 01 xx\n      00 01 loop\n"
    let source' := "loop: 2d 01 XX\n      00 01 Loop; LOOP: 00\r\n"
    Relation.EqvGen Edit source.toList source'.toList ∧ SameContent source source' ∧
      ∃ words, assemble source = .ok words ∧ assemble source' = .ok words := by
  intro source source'
  have hfront : source.toList = "LOOP: 2D 01 xx\n      00 01 loop".toList ++ "\n".toList := by
    decide
  have hcommented : Edit source.toList
      ("LOOP: 2D 01 xx\n      00 01 loop".toList ++
        (';' :: " LOOP: 00\r".toList ++ "\n".toList)) := by
    rw [hfront]
    exact .commented _ _ _ (.inr ⟨[], rfl⟩) (by decide)
  have hedits : Relation.EqvGen Edit source.toList source'.toList :=
    .trans _ _ _ (.rel _ _ hcommented) (.rel _ _ (.retyped _ _ (by decide +kernel)))
  have hcontent := (assemble_retyped source source').2 hedits
  have hwords : ∃ words, assemble source = .ok words := by
    refine ⟨[
      { write := 2, read := 0xD, alu := 0, jump := 1, jumpAddress := 0,
        label := some "LOOP", address := some 0 },
      { write := 0, read := 0, alu := 0, jump := 1, jumpAddress := 0, address := some 1 }], ?_⟩
    decide +kernel
  rcases hwords with ⟨words, hwords⟩
  exact ⟨hedits, hcontent, words, hwords,
    (((assemble_retyped source source').1 hcontent).1 words).mp hwords⟩

end Microcode
