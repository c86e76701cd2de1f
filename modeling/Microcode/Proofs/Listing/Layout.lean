import Mathlib.Data.List.Forall2
import Mathlib.Logic.Relation
import Microcode.Proofs.Listing.Statements
import Microcode.Proofs.Text.LetterCase
/-!
# The Layout of a Listing

What may be changed about a text without changing its content.

The content of a text is the tokens of its lines, without the lines that have none. It is kept
by a number of edits: a gap between tokens may be made of other blanks, lines may be indented and
may have blanks behind them, of which a carriage return is one, any comment may stand at the end
of a line, empty lines may come and go, and the letters A to Z may be typed in either case.

An edit is at one place of a text, but a line may have a comment in front of that place, and then
the edit is inside of the comment. The place is in one of the lines, and the lemmas about tokens are
about any line with a part exchanged, whatever stands in front of it.

## Main definitions

* `Text.Spaces`: Blanks that do not end a line.
* `Listing.content`: The tokens of a text, line by line, without the lines that have none.
* `Listing.inLower`: Lines of tokens with the letters A to Z in lower case.
* `Listing.SameContent`: Two texts have the same content up to the case of letters.
* `Listing.Edit`: The edits that keep the content.

## Theorems

* `tokens_gap`, `tokens_trailing`, `tokens_indented`, `tokens_cut`: Lines that are edited.
* `content_append`: The content of a text that is cut at a line feed.
* `sameContent_iff`: Texts have the same content if it is the same in lower case.
* `inLower_content_edit`: An edit keeps the content.
* `sameContent_of_edits`: Any number of edits do.
-/

namespace Microcode

namespace Text

/-- A text of blanks that does not end a line. -/
def Spaces (gap : List Char) : Prop :=
  ∀ c, c ∈ gap → isBlank c = true ∧ c ≠ '\n'

theorem Spaces.lineFeed {gap : List Char} (h : Spaces gap) : '\n' ∉ gap :=
  fun hmem => (h '\n' hmem).2 rfl

end Text

namespace Listing

-- Blanks are no semicolons.
theorem takeWhile_spaces (gap v : List Char) (h : Text.Spaces gap) :
    (gap ++ v).takeWhile (· != ';') = gap ++ v.takeWhile (· != ';') := by
  refine List.takeWhile_append_of_pos (fun c hc => ?_)
  rw [bne_iff_ne]
  rintro rfl
  exact absurd (h ';' hc).1 (by decide)

/-- Behind a semicolon nothing counts. -/
theorem tokens_append_of_commented (line rest : List Char) (h : ';' ∈ line) :
    tokens (line ++ rest) = tokens line := by
  have hopen : ¬ (line.takeWhile (· != ';')).length = line.length := by
    intro hlength
    have hall := (List.takeWhile_prefix (· != ';')).eq_of_length hlength
    rw [← hall] at h
    exact absurd (List.all_eq_true.mp List.all_takeWhile ';' h) (by decide)
  rw [tokens, List.takeWhile_append, if_neg hopen, tokens]

/-- A gap cuts a line in two, whatever blanks it is made of. -/
theorem tokens_gap (u gap gap' v : List Char) (hne : gap ≠ []) (hne' : gap' ≠ [])
    (h : Text.Spaces gap) (h' : Text.Spaces gap') :
    tokens (u ++ (gap ++ v)) = tokens (u ++ (gap' ++ v)) := by
  by_cases hu : ';' ∈ u
  · rw [tokens_append_of_commented u _ hu, tokens_append_of_commented u _ hu]
  · have hgap : ∀ x, x ≠ [] → Text.Spaces x → tokens (u ++ (x ++ v)) =
        Text.words u ++ Text.words (v.takeWhile (· != ';')) := by
      intro x hx hspaces
      rw [tokens_append u _ hu, takeWhile_spaces x v hspaces,
        Text.words_gap u x _ hx (fun c hc => (hspaces c hc).1)]
    rw [hgap gap hne h, hgap gap' hne' h']

/-- Blanks at the end of a line are not in its tokens. -/
theorem tokens_trailing (u gap : List Char) (h : Text.Spaces gap) :
    tokens (u ++ gap) = tokens u := by
  by_cases hu : ';' ∈ u
  · exact tokens_append_of_commented u gap hu
  · have hgap := takeWhile_spaces gap [] h
    rw [List.takeWhile_nil, List.append_nil] at hgap
    rw [tokens_append u gap hu, hgap, tokens_of_uncommented u hu]
    exact Text.words_trailing u gap (fun c hc => (h c hc).1)

-- Nor are those in front of a line.
theorem tokens_indented (gap v : List Char) (h : Text.Spaces gap) :
    tokens (gap ++ v) = tokens v := by
  rw [tokens, takeWhile_spaces gap v h, Text.words_indented gap _ (fun c hc => (h c hc).1), tokens]

/-- A comment has no tokens, whatever is in it. -/
theorem tokens_cut (u comment : List Char) : tokens (u ++ ';' :: comment) = tokens u := by
  by_cases hu : ';' ∈ u
  · exact tokens_append_of_commented u _ hu
  · rw [tokens_comment u comment hu, tokens_of_uncommented u hu]

/-- The tokens of a line in lower case. -/
theorem tokens_lower (line : List Char) :
    tokens (Text.lower line) = (tokens line).map Text.lower := by
  have hcut : (· != ';') ∘ Char.toLower = (· != ';') :=
    funext (fun c => congrArg (! ·) (Text.beq_toLower ';' rfl c))
  rw [tokens, Text.lower, List.takeWhile_map, hcut]
  exact Text.words_lower _

/-- The tokens of a text, line by line, without the lines that have none. -/
def content (text : List Char) : List (List Token) :=
  ((Text.lines text).map tokens).filter (fun line => !line.isEmpty)

/-- Lines of tokens with the letters A to Z in lower case. -/
def inLower (lines : List (List Token)) : List (List Token) :=
  lines.map (fun line => line.map Text.lower)

/-- Two texts have the same content up to the case of the letters A to Z. -/
def SameContent (source source' : String) : Prop :=
  List.Forall₂ (List.Forall₂ (fun token token' => Text.equalUpToCase token token' = true))
    (content source.toList) (content source'.toList)

/-- Whether a place is that of the start of a line, by the text in front of it. -/
def AtLineStart (front : List Char) : Prop :=
  front = [] ∨ ∃ text, front = text ++ ['\n']

/-- Whether a place is that of the end of a line, by the text behind it. -/
def AtLineEnd (back : List Char) : Prop :=
  back = [] ∨ ∃ text, back = '\n' :: text

/-- The edits that keep the content of a text. -/
inductive Edit : List Char → List Char → Prop where
  /-- Letters A to Z in the other case. -/
  | retyped (text text' : List Char) (h : Text.equalUpToCase text text' = true) : Edit text text'
  /-- Other blanks, more of them or fewer. -/
  | spaced (front gap gap' back : List Char) (hne : gap ≠ []) (hne' : gap' ≠ [])
      (h : Text.Spaces gap) (h' : Text.Spaces gap') :
      Edit (front ++ (gap ++ back)) (front ++ (gap' ++ back))
  /-- Blanks in front of a line. -/
  | indented (front gap back : List Char) (hstart : AtLineStart front) (h : Text.Spaces gap) :
      Edit (front ++ back) (front ++ (gap ++ back))
  /-- Blanks behind a line, such as a carriage return. -/
  | trailing (front gap back : List Char) (hend : AtLineEnd back) (h : Text.Spaces gap) :
      Edit (front ++ back) (front ++ (gap ++ back))
  /-- A comment. -/
  | commented (front comment back : List Char) (hend : AtLineEnd back) (h : '\n' ∉ comment) :
      Edit (front ++ back) (front ++ (';' :: comment ++ back))
  /-- An empty line. -/
  | spread (front back : List Char) (h : AtLineStart front ∨ AtLineEnd back) :
      Edit (front ++ back) (front ++ '\n' :: back)

theorem sameContent_iff (source source' : String) : SameContent source source' ↔
    inLower (content source.toList) = inLower (content source'.toList) := by
  have htoken : ∀ token token' : Token,
      Text.equalUpToCase token token' = true ↔ Text.lower token = Text.lower token' :=
    Text.equalUpToCase_iff
  have hline : ∀ line line' : List Token,
      List.Forall₂ (fun token token' => Text.equalUpToCase token token' = true) line line' ↔
        line.map Text.lower = line'.map Text.lower := by
    intro line line'
    rw [← List.forall₂_eq_eq_eq, List.forall₂_map_left_iff, List.forall₂_map_right_iff]
    simp only [htoken]
  rw [inLower, inLower, ← List.forall₂_eq_eq_eq, List.forall₂_map_left_iff,
    List.forall₂_map_right_iff, SameContent]
  exact ⟨fun h => h.imp fun _ _ => (hline _ _).mp, fun h => h.imp fun _ _ => (hline _ _).mpr⟩

/-- The content of a text in lower case. -/
theorem content_lower (text : List Char) : content (Text.lower text) = inLower (content text) := by
  have hline : tokens ∘ Text.lower = List.map Text.lower ∘ tokens := funext tokens_lower
  rw [content, Text.lines, Text.pieces_lower _ (Text.beq_toLower '\n' rfl), List.map_map, hline,
    ← List.map_map, List.filter_map, content, inLower, Text.lines]
  refine congrArg _ (List.filter_congr (fun line _ => ?_))
  rw [Function.comp_apply, List.isEmpty_map]

theorem content_nil : content [] = [] :=
  rfl

/-- A line feed cuts the content of a text in two. -/
theorem content_append (front back : List Char) :
    content (front ++ '\n' :: back) = content front ++ content back := by
  rw [content, Text.lines, Text.pieces_append _ front '\n' back rfl, List.map_append,
    List.filter_append]
  rfl

/-- Behind the end of a line, the content is that of the text behind it. -/
theorem content_of_atLineEnd (back : List Char) (hend : AtLineEnd back) (front : List Char) :
    content (front ++ back) = content front ++ content back := by
  rcases hend with rfl | ⟨text, rfl⟩
  · rw [List.append_nil, content_nil, List.append_nil]
  · have hempty := content_append [] text
    rw [content_nil, List.nil_append, List.nil_append] at hempty
    rw [content_append, hempty]

theorem content_of_atLineStart (front : List Char) (hstart : AtLineStart front)
    (back : List Char) : content (front ++ back) = content front ++ content back := by
  rcases hstart with rfl | ⟨text, rfl⟩
  · rfl
  · rw [List.append_assoc, List.singleton_append, content_append, content_append, content_nil,
      List.append_nil]

/-- What is exchanged at a place without changing the tokens of any line does not change the
    content. -/
theorem content_exchange (front x x' back : List Char) (hx : '\n' ∉ x) (hx' : '\n' ∉ x')
    (h : ∀ u v, tokens (u ++ (x ++ v)) = tokens (u ++ (x' ++ v))) :
    content (front ++ (x ++ back)) = content (front ++ (x' ++ back)) := by
  rcases Text.pieces_insert (· == '\n') front with ⟨ls, u, hinsert⟩
  rcases Text.exists_pieces (· == '\n') back with ⟨v, rs, hback⟩
  rw [content, content, Text.lines, Text.lines, hinsert x back v rs (Text.beq_lineFeed x hx) hback,
    hinsert x' back v rs (Text.beq_lineFeed x' hx') hback, List.map_append, List.map_append,
    List.map_cons, List.map_cons, h u v]

-- The same for what is inserted at the end of the text.
theorem content_behind (front x : List Char) (hx : '\n' ∉ x)
    (h : ∀ u, tokens (u ++ x) = tokens u) : content (front ++ x) = content front := by
  rcases Text.pieces_insert (· == '\n') front with ⟨ls, u, hinsert⟩
  have hwith := hinsert x [] [] [] (Text.beq_lineFeed x hx) rfl
  have hwithout := hinsert [] [] [] [] (fun c hc => absurd hc List.not_mem_nil) rfl
  simp only [List.append_nil] at hwith hwithout
  rw [content, content, Text.lines, Text.lines, hwith, hwithout, List.map_append, List.map_append,
    List.map_singleton, List.map_singleton, h u]

-- And for blanks at its start.
theorem content_indented (gap back : List Char) (h : Text.Spaces gap) :
    content (gap ++ back) = content back := by
  rcases Text.exists_pieces (· == '\n') back with ⟨v, rs, hback⟩
  have hgap := Text.pieces_append_of_free _ gap back v rs (Text.beq_lineFeed gap h.lineFeed) hback
  rw [content, content, Text.lines, Text.lines, hgap, hback, List.map_cons, List.map_cons,
    tokens_indented gap v h]

/-- An edit keeps the content. -/
theorem inLower_content_edit (text text' : List Char) (h : Edit text text') :
    inLower (content text) = inLower (content text') := by
  cases h with
  | retyped _ _ h =>
      have hcase : Text.lower text = Text.lower text' := (Text.equalUpToCase_iff _ _).mp h
      rw [← content_lower, hcase, content_lower]
  | spaced front gap gap' back hne hne' h h' =>
      rw [content_exchange front gap gap' back h.lineFeed h'.lineFeed
        (fun u v => tokens_gap u gap gap' v hne hne' h h')]
  | indented front gap back hstart h =>
      rw [content_of_atLineStart front hstart, content_of_atLineStart front hstart,
        content_indented gap back h]
  | trailing front gap back hend h =>
      rw [content_of_atLineEnd back hend, ← List.append_assoc, content_of_atLineEnd back hend,
        content_behind front gap h.lineFeed (fun u => tokens_trailing u gap h)]
  | commented front comment back hend h =>
      have hcomment : '\n' ∉ ';' :: comment := by
        rw [List.mem_cons, not_or]
        exact ⟨by decide, h⟩
      rw [content_of_atLineEnd back hend, ← List.append_assoc, content_of_atLineEnd back hend,
        content_behind front _ hcomment (fun u => tokens_cut u comment)]
  | spread front back h =>
      rw [content_append]
      rcases h with hstart | hend
      · rw [content_of_atLineStart front hstart]
      · rw [content_of_atLineEnd back hend]

theorem inLower_content_edits (text text' : List Char) (h : Relation.EqvGen Edit text text') :
    inLower (content text) = inLower (content text') := by
  induction h with
  | rel text text' hedit => exact inLower_content_edit text text' hedit
  | refl text => rfl
  | symm text text' _ ih => exact ih.symm
  | trans text text' text'' _ _ ih ih' => exact ih.trans ih'

/-- Any number of edits, made or undone, keep the content. -/
theorem sameContent_of_edits (source source' : String)
    (h : Relation.EqvGen Edit source.toList source'.toList) : SameContent source source' :=
  (sameContent_iff source source').mpr (inLower_content_edits _ _ h)

end Listing

end Microcode
