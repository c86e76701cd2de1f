import Microcode.Listing.Statement
import Microcode.Proofs.Codes
import Microcode.Proofs.Text.Capitals
import Microcode.Proofs.Text.Words
/-!
# Tokens, Labels and Bodies

What the lines of a listing can hold, and how a line says a word.

A token has neither blanks nor semicolons, and the name of a label is a token that was put in
capitals. `IsLabel` is what can be said of such a name without the token that it came from: the
conditions are those under which the name, written in front of a colon, is read as itself.

## Main definitions

* `Listing.IsToken`: A run of characters that a line can hold.
* `Listing.IsLabel`: A name that a label can have.

## Theorems

* `isToken_of_mem_tokens`: The tokens of a line are tokens.
* `tokens_comment`, `tokens_of_uncommented`: A line is cut at its first semicolon.
* `labelOf?_eq_some_iff`: A token defines what stands in front of its final colon.
* `isToken_of_splitLabel`: The label that a line defines is a token.
* `isLabel_labelName`: A token that is not empty names a label.
* `labelName_of_isLabel`: The name of a label names itself.
* `ofTokens_origin`: An origin that was written is read back.
* `ofTokens_columns`: The columns of a word are read back.
-/

namespace Microcode

namespace Listing

/-- A run of characters that a line can hold: there are no blanks in it and no comment. -/
structure IsToken (token : Token) : Prop where
  solid : ∀ c, c ∈ token → Text.isBlank c = false
  uncommented : ';' ∉ token

/-- A name that a label can have: a token that is not empty and is written in capitals. -/
structure IsLabel (name : String) : Prop where
  nonempty : name ≠ ""
  token : IsToken name.toList
  capital : Text.upper name.toList = name.toList

instance (name : String) : Decidable (IsLabel name) :=
  decidable_of_iff (name ≠ "" ∧ name.toList.all (fun c => !Text.isBlank c) = true ∧
      ';' ∉ name.toList ∧ Text.upper name.toList = name.toList) (by
    simp only [List.all_eq_true, Bool.not_eq_true']
    exact ⟨fun h => ⟨h.1, ⟨h.2.1, h.2.2.1⟩, h.2.2.2⟩,
      fun h => ⟨h.nonempty, h.token.solid, h.token.uncommented, h.capital⟩⟩)

/-- The tokens of a line are tokens. -/
theorem isToken_of_mem_tokens (line : List Char) (token : Token) (h : token ∈ tokens line) :
    IsToken token := by
  rcases Text.mem_words _ token h with ⟨_, hmem⟩
  refine ⟨fun c hc => (hmem c hc).2, fun hs => ?_⟩
  have hfront := List.all_eq_true.mp List.all_takeWhile ';' (hmem ';' hs).1
  simp only [bne_self_eq_false, Bool.false_eq_true] at hfront

theorem tokens_append (line rest : List Char) (h : ';' ∉ line) :
    tokens (line ++ rest) = Text.words (line ++ rest.takeWhile (· != ';')) := by
  have hline : ∀ c, c ∈ line → (c != ';') = true := by
    intro c hc
    rw [bne_iff_ne]
    intro hcs
    rw [hcs] at hc
    exact h hc
  rw [tokens, List.takeWhile_append_of_pos hline]

/-- A comment begins at the first semicolon. -/
theorem tokens_comment (line comment : List Char) (h : ';' ∉ line) :
    tokens (line ++ ';' :: comment) = Text.words line := by
  have hcut : (';' :: comment).takeWhile (· != ';') = [] := rfl
  rw [tokens_append line _ h, hcut, List.append_nil]

theorem tokens_of_uncommented (line : List Char) (h : ';' ∉ line) :
    tokens line = Text.words line := by
  have hcut := tokens_append line [] h
  rw [List.takeWhile_nil, List.append_nil] at hcut
  exact hcut

-- Hexadecimal digits are a token.
theorem isToken_digits (cs : List Char) (h : ∀ c, c ∈ cs → Text.isHexDigit c = true) :
    IsToken cs := by
  refine ⟨fun c hc => Text.isBlank_of_isHexDigit c (h c hc), fun hs => ?_⟩
  exact absurd (h ';' hs) (by decide)

/-- A token defines what stands in front of its final colon. -/
theorem labelOf?_eq_some_iff (token label : Token) :
    labelOf? token = some label ↔ token = label ++ [':'] := by
  unfold labelOf?
  constructor
  · intro h
    split at h
    · rename_i hlast
      rcases List.getLast?_eq_some_iff.mp hlast with ⟨front, rfl⟩
      simp only [List.dropLast_concat, Option.some.injEq] at h
      rw [h]
    · cases h
  · intro h
    rw [h, List.getLast?_concat, if_pos rfl, List.dropLast_concat]

theorem splitLabel_of_label (label : Token) (rest : List Token) :
    splitLabel ((label ++ [':']) :: rest) = (some label, rest) := by
  rw [splitLabel, (labelOf?_eq_some_iff _ label).mpr rfl]

theorem splitLabel_of_body (first : Token) (rest : List Token) (h : ':' ∉ first) :
    splitLabel (first :: rest) = (none, first :: rest) := by
  have hfirst : labelOf? first = none := by
    cases hl : labelOf? first with
    | none => rfl
    | some label =>
        rw [(labelOf?_eq_some_iff first label).mp hl] at h
        exact absurd (List.mem_append_right label (List.mem_singleton_self ':')) h
  rw [splitLabel, hfirst]

/-- The label that a line defines is a token. -/
theorem isToken_of_splitLabel (line : List Char) (label : Token) (rest : List Token)
    (h : splitLabel (tokens line) = (some label, rest)) : IsToken label := by
  -- The label is the first token without its colon.
  have hmem : label ++ [':'] ∈ tokens line := by
    cases htokens : tokens line with
    | nil => rw [htokens] at h; cases h
    | cons first others =>
        rw [htokens] at h
        cases hfirst : labelOf? first with
        | none => simp only [splitLabel, hfirst, Prod.mk.injEq, reduceCtorEq, false_and] at h
        | some found =>
            simp only [splitLabel, hfirst, Prod.mk.injEq, Option.some.injEq] at h
            rw [← (labelOf?_eq_some_iff first label).mp (hfirst.trans (congrArg some h.1))]
            exact List.mem_cons_self ..
  have htoken := isToken_of_mem_tokens line _ hmem
  exact ⟨fun c hc => htoken.solid c (List.mem_append_left _ hc),
    fun hs => htoken.uncommented (List.mem_append_left _ hs)⟩

/-- A token that is not empty names a label. -/
theorem isLabel_labelName (token : Token) (h : IsToken token) (hne : labelName token ≠ "") :
    IsLabel (labelName token) := by
  refine ⟨hne, ⟨?_, ?_⟩, ?_⟩
  · rw [labelName, String.toList_ofList]
    exact Text.isBlank_upper token h.solid
  · rw [labelName, String.toList_ofList]
    exact Text.semicolon_upper token h.uncommented
  · rw [labelName, String.toList_ofList, Text.upper_upper]

/-- The name of a label names itself. -/
theorem labelName_of_isLabel (name : String) (h : IsLabel name) :
    labelName name.toList = name := by
  rw [labelName, h.capital, String.ofList_toList]

end Listing

namespace Body

/-- An origin that was written is read back. -/
theorem ofTokens_origin (address : UInt8) :
    ofTokens ["ORG".toList, (Text.hexByte address).toList] = .ok (.origin address) := by
  have horg : Text.equalUpToCase "ORG".toList "ORG".toList = true := by decide
  simp only [ofTokens, horg, if_true, Text.readHexByte?_hexByte]

/-- An address that was written is a number, and not the name of a label. -/
theorem target_hexByte (address : UInt8) :
    target (Text.hexByte address).toList = .ok (.fixed address) := by
  have hb := address.toNat_lt
  -- Two digits are not `xx`, and two digits are few enough to be a number.
  have hxx : ∀ m, m < 16 → ∀ n, n < 16 →
      Text.equalUpToCase [Text.hexDigit m, Text.hexDigit n] "xx".toList = false := by decide
  have hdigits : (Text.hexByte address).toList.all Text.isHexDigit = true :=
    List.all_eq_true.mpr (Text.isHexDigit_hexByte address)
  have hlength : (Text.hexByte address).toList.length ≤ 2 := by
    rw [Text.hexByte, String.toList_ofList]
    exact Nat.le_refl 2
  have hname : Text.equalUpToCase (Text.hexByte address).toList "xx".toList = false := by
    rw [Text.hexByte, String.toList_ofList]
    exact hxx _ (by omega) _ (by omega)
  unfold target
  rw [hname, if_neg Bool.false_ne_true, if_pos ⟨hlength, hdigits⟩, byte,
    Text.readHexByte?_hexByte]
  rfl

theorem byte_pairText (column : Column) (a b : UInt8) (ha : a ≤ 0xF) (hb : b ≤ 0xF) :
    byte column (MicroWord.pairText a b) = .ok (MicroWord.pairByte a b) := by
  have hpair := Text.readHexByte?_pair a.toNat
    (Nat.lt_succ_of_le (UInt8.le_iff_toNat_le.mp ha)) b.toNat
    (Nat.lt_succ_of_le (UInt8.le_iff_toNat_le.mp hb))
  rw [byte, MicroWord.pairText, hpair]
  rfl

/-- The columns of a word are read back. -/
theorem ofTokens_columns (w : MicroWord) (h : w.Narrow) :
    ofTokens [MicroWord.pairText w.write w.read, MicroWord.pairText w.alu w.jump,
        (Text.hexByte w.jumpAddress).toList] =
      .ok (.word (MicroWord.pairByte w.write w.read) (MicroWord.pairByte w.alu w.jump)
        (.fixed w.jumpAddress)) := by
  simp only [ofTokens, byte_pairText .hi w.write w.read h.write h.read,
    byte_pairText .mid w.alu w.jump h.alu h.jump, target_hexByte]
  rfl

end Body

end Microcode
