import Microcode.Proofs.Listing.Statements
import Microcode.Proofs.Outcomes
import Microcode.Proofs.Text.Numerals
/-!
# The Grammar of a Listing

What a line may look like, and what it says then.

The grammar is stated without the reader, by one constructor for each form: `SaysTarget` for the
third column of a word, `SaysBody` for what stands behind a label, and `Says` for a whole line,
with `Heads` to take the label off. `BodyFault` is the other side. It names the one fault of a
body that says nothing, and has its constructors in the order in which the reader looks: the
shape first, then the operand of an `ORG` or the columns from left to right. The third column has
no fault of its own, since what is neither `xx` nor a short number is the name of a label.

`ofTokens_eq_ok_iff` and `ofTokens_of_bodyFault` tie both to the reader of bodies, and
`saysBody_or_fault` says that there is nothing between them.

## Main definitions

* `Statement`: What a line of a listing says.
* `Listing.SaysTarget`, `Listing.SaysBody`: What a third column and a body say.
* `Listing.HasShape`, `Listing.BodyFault`: The forms of a body, and why one says nothing.
* `Listing.Heads`: The tokens of a line are a label and a body.
* `Listing.Says`: What a line says.

## Theorems

* `target_eq_ok_iff`, `exists_saysTarget`: The third column is read as what it says.
* `ofTokens_eq_ok_iff`, `ofTokens_of_bodyFault`: A body is read as what it says, or has its fault.
* `saysBody_or_fault`: A body that says nothing has a fault.
* `splitLabel_eq_iff`: The label of a line is taken off.
* `says_unique`: A line says one thing at most.
* `labelName_eq_empty_iff`: Only an empty label has an empty name.
-/

namespace Microcode

/-- What a line of a listing says. -/
structure Statement where
  /-- The number of the line. -/
  line : Nat
  /-- The label that the line defines, in the form in which labels are compared. -/
  label : Option String
  body : Body
  deriving DecidableEq, Repr

namespace Listing

/-- What the third column of a word says: nothing in particular, a number of one or two digits, or
    the name of a label. -/
inductive SaysTarget (token : Token) : Target → Prop where
  | dontCare (h : Text.equalUpToCase token "xx".toList = true) : SaysTarget token (.fixed 0)
  | number (address : UInt8) (hlength : token.length ≤ 2)
      (h : Text.Spells token address.toNat) : SaysTarget token (.fixed address)
  | label (hx : Text.equalUpToCase token "xx".toList = false)
      (hn : ¬ (token.length ≤ 2 ∧ ∀ c, c ∈ token → Text.isHexDigit c = true)) :
      SaysTarget token (.label (labelName token))

/-- What the tokens of a body say: nothing, the address of the next word, or a word. -/
inductive SaysBody : List Token → Body → Prop where
  | nothing : SaysBody [] .nothing
  | origin (directive operand : Token) (address : UInt8)
      (hd : Text.equalUpToCase directive "ORG".toList = true)
      (ho : Text.SpellsByte operand address) : SaysBody [directive, operand] (.origin address)
  | word (first second third : Token) (hi mid : UInt8) (target : Target)
      (hhi : Text.SpellsByte first hi) (hmid : Text.SpellsByte second mid)
      (htarget : SaysTarget third target) : SaysBody [first, second, third] (.word hi mid target)

/-- The tokens have the shape of a body, whatever the bytes in it are. -/
inductive HasShape : List Token → Prop where
  | nothing : HasShape []
  | origin (directive operand : Token)
      (hd : Text.equalUpToCase directive "ORG".toList = true) : HasShape [directive, operand]
  | word (first second third : Token) : HasShape [first, second, third]

/-- The fault of a body that says nothing. -/
inductive BodyFault : List Token → SyntaxFault → Prop where
  | shape (ts : List Token) (h : ¬ HasShape ts) : BodyFault ts (.columns (ts.map String.ofList))
  | operand (directive operand : Token)
      (hd : Text.equalUpToCase directive "ORG".toList = true)
      (ho : ∀ b, ¬ Text.SpellsByte operand b) :
      BodyFault [directive, operand] (.originOperand (String.ofList operand))
  | hi (first second third : Token) (h : ∀ b, ¬ Text.SpellsByte first b) :
      BodyFault [first, second, third] (.notAByte .hi (String.ofList first))
  | mid (first second third : Token) (hi : UInt8) (hhi : Text.SpellsByte first hi)
      (h : ∀ b, ¬ Text.SpellsByte second b) :
      BodyFault [first, second, third] (.notAByte .mid (String.ofList second))

/-- The tokens of a line are those of a label, if there is one, and those of a body. The first
    token is a label if it ends in a colon. -/
structure Heads (ts : List Token) (label : Option Token) (rest : List Token) : Prop where
  tokens : ts = (label.map (· ++ [':'])).toList ++ rest
  first : label = none → ∀ token, rest.head? = some token → token.getLast? ≠ some ':'

/-- What a numbered line says. -/
inductive Says : List Char × Nat → Statement → Prop where
  | intro (chars : List Char) (n : Nat) (label : Option Token) (rest : List Token) (body : Body)
      (hheads : Heads (tokens chars) label rest) (hbody : SaysBody rest body) :
      Says (chars, n) { line := n, label := label.map labelName, body }

theorem byte_eq_ok_iff (column : Column) (token : Token) (b : UInt8) :
    Body.byte column token = .ok b ↔ Text.SpellsByte token b := by
  rw [← Text.readHexByte?_eq_some_iff, Body.byte]
  cases Text.readHexByte? token with
  | none => simp only [reduceCtorEq]
  | some b' => simp only [Except.ok.injEq, Option.some.injEq]

theorem byte_of_not_spells (column : Column) (token : Token)
    (h : ∀ b, ¬ Text.SpellsByte token b) :
    Body.byte column token = .error (.notAByte column (String.ofList token)) := by
  rw [Body.byte, (Text.readHexByte?_eq_none_iff token).mpr h]

-- The letter x is no digit.
theorem not_xx_of_digits (token : Token) (h : ∀ c, c ∈ token → Text.isHexDigit c = true) :
    Text.equalUpToCase token "xx".toList = false := by
  have hx : ∀ n, n < 128 → Text.isHexDigit (Char.ofNat n) = true →
      (Char.ofNat n).toLower ≠ 'x' := by decide
  rw [← Bool.not_eq_true]
  intro heq
  have hmap : token.map Char.toLower = ['x', 'x'] := eq_of_beq heq
  cases token with
  | nil => cases hmap
  | cons c cs =>
      have hc := h c (List.mem_cons_self ..)
      have hrange := Text.toNat_of_isHexDigit c hc
      have hne := hx c.toNat (by omega)
      rw [Char.ofNat_toNat] at hne
      exact hne hc (List.cons.inj hmap).1

/-- For a text of digits the two readings of a byte are one. -/
theorem spells_of_spellsByte (token : Token) (b : UInt8)
    (h : ∀ c, c ∈ token → Text.isHexDigit c = true) (hb : Text.SpellsByte token b) :
    Text.Spells token b.toNat := by
  cases hb with
  | digits _ _ hd => exact hd
  | signed cs _ _ =>
      have hplus : Text.isHexDigit '+' = false := by decide
      rw [h '+' (List.mem_cons_self ..)] at hplus
      cases hplus

/-- The third column of a word is read as what it says. -/
theorem target_eq_ok_iff (token : Token) (target : Target) :
    Body.target token = .ok target ↔ SaysTarget token target := by
  unfold Body.target
  -- The mark of no target is asked for first. It is no number, since X is no digit.
  by_cases hx : Text.equalUpToCase token "xx".toList = true
  · rw [if_pos hx, Except.ok.injEq]
    constructor
    · rintro rfl
      exact .dontCare hx
    · intro h
      cases h with
      | dontCare => rfl
      | number address _ hspells =>
          rw [not_xx_of_digits token (Text.isHexDigit_of_spells _ _ hspells)] at hx
          cases hx
      | label hno _ =>
          rw [hno] at hx
          cases hx
  · simp only [if_neg hx, List.all_eq_true]
    by_cases hshort : token.length ≤ 2 ∧ ∀ c, c ∈ token → Text.isHexDigit c = true
    · rw [if_pos hshort, map_eq_ok_iff]
      simp only [byte_eq_ok_iff]
      constructor
      · rintro ⟨b, hb, rfl⟩
        exact .number b hshort.1 (spells_of_spellsByte token b hshort.2 hb)
      · intro h
        cases h with
        | dontCare hyes => exact absurd hyes hx
        | number address _ hspells => exact ⟨address, .digits token address hspells, rfl⟩
        | label _ hlong => exact absurd hshort hlong
    · rw [if_neg hshort, Except.ok.injEq]
      constructor
      · rintro rfl
        exact .label (Bool.eq_false_iff.mpr hx) hshort
      · intro h
        cases h with
        | dontCare hyes => exact absurd hyes hx
        | number address hlength hspells =>
            exact absurd ⟨hlength, Text.isHexDigit_of_spells _ _ hspells⟩ hshort
        | label => rfl

/-- A third column always says something: two digits are never too much for a byte. -/
theorem exists_saysTarget (token : Token) (hne : token ≠ []) :
    ∃ target, SaysTarget token target := by
  by_cases hx : Text.equalUpToCase token "xx".toList = true
  · exact ⟨_, .dontCare hx⟩
  · by_cases hshort : token.length ≤ 2 ∧ ∀ c, c ∈ token → Text.isHexDigit c = true
    · rcases Text.exists_spells token hne hshort.2 with ⟨n, hn⟩
      refine ⟨_, .number (UInt8.ofNat n) hshort.1 ?_⟩
      rw [UInt8.toNat_ofNat_of_lt' (Text.spells_lt token n hn hshort.1)]
      exact hn
    · exact ⟨_, .label (Bool.eq_false_iff.mpr hx) hshort⟩

/-- A word of three columns is read column by column. -/
theorem ofTokens_word (first second third : Token) :
    Body.ofTokens [first, second, third] = Body.byte .hi first >>= fun hi =>
      Body.byte .mid second >>= fun mid => Body.target third >>= fun target =>
        pure (.word hi mid target) :=
  rfl

/-- A body is read as what it says. -/
theorem ofTokens_eq_ok_iff (ts : List Token) (body : Body) :
    Body.ofTokens ts = .ok body ↔ SaysBody ts body := by
  constructor
  · intro h
    -- The number of tokens decides what a line can be.
    rcases ts with _ | ⟨first, _ | ⟨second, _ | ⟨third, _ | ⟨fourth, others⟩⟩⟩⟩
    · cases h
      exact .nothing
    · cases h
    · simp only [Body.ofTokens] at h
      split at h
      · rename_i hd
        split at h
        · rename_i address ho
          cases h
          exact .origin first second address hd ((Text.readHexByte?_eq_some_iff _ _).mp ho)
        · cases h
      · cases h
    · simp only [ofTokens_word, bind_eq_ok_iff, byte_eq_ok_iff, target_eq_ok_iff, pure,
        Except.pure, Except.ok.injEq] at h
      rcases h with ⟨hi, hhi, mid, hmid, target, htarget, rfl⟩
      exact .word first second third hi mid target hhi hmid htarget
    · cases h
  · intro h
    cases h with
    | nothing => rfl
    | origin directive operand address hd ho =>
        simp only [Body.ofTokens, hd, if_true, (Text.readHexByte?_eq_some_iff _ _).mpr ho]
    | word first second third hi mid target hhi hmid htarget =>
        simp only [ofTokens_word, bind_eq_ok_iff, byte_eq_ok_iff, target_eq_ok_iff, pure,
          Except.pure, Except.ok.injEq]
        exact ⟨hi, hhi, mid, hmid, target, htarget, rfl⟩

/-- A body with a fault is reported for it. -/
theorem ofTokens_of_bodyFault (ts : List Token) (fault : SyntaxFault) (h : BodyFault ts fault) :
    Body.ofTokens ts = .error fault := by
  cases h with
  | shape _ hshape =>
      rcases ts with _ | ⟨first, _ | ⟨second, _ | ⟨third, _ | ⟨fourth, others⟩⟩⟩⟩
      · exact absurd .nothing hshape
      · rfl
      · have hd : ¬ Text.equalUpToCase first "ORG".toList = true := fun hd =>
          hshape (.origin first second hd)
        simp only [Body.ofTokens, if_neg hd]
      · exact absurd (.word first second third) hshape
      · rfl
  | operand directive operand hd ho =>
      simp only [Body.ofTokens, hd, if_true, (Text.readHexByte?_eq_none_iff _).mpr ho]
  | hi first second third hfirst =>
      rw [ofTokens_word, byte_of_not_spells .hi first hfirst]
      rfl
  | mid first second third hi hhi hsecond =>
      rw [ofTokens_word, (byte_eq_ok_iff .hi first hi).mpr hhi,
        byte_of_not_spells .mid second hsecond]
      rfl

/-- A body says something or has a fault. -/
theorem saysBody_or_fault (ts : List Token) (hne : ∀ token, token ∈ ts → token ≠ []) :
    (∃ body, SaysBody ts body) ∨ ∃ fault, BodyFault ts fault := by
  by_cases hshape : HasShape ts
  · cases hshape with
    | nothing => exact Or.inl ⟨_, .nothing⟩
    | origin directive operand hd =>
        by_cases ho : ∃ b, Text.SpellsByte operand b
        · rcases ho with ⟨b, hb⟩
          exact Or.inl ⟨_, .origin directive operand b hd hb⟩
        · exact Or.inr ⟨_, .operand directive operand hd (not_exists.mp ho)⟩
    | word first second third =>
        by_cases hhi : ∃ b, Text.SpellsByte first b
        · rcases hhi with ⟨hi, hhi⟩
          by_cases hmid : ∃ b, Text.SpellsByte second b
          · rcases hmid with ⟨mid, hmid⟩
            rcases exists_saysTarget third (hne third (by simp)) with ⟨target, htarget⟩
            exact Or.inl ⟨_, .word first second third hi mid target hhi hmid htarget⟩
          · exact Or.inr ⟨_, .mid first second third hi hhi (not_exists.mp hmid)⟩
        · exact Or.inr ⟨_, .hi first second third (not_exists.mp hhi)⟩
  · exact Or.inr ⟨_, .shape ts hshape⟩

/-- The label of a line is taken off. -/
theorem splitLabel_eq_iff (ts : List Token) (label : Option Token) (rest : List Token) :
    splitLabel ts = (label, rest) ↔ Heads ts label rest := by
  constructor
  · intro h
    cases ts with
    | nil =>
        cases h
        exact ⟨rfl, fun _ token htoken => absurd htoken (Option.some_ne_none token).symm⟩
    | cons first others =>
        -- Only a token that ends in a colon is taken off.
        cases hlabel : labelOf? first with
        | none =>
            rw [splitLabel, hlabel] at h
            cases h
            refine ⟨rfl, fun _ token htoken hcolon => ?_⟩
            cases htoken
            rw [labelOf?, if_pos hcolon] at hlabel
            cases hlabel
        | some found =>
            rw [splitLabel, hlabel] at h
            cases h
            refine ⟨?_, fun hnone => absurd hnone (Option.some_ne_none found)⟩
            rw [(labelOf?_eq_some_iff first found).mp hlabel]
            rfl
  · rintro ⟨rfl, hfirst⟩
    cases label with
    | some token => exact splitLabel_of_label token rest
    | none =>
        cases rest with
        | nil => rfl
        | cons first others =>
            have hcolon := hfirst rfl first rfl
            change splitLabel (first :: others) = _
            rw [splitLabel, labelOf?, if_neg hcolon]

/-- A line says one thing at most. -/
theorem says_unique (numbered : List Char × Nat) (s t : Statement) (hs : Says numbered s)
    (ht : Says numbered t) : s = t := by
  cases hs with
  | intro chars n label rest body hheads hbody =>
      cases ht with
      | intro _ _ label' rest' body' hheads' hbody' =>
          have hsplit := (splitLabel_eq_iff _ _ _).mpr hheads
          rw [(splitLabel_eq_iff _ _ _).mpr hheads'] at hsplit
          cases hsplit
          have hread := (ofTokens_eq_ok_iff rest body).mpr hbody
          rw [(ofTokens_eq_ok_iff rest body').mpr hbody'] at hread
          cases hread
          rfl

/-- Tokens can always be parted into a label and a body. -/
theorem exists_heads (ts : List Token) : ∃ label rest, Heads ts label rest :=
  ⟨_, _, (splitLabel_eq_iff ts _ _).mp rfl⟩

-- The tokens of a body are not empty.
theorem ne_nil_of_heads (chars : List Char) (label : Option Token) (rest : List Token)
    (h : Heads (tokens chars) label rest) (token : Token) (htoken : token ∈ rest) : token ≠ [] := by
  refine (Text.mem_words (chars.takeWhile (· != ';')) token ?_).1
  rw [← tokens, h.tokens]
  exact List.mem_append_right _ htoken

/-- Only an empty label has an empty name. -/
theorem labelName_eq_empty_iff (token : Token) : labelName token = "" ↔ token = [] := by
  have hupper : Text.upper token = [] ↔ token = [] := by
    rw [Text.upper, List.flatMap_eq_nil_iff]
    constructor
    · intro h
      cases token with
      | nil => rfl
      | cons c cs => exact absurd (h c (List.mem_cons_self ..)) (Text.capital_ne_nil c)
    · rintro rfl c hc
      exact absurd hc List.not_mem_nil
  rw [← hupper, labelName]
  exact String.ofList_eq_empty_iff

end Listing

end Microcode
