import Mathlib
import Microcode.Proofs.Text.Words
import Microcode.Text.Capital
import Microcode.Text.Hex
/-!
# The Case of Letters

What does not depend on whether the letters A to Z are typed in upper or lower case.

A listing is read in several ways that each have their own notion of case. Words such as `ORG`
are compared in lower case, digits have values in either case, and labels are put in capitals by
the rules of Unicode. A letter changes its case only if it is one of the first 128 characters, so
that what a function makes of a character and of its lower case has to be compared for these
alone; `blind_of_ascii` says so, and the lemmas behind it are its instances.

## Main definitions

* `Text.lower`: A text with the letters A to Z in lower case.

## Theorems

* `blind_of_ascii`: A function of characters is blind to case if it is so for the first 128.
* `capital_toLower`, `hexValue?_toLower`, `isBlank_toLower`: Functions that are.
* `toLower_eq_iff`: Signs have one case only.
* `equalUpToCase_iff`: Agreement up to case, as an equation.
* `upper_lower`, `readHexByte?_lower`: Capitals and bytes of a text in lower case.
* `pieces_lower`, `words_lower`: A text in lower case is cut at the same places.
-/

namespace Microcode

namespace Text

/-- A text with the letters A to Z in lower case. -/
def lower (cs : List Char) : List Char :=
  cs.map Char.toLower

/-- What a function makes of a character and of its lower case is the same if it is so for the
    first 128 characters. -/
theorem blind_of_ascii {β : Type} (f : Char → β)
    (h : ∀ n, n < 128 → f (Char.ofNat n).toLower = f (Char.ofNat n)) (c : Char) :
    f c.toLower = f c := by
  by_cases hc : c.toNat < 128
  · have hascii := h c.toNat hc
    rwa [Char.ofNat_toNat] at hascii
  · -- Only the letters from A to Z have another character as their lower case.
    have hupper : ¬ c.isUpper = true := by
      intro hletter
      rw [Char.isUpper, decide_eq_true_iff] at hletter
      have hz : c.toNat ≤ 'Z'.toNat := hletter.2
      exact hc (Nat.lt_of_le_of_lt hz (by decide))
    rw [Char.toLower_eq_of_not_isUpper hupper]

theorem capital_toLower (c : Char) : capital c.toLower = capital c :=
  blind_of_ascii capital (by decide +kernel) c

theorem hexValue?_toLower (c : Char) : hexValue? c.toLower = hexValue? c :=
  blind_of_ascii hexValue? (by decide +kernel) c

theorem isBlank_toLower (c : Char) : isBlank c.toLower = isBlank c :=
  blind_of_ascii isBlank (by decide +kernel) c

theorem not_isUpper_of_not_isAlpha (c : Char) (h : c.isAlpha = false) : ¬ c.isUpper = true := by
  intro hc
  rw [Char.isAlpha, hc, Bool.true_or] at h
  cases h

/-- A character that is no letter is the lower case of no other one. -/
theorem toLower_eq_iff (s : Char) (hs : s.isAlpha = false) (c : Char) :
    c.toLower = s ↔ c = s := by
  constructor
  · intro h
    have hc : c.isAlpha = false := by rw [← Char.isAlpha_toLower_eq_isAlpha, h, hs]
    rw [← h, Char.toLower_eq_of_not_isUpper (not_isUpper_of_not_isAlpha c hc)]
  · rintro rfl
    exact Char.toLower_eq_of_not_isUpper (not_isUpper_of_not_isAlpha c hs)

/-- A character is a given sign exactly if its lower case is. -/
theorem beq_toLower (s : Char) (hs : s.isAlpha = false) (c : Char) :
    (c.toLower == s) = (c == s) := by
  rw [Bool.eq_iff_iff, beq_iff_eq, beq_iff_eq, toLower_eq_iff s hs c]

/-- A text in lower case is its own lower case. -/
theorem lower_lower (cs : List Char) : lower (lower cs) = lower cs := by
  rw [lower, lower, List.map_map]
  exact List.map_congr_left (fun c _ => Char.toLower_toLower_eq_toLower c)

/-- Agreement up to case, as an equation. -/
theorem equalUpToCase_iff (a b : List Char) :
    equalUpToCase a b = true ↔ a.map Char.toLower = b.map Char.toLower := by
  rw [equalUpToCase, beq_iff_eq]

theorem equalUpToCase_lower (cs ds : List Char) :
    equalUpToCase (lower cs) ds = equalUpToCase cs ds := by
  have hself : (lower cs).map Char.toLower = cs.map Char.toLower := lower_lower cs
  rw [Bool.eq_iff_iff, equalUpToCase_iff, equalUpToCase_iff, hself]

/-- A text and its lower case have the same capitals. -/
theorem upper_lower (cs : List Char) : upper (lower cs) = upper cs := by
  rw [upper, lower, List.flatMap_map]
  exact congrArg (List.flatMap · cs) (funext capital_toLower)

theorem readHex?_lower (cs : List Char) : readHex? (lower cs) = readHex? cs := by
  rw [readHex?, lower, List.isEmpty_map, List.foldlM_map]
  simp only [hexValue?_toLower]
  rfl

/-- A text and its lower case spell the same byte. -/
theorem readHexByte?_lower (token : List Char) :
    readHexByte? (lower token) = readHexByte? token := by
  by_cases hsigned : ∃ rest, token = '+' :: rest
  · rcases hsigned with ⟨rest, rfl⟩
    have hsign : lower ('+' :: rest) = '+' :: lower rest := rfl
    rw [hsign, readHexByte?, readHexByte?, readHex?_lower]
  · -- A lower case that begins with a plus sign is that of a text that does.
    have hunsigned : ∀ rest, token = '+' :: rest → False := fun rest h => hsigned ⟨rest, h⟩
    have hlower : ∀ rest, lower token = '+' :: rest → False := by
      intro rest h
      rcases List.map_eq_cons_iff.mp h with ⟨c, cs, rfl, hc, -⟩
      exact hsigned ⟨cs, by rw [(toLower_eq_iff '+' rfl c).mp hc]⟩
    rw [readHexByte?.eq_2 token hunsigned, readHexByte?.eq_2 _ hlower, readHex?_lower]

theorem all_isHexDigit_lower (cs : List Char) :
    (lower cs).all isHexDigit = cs.all isHexDigit := by
  have hdigit : isHexDigit ∘ Char.toLower = isHexDigit := by
    refine funext (fun c => ?_)
    rw [Function.comp_apply, isHexDigit, hexValue?_toLower, isHexDigit]
  rw [lower, List.all_map, hdigit]

theorem length_lower (cs : List Char) : (lower cs).length = cs.length :=
  List.length_map _

/-- A text in lower case is cut where the text is. -/
theorem pieces_lower (isSeparator : Char → Bool)
    (h : ∀ c : Char, isSeparator c.toLower = isSeparator c) (cs : List Char) :
    pieces isSeparator (lower cs) = (pieces isSeparator cs).map lower := by
  induction cs with
  | nil => rfl
  | cons c cs ih =>
      cases hc : isSeparator c with
      | true =>
          rw [pieces, if_pos hc, lower, List.map_cons, pieces, if_pos ((h c).trans hc)]
          exact congrArg ([] :: ·) ih
      | false =>
          rcases exists_pieces isSeparator cs with ⟨p, ps, hp⟩
          rw [hp, List.map_cons] at ih
          rw [pieces_cons_of_free isSeparator c cs p ps hc hp, List.map_cons]
          exact pieces_cons_of_free isSeparator c.toLower (lower cs) _ _ ((h c).trans hc) ih

/-- A text in lower case has the words of the text, in lower case. -/
theorem words_lower (cs : List Char) : words (lower cs) = (words cs).map lower := by
  rw [words, pieces_lower isBlank isBlank_toLower, List.filter_map]
  refine congrArg (List.map lower) (List.filter_congr (fun p _ => ?_))
  rw [Function.comp_apply, lower, List.isEmpty_map]

end Text

end Microcode
