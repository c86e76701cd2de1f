import Mathlib.Data.List.Basic
import Mathlib.Tactic.SplitIfs
import Microcode.Json.Parser
import Microcode.Json.Printer
/-!
# JSON Tokens

Strings and numbers, read back from the way in which they are printed.

A string is read in two passes. The first one takes it apart into elements, and every escape that
is printed is one element again, the character that was escaped. The second pass joins halves of
surrogate pairs, of which a printed text has none. The printed form of a string without a text is
such a half, alone, and is found to denote nothing.

A number says nowhere that it is over. It is read back only in front of something that cannot be
part of it, and this is what `Ends` is about.

## Main definitions

* `Json.Ends`: What may stand behind a value.

## Theorems

* `readElements_escape`: The printed form of a character is read as that character.
* `readString_quote`, `readString_half`: Printed strings are read back.
* `Ends.not_number`: What may stand behind a value does not go on with a number.
* `head?_toDigits`: Decimal digits do not begin with a zero, unless it is the only one.
* `readNumber_digits`, `readNumber_negative`: Printed numbers are read back.
-/

namespace Microcode

namespace Json

/-- What may stand behind a value: nothing, a blank, a comma or a closing bracket. -/
def Ends (rest : List Char) : Prop :=
  ∀ c, rest.head? = some c → isJsonBlank c = true ∨ c = ',' ∨ c = ']' ∨ c = '\x7d'

section Strings

theorem readElements_plain (done : List Element) (c : Char) (rest : List Char)
    (hquote : c ≠ '"') (hslash : c ≠ '\\') (hcontrol : ¬ c.toNat < 0x20) :
    readElements done (c :: rest) = readElements (.char c :: done) rest := by
  rw [readElements]
  · rw [if_neg hcontrol]
  · exact hquote
  · intro _ _ _ _ _ h _
    exact hslash h
  · intro _ _ h _
    exact hslash h

-- The four digits that are printed for a control character.
theorem readUnit?_control : ∀ n, n < 16 →
    readUnit? '0' '0' '0' (Nat.digitChar n) = some n ∧
      readUnit? '0' '0' '1' (Nat.digitChar n) = some (n + 0x10) := by
  decide

/-- The code unit of a character is no half of a surrogate pair. -/
theorem ofUnit_toNat (c : Char) : Element.ofUnit c.toNat = .char c := by
  have hvalid : c.toNat < 0xD800 ∨ (0xDFFF < c.toNat ∧ c.toNat < 0x110000) := c.valid
  rw [Element.ofUnit, if_neg (by omega), Char.ofNat_toNat]

/-- The printed form of a character is read as that character. -/
theorem readElements_escape (done : List Element) (c : Char) (rest : List Char) :
    readElements done (escape c ++ rest) = readElements (.char c :: done) rest := by
  unfold escape
  -- Seven characters have escapes of their own, the other controls are spelled as units.
  split_ifs with hquote hslash h8 h9 hA hC hD hlow hhigh
  · subst hquote
    rfl
  · subst hslash
    rfl
  · obtain rfl : c = '\x08' := Char.toNat_inj.mp h8
    rfl
  · obtain rfl : c = '\t' := Char.toNat_inj.mp h9
    rfl
  · obtain rfl : c = '\n' := Char.toNat_inj.mp hA
    rfl
  · obtain rfl : c = '\x0c' := Char.toNat_inj.mp hC
    rfl
  · obtain rfl : c = '\r' := Char.toNat_inj.mp hD
    rfl
  · have hunit := (readUnit?_control c.toNat hlow).1
    simp only [List.cons_append, List.nil_append, readElements, hunit, ofUnit_toNat]
  · have hunit := (readUnit?_control (c.toNat - 0x10) (by omega)).2
    rw [Nat.sub_add_cancel (by omega)] at hunit
    simp only [List.cons_append, List.nil_append, readElements, hunit, ofUnit_toNat]
  · exact readElements_plain done c rest hquote hslash hhigh

theorem readElements_quote (done : List Element) (cs rest : List Char) :
    readElements done (cs.flatMap escape ++ '"' :: rest) =
      some ((cs.map Element.char).reverse ++ done, rest) := by
  induction cs generalizing done with
  | nil => rfl
  | cons c cs ih =>
      rw [List.flatMap_cons, List.append_assoc, readElements_escape, ih, List.map_cons,
        List.reverse_cons, List.append_assoc]
      rfl

theorem joinElements_chars (tail cs : List Char) :
    joinElements tail (cs.map Element.char) = some (cs.reverse ++ tail) := by
  induction cs generalizing tail with
  | nil => rfl
  | cons c cs ih =>
      rw [List.map_cons, joinElements, ih, List.reverse_cons, List.append_assoc]
      rfl

/-- A printed string is read back, from behind its opening quotation mark. -/
theorem readString_quote (s : String) (rest : List Char) :
    readString (s.toList.flatMap escape ++ '"' :: rest) = some (some s, rest) := by
  simp only [readString, readElements_quote, List.append_nil, ← List.map_reverse,
    joinElements_chars, List.reverse_reverse, Option.map_some, String.ofList_toList]

/-- What is printed for a string that denotes no text denotes none. -/
theorem readString_half (rest : List Char) :
    readString ('\\' :: 'u' :: 'd' :: '8' :: '0' :: '0' :: '"' :: rest) = some (none, rest) :=
  rfl

end Strings

section Numbers

-- What may stand behind a value does not go on with a number.
theorem Ends.not_number {rest : List Char} (h : Ends rest) (c : Char) (hc : rest.head? = some c) :
    c.isDigit = false ∧ c ≠ '.' ∧ c ≠ 'e' ∧ c ≠ 'E' := by
  have hmem := h c hc
  simp only [isJsonBlank, Bool.or_eq_true, beq_iff_eq] at hmem
  rcases hmem with (((rfl | rfl) | rfl) | rfl) | rfl | rfl | rfl <;> decide

theorem spanDigits_append (digits rest : List Char) (hdigits : ∀ c ∈ digits, c.isDigit = true)
    (hrest : Ends rest) : spanDigits (digits ++ rest) = (digits, rest) := by
  have hstop : ∀ c cs, rest = c :: cs → c.isDigit = false :=
    fun c cs hcs => (hrest.not_number c (congrArg List.head? hcs)).1
  rw [spanDigits, List.takeWhile_append_of_pos hdigits, List.dropWhile_append_of_pos hdigits]
  cases rest with
  | nil => rw [List.takeWhile_nil, List.dropWhile_nil, List.append_nil]
  | cons c cs =>
      have hc : ¬ c.isDigit = true := by rw [hstop c cs rfl]; exact Bool.false_ne_true
      rw [List.takeWhile_cons_of_neg hc, List.dropWhile_cons_of_neg hc, List.append_nil]

/-- Decimal digits do not begin with a zero, unless it is the only one. -/
theorem head?_toDigits (n : Nat) (h : 0 < n) : (Nat.toDigits 10 n).head? ≠ some '0' := by
  have hdigit : ∀ d, d < 10 → Nat.digitChar d = '0' → d = 0 := by decide
  induction n using Nat.strongRecOn with
  | ind n ih =>
      by_cases hn : n < 10
      · rw [Nat.toDigits_of_lt_base hn, List.head?_singleton]
        intro hc
        have hzero := hdigit n hn (Option.some.inj hc)
        omega
      · -- The first digit is that of the quotient.
        rw [Nat.toDigits_of_base_le (by omega) (by omega),
          List.head?_append_of_ne_nil _ Nat.toDigits_ne_nil]
        exact ih (n / 10) (by omega) (by omega)

/-- In front of an end there is neither a fraction nor an exponent. -/
theorem skipFraction_of_ends (rest : List Char) (h : Ends rest) :
    skipFraction rest = some rest := by
  unfold skipFraction
  split
  · exact absurd rfl (h.not_number '.' rfl).2.1
  · rfl

theorem skipExponent_of_ends (rest : List Char) (h : Ends rest) :
    skipExponent rest = some rest := by
  unfold skipExponent
  split
  · rename_i c rest
    have hc := (h.not_number c rfl).2.2
    rw [if_neg (not_or.mpr hc)]
  · rfl

theorem readUnsigned_digits (n : Nat) (rest : List Char) (h : Ends rest) :
    readUnsigned (Nat.toDigits 10 n ++ rest) = some (some n, rest) := by
  have hdigits : ∀ c ∈ Nat.toDigits 10 n, c.isDigit = true :=
    fun c hc => Nat.isDigit_of_mem_toDigits (by omega) (by omega) hc
  have hzero : ¬ ((Nat.toDigits 10 n).head? = some '0' ∧ (Nat.toDigits 10 n).length ≠ 1) := by
    rintro ⟨hhead, hlength⟩
    by_cases hn : 0 < n
    · exact head?_toDigits n hn hhead
    · obtain rfl : n = 0 := by omega
      exact hlength rfl
  rw [readUnsigned, spanDigits_append _ _ hdigits h]
  cases hcons : Nat.toDigits 10 n with
  | nil => exact absurd hcons Nat.toDigits_ne_nil
  | cons d ds =>
      have hvalue : Nat.ofDigitChars 10 (d :: ds) 0 = n := by
        rw [← hcons]
        exact Nat.ofDigitChars_ten_toDigits
      rw [hcons] at hzero
      simp only [if_neg hzero, skipFraction_of_ends rest h, skipExponent_of_ends rest h, if_true,
        hvalue]

/-- A printed number is read back. -/
theorem readNumber_digits (n : Nat) (rest : List Char) (h : Ends rest) :
    readNumber (Nat.toDigits 10 n ++ rest) = some (.natural n, rest) := by
  unfold readNumber
  split
  · -- A digit is no sign.
    rename_i cs hcs
    cases hcons : Nat.toDigits 10 n with
    | nil => exact absurd hcons Nat.toDigits_ne_nil
    | cons d ds =>
        rw [hcons, List.cons_append, List.cons.injEq] at hcs
        have hd := Nat.isDigit_of_mem_toDigits (b := 10) (n := n) (c := d) (by omega) (by omega)
          (by rw [hcons]; exact List.mem_cons_self ..)
        rw [hcs.1] at hd
        exact absurd hd (by decide)
  · rw [readUnsigned_digits n rest h]
    rfl

/-- What is printed for a number that is not plain is not plain. -/
theorem readNumber_negative (rest : List Char) (h : Ends rest) :
    readNumber ('-' :: '1' :: rest) = some (.otherNumber, rest) := by
  have hone := readUnsigned_digits 1 rest h
  rw [Nat.toDigits_of_lt_base (by omega)] at hone
  change (readUnsigned ([Nat.digitChar 1] ++ rest)).map _ = _
  rw [hone]
  rfl

end Numbers

end Json

end Microcode
