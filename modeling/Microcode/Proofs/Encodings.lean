import Microcode.Proofs.Listing.Reassembly
import Microcode.Proofs.Packing
import Microcode.Proofs.Text.Numerals
/-!
# Words, Bits and Columns

The three forms of a word agree: its codes, its twenty-four bits, and its columns of digits.

The bits are packed by shifts and masks, the columns are written digit by digit, with one format
for a code and another one for an address, and a line of a listing is read byte by byte and cut
into codes again. Each of these takes the five parts of a word apart in its own way. What makes
them agree is that all of them are positional: the parts are digits of one number, four bits each
for the codes and eight for the jump address, so the columns without their blanks are the
hexadecimal numeral of the bits.

## Main definitions

* `Text.WritesHex`: A number in a given number of upper-case digits.
* `MicroWord.digits`: The digits of a word, from left to right.

## Theorems

* `spells_map_hexDigit`: Digits that are written for values spell the number of these values.
* `filter_text`: The columns of a word without their blanks.
* `writesHex_digits`: The digits of a word are the numeral of its bits.
* `ofCodes_eq_error_iff`: The first code that does not fit is reported.
* `ofBits_eq_error_iff`: The bits that are no word are those that are too wide.
* `line_text`, `assemble_text`: The columns of a word as a line of a listing.
* `encodings_agree`: The forms of a word agree.
-/

namespace Microcode

namespace Text

/-- A number in upper-case hexadecimal digits, as many as asked for. -/
structure WritesHex (width : Nat) (cs : List Char) (n : Nat) : Prop where
  length : cs.length = width
  upper : ∀ c, c ∈ cs → c ∈ "0123456789ABCDEF".toList
  spells : Spells cs n

theorem hexDigit_mem : ∀ n, n < 16 → hexDigit n ∈ "0123456789ABCDEF".toList := by
  decide

/-- A printed digit is worth what it was printed for. -/
theorem hexValue?_hexDigit : ∀ n, n < 16 → hexValue? (hexDigit n) = some n := by
  decide

/-- Digits that are written for values spell the number that has these values for its digits. -/
theorem spells_map_hexDigit (values : List Nat) (hne : values ≠ [])
    (h : ∀ v, v ∈ values → v < 16) :
    Spells (values.map hexDigit) (values.foldl (fun n v => 16 * n + v) 0) := by
  induction values using List.reverseRecOn with
  | nil => exact absurd rfl hne
  | append_singleton values v ih =>
      have hv := hexValue?_hexDigit v (h v (List.mem_append_right _ (List.mem_singleton_self v)))
      rw [List.map_append, List.foldl_append]
      by_cases hvalues : values = []
      · rw [hvalues]
        exact .digit _ _ (hv.trans (congrArg some (Nat.zero_add v).symm))
      · exact .next _ _ _ _ (ih hvalues (fun u hu => h u (List.mem_append_left _ hu))) hv

end Text

namespace MicroWord

/-- The values of the digits of a word, from left to right. -/
def digits (w : MicroWord) : List Nat :=
  [w.write.toNat, w.read.toNat, w.alu.toNat, w.jump.toNat, w.jumpAddress.toNat / 16,
    w.jumpAddress.toNat % 16]

theorem digits_lt (w : MicroWord) (h : w.Narrow) (v : Nat) (hv : v ∈ w.digits) : v < 16 := by
  obtain ⟨hw, hr, ha, hj⟩ := h.toNat_le
  have hjump := w.jumpAddress.toNat_lt
  simp only [digits, List.mem_cons, List.not_mem_nil, or_false] at hv
  omega

/-- The columns of a word without their blanks are its digits. -/
theorem filter_text (w : MicroWord) (h : w.Narrow) :
    w.text.toList.filter (· != ' ') = w.digits.map Text.hexDigit := by
  have hdigit : ∀ n, n < 16 → (Text.hexDigit n != ' ') = true := by decide
  have hkept : ∀ v, v ∈ w.digits → (Text.hexDigit v != ' ') = true :=
    fun v hv => hdigit v (w.digits_lt h v hv)
  simp only [digits, List.forall_mem_cons] at hkept
  obtain ⟨hw, hr, ha, hj, hhi, hlo, _⟩ := hkept
  rw [w.text_of_narrow h, pairText, pairText, Text.hexByte, String.toList_ofList]
  simp only [digits, List.cons_append, List.nil_append, List.map_cons, List.map_nil,
    List.filter_cons, List.filter_nil, hw, hr, ha, hj, hhi, hlo, bne_self_eq_false, if_true,
    Bool.false_eq_true, if_false]

/-- The digits of a word are the numeral of its bits. -/
theorem writesHex_digits (w : MicroWord) (h : w.Narrow) :
    Text.WritesHex 6 (w.digits.map Text.hexDigit) w.bits.toNat := by
  refine ⟨rfl, fun c hc => ?_, ?_⟩
  · rcases List.mem_map.mp hc with ⟨v, hv, rfl⟩
    exact Text.hexDigit_mem v (w.digits_lt h v hv)
  · have hspells := Text.spells_map_hexDigit w.digits (List.cons_ne_nil _ _) (w.digits_lt h)
    have hvalue : w.digits.foldl (fun n v => 16 * n + v) 0 = w.bits.toNat := by
      rw [w.toNat_bits h]
      simp only [digits, List.foldl_cons, List.foldl_nil]
      omega
    rwa [hvalue] at hspells

/-- The first code that does not fit is reported. -/
theorem ofCodes_eq_error_iff (write read alu jump jumpAddress : UInt8) (e : WordError) :
    ofCodes write read alu jump jumpAddress = .error e ↔
      ∃ field code, e = .fieldOverflow field code ∧ 15 < code.toNat ∧ ∃ before after,
        [("write", write), ("read", read), ("alu", alu), ("jump", jump)] =
          before ++ (field, code) :: after ∧ ∀ entry ∈ before, entry.2.toNat ≤ 15 := by
  have hwide : ∀ code : UInt8, decide (0xF < code) = true ↔ 15 < code.toNat := fun code =>
    decide_eq_true_iff.trans UInt8.lt_iff_toNat_lt
  have hfits : ∀ code : UInt8, (!decide (0xF < code)) = true ↔ code.toNat ≤ 15 := fun code => by
    rw [Bool.not_eq_true', ← Bool.not_eq_true, hwide, Nat.not_lt]
  unfold ofCodes
  generalize [("write", write), ("read", read), ("alu", alu), ("jump", jump)] = codes
  have hfirst : ∀ field code, codes.find? (fun entry => decide (0xF < entry.2)) =
      some (field, code) ↔ 15 < code.toNat ∧ ∃ before after,
        codes = before ++ (field, code) :: after ∧ ∀ entry ∈ before, entry.2.toNat ≤ 15 := by
    intro field code
    simp only [List.find?_eq_some_iff_append, hwide, hfits]
  simp only [← hfirst]
  cases codes.find? (fun entry => decide (0xF < entry.2)) with
  | none => simp only [reduceCtorEq, and_false, exists_false]
  | some entry =>
      simp only [Except.error.injEq, Option.some.injEq]
      constructor
      · rintro rfl
        exact ⟨entry.1, entry.2, rfl, rfl⟩
      · rintro ⟨field, code, rfl, rfl⟩
        rfl

/-- The bits that are no word are those that are too wide. -/
theorem ofBits_eq_error_iff (packed : UInt32) (e : WordError) :
    ofBits packed = .error e ↔ 2 ^ 24 ≤ packed.toNat ∧ e = .tooWide packed := by
  have hwide : 0xFFFFFF < packed ↔ 2 ^ 24 ≤ packed.toNat := UInt32.lt_iff_toNat_lt
  unfold ofBits
  by_cases h : 0xFFFFFF < packed
  · rw [if_pos h, Except.error.injEq]
    exact ⟨fun he => ⟨hwide.mp h, he.symm⟩, fun he => he.2.symm⟩
  · -- Four bits are never too much for a code.
    have hcode : ∀ shift : UInt32, shift.toNat < 32 →
        ((packed >>> shift) &&& 0xF).toUInt8 ≤ 0xF := by
      intro shift hshift
      rw [UInt8.le_iff_toNat_le, toNat_nibble packed shift hshift]
      exact Nat.le_of_lt_succ (Nat.mod_lt _ (by decide))
    obtain ⟨w, hok⟩ : ∃ w, ofCodes ((packed >>> 20) &&& 0xF).toUInt8
        ((packed >>> 16) &&& 0xF).toUInt8 ((packed >>> 12) &&& 0xF).toUInt8
        ((packed >>> 8) &&& 0xF).toUInt8 (packed &&& 0xFF).toUInt8 = .ok w :=
      ⟨_, (ofCodes_eq_ok_iff _ _ _ _ _ _).mpr ⟨rfl, hcode 20 (by decide), hcode 16 (by decide),
        hcode 12 (by decide), hcode 8 (by decide)⟩⟩
    rw [if_neg h, ← hwide]
    simp only [hok, reduceCtorEq, h, false_and]

end MicroWord

open MicroWord

namespace Assembly

/-- The columns of a word, as a line of a listing, place the word. -/
theorem line_text (a : Assembly) (n : Nat) (w : MicroWord) (h : w.Narrow) (hnext : a.next < 256) :
    a.line (w.text.toList, n) = .ok (a.placed n (pairByte w.write w.read)
      (pairByte w.alu w.jump) (.fixed w.jumpAddress)) := by
  have hopen : ';' ∉ w.text.toList := by
    intro hmem
    have hkept : ';' ∈ w.text.toList.filter (· != ' ') := List.mem_filter.mpr ⟨hmem, by decide⟩
    rw [w.filter_text h] at hkept
    exact absurd ((w.writesHex_digits h).upper ';' hkept) (by decide)
  have htokens := Listing.words_text w h []
  rw [Text.words_append _ ' ' [] rfl] at htokens
  have hsplit := Listing.splitLabel_of_body (pairText w.write w.read)
    [pairText w.alu w.jump, (Text.hexByte w.jumpAddress).toList] (fun hcolon =>
      absurd (isHexDigit_pairText _ _ h.write h.read ':' hcolon) (by decide))
  have hline : Listing.splitLabel (Listing.tokens w.text.toList) = (none,
      [pairText w.write w.read, pairText w.alu w.jump, (Text.hexByte w.jumpAddress).toList]) := by
    rw [Listing.tokens_of_uncommented _ hopen, ← hsplit]
    exact congrArg _ ((List.append_nil _).symm.trans (htokens.trans (List.append_nil _)))
  rw [line_eq_ok_iff]
  refine ⟨a, .word _ _ _, ?_, ?_, (a.emit_eq_ok_iff _ n _ _ _).mpr ⟨hnext, rfl⟩⟩
  · rw [hline, labelledBy]
  · rw [hline, Body.ofTokens_columns w h]

end Assembly

/-- A listing of one line, the columns of a word, is assembled to the word. -/
theorem assemble_text (w : MicroWord) (h : w.Narrow) :
    assemble w.text = .ok [w.bare.placedAt 0] := by
  have hlines : Listing.numberedLines w.text = [(w.text.toList, 1)] := by
    rw [Listing.numberedLines, Text.lines_of_free _ (oneLine_text w)]
    rfl
  have hword := Assembly.wordAt_columns {} 1 0 (w.bare.placedAt 0)
    ⟨h.write, h.read, h.alu, h.jump⟩ rfl rfl rfl
  rw [assemble_eq_ok_iff, hlines]
  refine ⟨Assembly.placed {} 1 (pairByte w.write w.read) (pairByte w.alu w.jump)
    (.fixed w.jumpAddress), _, ?_, Assembly.finish_of_closed _ rfl rfl, ?_⟩
  · rw [List.foldlM_cons, Assembly.line_text {} 1 w h (by decide)]
    rfl
  · exact congrArg (fun v => [v]) hword

/-- The forms of a word agree. Bits are unpacked into a word unless they are wider than twenty-four,
    and packed into the same bits again. Codes form a word unless one of them does not fit, and the
    first such one is reported. A word that they form is found again in its bits, its columns
    without their blanks are the six digits of its bits, and as a line of a listing they are
    assembled to a word with the same bits. -/
theorem encodings_agree :
    (∀ packed : UInt32,
      (∀ e, ofBits packed = .error e ↔ 2 ^ 24 ≤ packed.toNat ∧ e = .tooWide packed) ∧
      (packed.toNat < 2 ^ 24 → ∃ w, ofBits packed = .ok w ∧ w.bits = packed)) ∧
    (∀ write read alu jump jumpAddress e,
      ofCodes write read alu jump jumpAddress = .error e ↔
        ∃ field code, e = .fieldOverflow field code ∧ 15 < code.toNat ∧ ∃ before after,
          [("write", write), ("read", read), ("alu", alu), ("jump", jump)] =
            before ++ (field, code) :: after ∧ ∀ entry ∈ before, entry.2.toNat ≤ 15) ∧
    ∀ write read alu jump jumpAddress w,
      ofCodes write read alu jump jumpAddress = .ok w →
        w = { write, read, alu, jump, jumpAddress } ∧ ofBits w.bits = .ok w ∧
          Text.WritesHex 6 (w.text.toList.filter (· != ' ')) w.bits.toNat ∧
          ∃ v, assemble w.text = .ok [v] ∧ v.bits = w.bits := by
  refine ⟨fun packed => ⟨ofBits_eq_error_iff packed, fun h => ?_⟩, ofCodes_eq_error_iff, ?_⟩
  · cases hword : ofBits packed with
    | error e => exact absurd h (Nat.not_lt_of_le ((ofBits_eq_error_iff packed e).mp hword).1)
    | ok w => exact ⟨w, rfl, ((ofBits_eq_ok_iff packed w).mp hword).2.2⟩
  · intro write read alu jump jumpAddress w h
    obtain ⟨rfl, hnarrow⟩ := (ofCodes_eq_ok_iff _ _ _ _ _ _).mp h
    refine ⟨rfl, (ofBits_bits_iff _).mpr hnarrow, ?_, _, assemble_text _ hnarrow, rfl⟩
    rw [filter_text _ hnarrow]
    exact writesHex_digits _ hnarrow

/-- A word with different codes, whose bits begin with a digit that is a letter. -/
theorem encodings_agree_call :
    let w : MicroWord := { write := 0xD, read := 9, alu := 8, jump := 2, jumpAddress := 0x40 }
    MicroWord.ofCodes 0xD 9 8 2 0x40 = .ok w ∧ w.bits = 0xD98240 ∧
      MicroWord.ofBits 0xD98240 = .ok w ∧ Text.WritesHex 6 "D98240".toList 0xD98240 ∧
      ∃ v, assemble "D9 82 40" = .ok [v] ∧ v.bits = 0xD98240 := by
  intro w
  have hcodes : MicroWord.ofCodes 0xD 9 8 2 0x40 = .ok w := rfl
  have hbits : w.bits = 0xD98240 := by decide
  have htext : w.text = "D9 82 40" := by decide
  have hdigits : "D9 82 40".toList.filter (· != ' ') = "D98240".toList := by decide
  obtain ⟨_, hunpacked, hwritten, hassembled⟩ := encodings_agree.2.2 _ _ _ _ _ w hcodes
  rw [hbits, htext, hdigits] at hwritten
  rw [hbits, htext] at hassembled
  rw [hbits] at hunpacked
  exact ⟨hcodes, hbits, hunpacked, hwritten, hassembled⟩

end Microcode
