import Mathlib.Data.List.Induction
import Microcode.Proofs.Text.Digits
/-!
# Hexadecimal Numerals

Which texts are read as a byte.

The reader of bytes folds over its digits. `Spells` is positional notation without a reader: a
digit spells its value, and one more digit makes sixteen times as much and its own value. There
is no bound on the number of digits, so leading zeros are numerals too. A byte may have a plus
sign in front, and a byte it is by its value alone.

## Main definitions

* `Spells`: A run of digits spells a number.
* `SpellsByte`: A text spells a byte.

## Theorems

* `isHexDigit_of_spells`, `exists_spells`: Numerals are runs of digits, and every run is one.
* `spells_lt`: Two digits are never too much for a byte.
* `readHex?_eq_some_iff`: The reader of digits reads what they spell.
* `readHexByte?_eq_some_iff`, `readHexByte?_eq_none_iff`: The reader of bytes reads what is spelled.
-/

namespace Microcode

namespace Text

/-- A run of hexadecimal digits spells a number. -/
inductive Spells : List Char → Nat → Prop where
  | digit (c : Char) (v : Nat) (hc : hexValue? c = some v) : Spells [c] v
  | next (cs : List Char) (n : Nat) (c : Char) (v : Nat) (hcs : Spells cs n)
      (hc : hexValue? c = some v) : Spells (cs ++ [c]) (16 * n + v)

/-- A text spells a byte: by digits, with or without a plus sign in front of them. -/
inductive SpellsByte : List Char → UInt8 → Prop where
  | digits (cs : List Char) (b : UInt8) (h : Spells cs b.toNat) : SpellsByte cs b
  | signed (cs : List Char) (b : UInt8) (h : Spells cs b.toNat) : SpellsByte ('+' :: cs) b

theorem isHexDigit_of_value (c : Char) (v : Nat) (h : hexValue? c = some v) :
    isHexDigit c = true := by
  rw [isHexDigit, h]
  rfl

theorem hexValue?_lt (c : Char) (v : Nat) (h : hexValue? c = some v) : v < 16 := by
  unfold hexValue? at h
  simp only [] at h
  split at h
  · cases h
    omega
  · split at h
    · cases h
      omega
    · split at h
      · cases h
        omega
      · cases h

/-- A numeral has nothing but digits. -/
theorem isHexDigit_of_spells (cs : List Char) (n : Nat) (h : Spells cs n) (c : Char)
    (hc : c ∈ cs) : isHexDigit c = true := by
  induction h with
  | digit d v hd =>
      rw [List.mem_singleton.mp hc]
      exact isHexDigit_of_value d v hd
  | next cs n d v _ hd ih =>
      rcases List.mem_append.mp hc with hc | hc
      · exact ih hc
      · rw [List.mem_singleton.mp hc]
        exact isHexDigit_of_value d v hd

theorem ne_nil_of_spells (cs : List Char) (n : Nat) (h : Spells cs n) : cs ≠ [] := by
  cases h with
  | digit => exact List.cons_ne_nil _ _
  | next => exact List.append_ne_nil_of_right_ne_nil _ (List.cons_ne_nil _ _)

/-- Every run of digits is a numeral. -/
theorem exists_spells (cs : List Char) (hne : cs ≠ [])
    (h : ∀ c, c ∈ cs → isHexDigit c = true) : ∃ n, Spells cs n := by
  induction cs using List.reverseRecOn with
  | nil => exact absurd rfl hne
  | append_singleton cs c ih =>
      have hc := h c (List.mem_append_right cs (List.mem_singleton_self c))
      rcases Option.isSome_iff_exists.mp hc with ⟨v, hv⟩
      by_cases hcs : cs = []
      · rw [hcs]
        exact ⟨v, .digit c v hv⟩
      · rcases ih hcs (fun d hd => h d (List.mem_append_left [c] hd)) with ⟨n, hn⟩
        exact ⟨16 * n + v, .next cs n c v hn hv⟩

/-- Two digits are never too much for a byte. -/
theorem spells_lt (cs : List Char) (n : Nat) (h : Spells cs n) (hlength : cs.length ≤ 2) :
    n < 256 := by
  cases h with
  | digit c _ hc => exact Nat.lt_trans (hexValue?_lt c n hc) (by decide)
  | next cs m c v hcs hc =>
      have hv := hexValue?_lt c v hc
      rw [List.length_append, List.length_singleton] at hlength
      cases hcs with
      | digit d _ hd =>
          have hu := hexValue?_lt d m hd
          omega
      | next cs k d u hcs _ =>
          have hpos := List.length_pos_iff.mpr (ne_nil_of_spells cs k hcs)
          rw [List.length_append, List.length_singleton] at hlength
          omega

theorem readHex?_singleton (c : Char) : readHex? [c] = hexValue? c := by
  change (hexValue? c).map (16 * 0 + ·) >>= pure = hexValue? c
  cases hexValue? c with
  | none => rfl
  | some v => exact congrArg some (Nat.zero_add v)

theorem readHex?_concat (cs : List Char) (c : Char) (hne : cs ≠ []) :
    readHex? (cs ++ [c]) = (readHex? cs).bind (fun n => (hexValue? c).map (16 * n + ·)) := by
  have hcs : cs.isEmpty = false := by rwa [List.isEmpty_eq_false_iff]
  have hlong : (cs ++ [c]).isEmpty = false := by
    rw [List.isEmpty_eq_false_iff]
    exact List.append_ne_nil_of_left_ne_nil hne _
  rw [readHex?, readHex?, hcs, hlong, if_neg Bool.false_ne_true, if_neg Bool.false_ne_true,
    List.foldlM_append]
  congr 1
  funext n
  rw [List.foldlM_cons]
  cases (hexValue? c).map (16 * n + ·) <;> rfl

/-- The reader of digits reads what they spell. -/
theorem readHex?_eq_some_iff (cs : List Char) (n : Nat) : readHex? cs = some n ↔ Spells cs n := by
  constructor
  · intro h
    induction cs using List.reverseRecOn generalizing n with
    | nil => cases h
    | append_singleton cs c ih =>
        by_cases hcs : cs = []
        · rw [hcs, List.nil_append, readHex?_singleton] at h
          rw [hcs]
          exact .digit c n h
        · rw [readHex?_concat cs c hcs] at h
          rcases Option.bind_eq_some_iff.mp h with ⟨m, hm, hmap⟩
          rcases Option.map_eq_some_iff.mp hmap with ⟨v, hv, rfl⟩
          exact .next cs m c v (ih m hm) hv
  · intro h
    induction h with
    | digit c v hc => rw [readHex?_singleton, hc]
    | next cs n c v hcs hc ih =>
        rw [readHex?_concat cs c (ne_nil_of_spells cs n hcs), ih, hc]
        rfl

/-- The digits of a byte are what is left without a plus sign. -/
theorem readHexByte?_eq_some_of_digits (cs : List Char) (b : UInt8) :
    (match readHex? cs with
      | some n => if n < 256 then some (UInt8.ofNat n) else none
      | none => none) = some b ↔ Spells cs b.toNat := by
  rw [← readHex?_eq_some_iff]
  cases readHex? cs with
  | none => simp only [reduceCtorEq]
  | some n =>
      simp only [Option.some.injEq]
      constructor
      · intro h
        split at h
        · rename_i hn
          cases h
          exact (UInt8.toNat_ofNat_of_lt' hn).symm
        · cases h
      · rintro rfl
        rw [if_pos b.toNat_lt, UInt8.ofNat_toNat]

/-- The reader of bytes reads what is spelled. -/
theorem readHexByte?_eq_some_iff (token : List Char) (b : UInt8) :
    readHexByte? token = some b ↔ SpellsByte token b := by
  have hplus : isHexDigit '+' = false := by decide
  by_cases hsigned : ∃ rest, token = '+' :: rest
  · -- A plus sign is no digit, so what it stands in front of is no numeral.
    rcases hsigned with ⟨rest, rfl⟩
    refine (readHexByte?_eq_some_of_digits rest b).trans ⟨.signed rest b, fun h => ?_⟩
    cases h with
    | digits _ _ hd =>
        have hsign := isHexDigit_of_spells _ _ hd '+' (List.mem_cons_self ..)
        rw [hplus] at hsign
        cases hsign
    | signed _ _ hd => exact hd
  · have hunsigned : ∀ rest, token = '+' :: rest → False := fun rest h => hsigned ⟨rest, h⟩
    rw [readHexByte?.eq_2 token hunsigned]
    refine (readHexByte?_eq_some_of_digits token b).trans ⟨.digits token b, fun h => ?_⟩
    cases h with
    | digits _ _ hd => exact hd
    | signed cs _ _ => exact absurd ⟨cs, rfl⟩ hsigned

theorem readHexByte?_eq_none_iff (token : List Char) :
    readHexByte? token = none ↔ ∀ b, ¬ SpellsByte token b := by
  simp only [← readHexByte?_eq_some_iff, Option.eq_none_iff_forall_ne_some, ne_eq]

end Text

end Microcode
