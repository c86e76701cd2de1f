import Microcode.Proofs.Lookups
import Microcode.Text.Blank
import Microcode.Text.Capital
/-!
# Capitals Are Settled

Writing a text in capitals twice is writing it in capitals once.

For a letter from a table of a few hundred runs this is a statement about the table: no capital
is listed as a letter. Comparing every capital with every run would be a long computation, so
the code points of both sides are collected into a set each, kept as the bits of a number, and
the two sets are found to be disjoint by a single conjunction. The blanks and the semicolon join
the letters on their side, because a listing also needs that no capital is one of them.

## Main definitions

* `bitSet`: A list of numbers as the bits of one.
* `CapitalRun.points`: As many code points as a run has letters, from a given one on.
* `letters`, `capitals`: The two sides of the table.
* `unsettled`: The code points that no capital may have.

## Theorems

* `testBit_bitSet`: The bits of a set are its members.
* `capitals_settled`: No capital is a letter, a blank or a semicolon.
* `capital_cases`: The three ways in which a character finds its capital.
* `capital_ne_nil`: No character vanishes.
* `capital_settled`: A capital is its own capital, and no blank or semicolon came about.
* `upper_of_settled`, `upper_upper`: Capitals stay capitals.
* `isBlank_upper`, `semicolon_upper`: Capitals bring in no blank and no semicolon.
-/

namespace Microcode

namespace Text

/-- A list of numbers as the bits of one. -/
def bitSet (ns : List Nat) : Nat :=
  ns.foldr (fun n s => 1 <<< n ||| s) 0

/-- As many code points as a run has letters, at its distances, from a given one on. -/
def CapitalRun.points (run : CapitalRun) (start : Nat) : List Nat :=
  (List.range run.count).map (fun i => start + i * run.stride)

/-- The letters beyond ASCII that have a capital form of their own. -/
def letters : List Nat :=
  capitalRuns.flatMap (fun run => run.points run.first) ++ capitalSpellings.map Prod.fst

/-- The characters of their capital forms. -/
def capitals : List Nat :=
  capitalRuns.flatMap (fun run => run.points run.capital) ++ capitalSpellings.flatMap Prod.snd

/-- The code points that no capital may have: the blanks, the semicolon and the letters. -/
def unsettled : List Nat :=
  List.range' 0x09 5 ++ [0x20, 0x85, 0xA0, 0x1680] ++ List.range' 0x2000 11 ++
    [0x2028, 0x2029, 0x202F, 0x205F, 0x3000] ++ [0x3B] ++ List.range' 0x61 26 ++ letters

theorem testBit_bitSet (ns : List Nat) (n : Nat) : (bitSet ns).testBit n = true ↔ n ∈ ns := by
  induction ns with
  | nil => simp only [bitSet, List.foldr_nil, Nat.zero_testBit, Bool.false_eq_true,
      List.not_mem_nil]
  | cons m ns ih =>
      rw [bitSet, List.foldr_cons, Nat.testBit_or, Nat.one_shiftLeft, Nat.testBit_two_pow,
        Bool.or_eq_true, decide_eq_true_eq, List.mem_cons]
      rw [bitSet] at ih
      rw [ih]
      exact or_congr_left eq_comm

theorem disjoint_capitals : bitSet unsettled &&& bitSet capitals = 0 := by
  decide +kernel

theorem valid_capitals :
    capitals.all (fun n => Nat.blt n 0xD800 || (Nat.blt 0xDFFF n && Nat.blt n 0x110000)) =
      true := by
  decide +kernel

/-- No capital is a letter, a blank or a semicolon. -/
theorem capitals_settled (n : Nat) (hn : n ∈ capitals) : n ∉ unsettled := by
  intro hu
  -- A common member would be a common bit.
  have hbit : (bitSet unsettled &&& bitSet capitals).testBit n = true := by
    rw [Nat.testBit_and, (testBit_bitSet _ _).mpr hu, (testBit_bitSet _ _).mpr hn]
    rfl
  rw [disjoint_capitals, Nat.zero_testBit] at hbit
  cases hbit

-- Every capital is the code point of a character.
theorem toNat_ofNat_capital (n : Nat) (hn : n ∈ capitals) : (Char.ofNat n).toNat = n := by
  have hv := List.all_eq_true.mp valid_capitals n hn
  simp only [Bool.or_eq_true, Bool.and_eq_true, Nat.blt_eq] at hv
  have hvalid : n.isValidChar := by
    rcases hv with h | ⟨h, h'⟩
    · exact Or.inl h
    · exact Or.inr ⟨h, h'⟩
  rw [Char.ofNat, dif_pos hvalid]
  rfl

theorem isBlank_mem_unsettled (c : Char) (h : isBlank c = true) : c.toNat ∈ unsettled := by
  simp only [isBlank, Bool.or_eq_true, Bool.and_eq_true, decide_eq_true_eq, beq_iff_eq] at h
  simp only [unsettled, List.mem_append, List.mem_range'_1, List.mem_cons, List.not_mem_nil,
    or_false]
  omega

-- A letter of a run has its capital in the run.
theorem mem_of_capital? (run : CapitalRun) (n m : Nat) (hrun : run ∈ capitalRuns)
    (h : run.capital? n = some m) : n ∈ letters ∧ m ∈ capitals := by
  unfold CapitalRun.capital? CapitalRun.position? at h
  split at h
  · rename_i hpos
    rcases hpos with ⟨hle, hmod, hlt⟩
    simp only [Option.map_some, Option.some.injEq] at h
    have hi : (n - run.first) / run.stride ∈ List.range run.count := List.mem_range.mpr hlt
    have hn : run.first + (n - run.first) / run.stride * run.stride = n := by
      rw [Nat.div_mul_cancel (Nat.dvd_of_mod_eq_zero hmod)]
      omega
    refine ⟨List.mem_append_left _ (List.mem_flatMap.mpr ⟨run, hrun, ?_⟩),
      List.mem_append_left _ (List.mem_flatMap.mpr ⟨run, hrun, ?_⟩)⟩
    · exact List.mem_map.mpr ⟨_, hi, hn⟩
    · exact List.mem_map.mpr ⟨_, hi, h⟩
  · cases h

-- A letter of the other list has its capitals beside it.
theorem mem_of_lookup (n : Nat) (ms : List Nat) (h : capitalSpellings.lookup n = some ms) :
    n ∈ letters ∧ ∀ m, m ∈ ms → m ∈ capitals := by
  have hmem := mem_of_lookup_eq_some capitalSpellings n ms h
  refine ⟨List.mem_append_right _ (List.mem_map.mpr ⟨(n, ms), hmem, rfl⟩), fun m hm => ?_⟩
  exact List.mem_append_right _ (List.mem_flatMap.mpr ⟨(n, ms), hmem, hm⟩)

/-- The three ways in which a character finds its capital: by ASCII, by the table, or by being
    none of its letters. -/
theorem capital_cases (c : Char) :
    (c.toNat < 128 ∧ capital c = [c.toUpper]) ∨
    (128 ≤ c.toNat ∧ c.toNat ∈ letters ∧
      ∃ ns : List Nat, (∀ n, n ∈ ns → n ∈ capitals) ∧ capital c = ns.map Char.ofNat) ∨
    (128 ≤ c.toNat ∧ capital c = [c]) := by
  unfold capital
  by_cases hascii : c.toNat < 128
  · exact Or.inl ⟨hascii, if_pos hascii⟩
  · rw [if_neg hascii]
    have hge : 128 ≤ c.toNat := Nat.le_of_not_lt hascii
    cases hrun : capitalRuns.findSome? (fun run => run.capital? c.toNat) with
    | some m =>
        rcases List.exists_of_findSome?_eq_some hrun with ⟨run, hmem, hcap⟩
        rcases mem_of_capital? run _ _ hmem hcap with ⟨hl, hm⟩
        refine Or.inr (Or.inl ⟨hge, hl, [m], fun n hn => ?_, rfl⟩)
        rw [List.mem_singleton.mp hn]
        exact hm
    | none =>
        cases hlook : capitalSpellings.lookup c.toNat with
        | some ns =>
            rcases mem_of_lookup _ _ hlook with ⟨hl, hns⟩
            exact Or.inr (Or.inl ⟨hge, hl, ns, hns, rfl⟩)
        | none => exact Or.inr (Or.inr ⟨hge, rfl⟩)

/-- A character does not vanish when it is written in capitals. -/
theorem capital_ne_nil (c : Char) : capital c ≠ [] := by
  have hspelled : ∀ entry, entry ∈ capitalSpellings → entry.2 ≠ [] := by decide
  unfold capital
  split
  · exact List.cons_ne_nil _ _
  · split
    · exact List.cons_ne_nil _ _
    · split
      · rename_i ns hlook
        have hmem := mem_of_lookup_eq_some capitalSpellings _ _ hlook
        exact fun hnil => hspelled _ hmem (List.map_eq_nil_iff.mp hnil)
      · exact List.cons_ne_nil _ _

/-- A capital of the table is its own capital. -/
theorem capital_of_mem_capitals (c : Char) (h : c.toNat ∈ capitals) : capital c = [c] := by
  have hsettled := capitals_settled c.toNat h
  rcases capital_cases c with ⟨hascii, hcap⟩ | ⟨_, hletter, _⟩ | ⟨_, hcap⟩
  · -- In ASCII only the letters a to z change, and a capital is none of them.
    have hupper : ∀ n, n < 128 → n ∉ List.range' 0x61 26 →
        (Char.ofNat n).toUpper = Char.ofNat n := by decide
    have hlower : c.toNat ∉ List.range' 0x61 26 := by
      intro hmem
      exact hsettled (List.mem_append_left _ (List.mem_append_right _ hmem))
    have hc := hupper c.toNat hascii hlower
    rw [Char.ofNat_toNat] at hc
    rw [hcap, hc]
  · exact absurd (List.mem_append_right _ hletter) hsettled
  · exact hcap

/-- A capital is its own capital, and it is a blank or a semicolon only if it was one before. -/
theorem capital_settled (c d : Char) (h : d ∈ capital c) :
    capital d = [d] ∧ (isBlank d = true → isBlank c = true) ∧ (d = ';' → c = ';') := by
  rcases capital_cases c with ⟨hascii, hcap⟩ | ⟨_, _, ns, hns, hcap⟩ | ⟨_, hcap⟩
  · -- Among the first 128 characters everything is found by trying them all.
    have htwice : ∀ n, n < 128 → capital (Char.ofNat n).toUpper = [(Char.ofNat n).toUpper] := by
      decide
    have hblank : ∀ n, n < 128 → isBlank (Char.ofNat n).toUpper = isBlank (Char.ofNat n) := by
      decide
    have hsemicolon : ∀ n, n < 128 → (Char.ofNat n).toUpper = ';' → Char.ofNat n = ';' := by
      decide
    have hc := Char.ofNat_toNat c
    rw [hcap, List.mem_singleton] at h
    refine ⟨?_, fun hb => ?_, fun hs => ?_⟩
    · rw [h, ← hc]
      exact htwice c.toNat hascii
    · rw [h, ← hc, hblank c.toNat hascii, hc] at hb
      exact hb
    · rw [h, ← hc] at hs
      rw [← hc]
      exact hsemicolon c.toNat hascii hs
  · -- A capital of the table is settled whatever letter it belongs to.
    rw [hcap, List.mem_map] at h
    rcases h with ⟨n, hn, rfl⟩
    have hmem : (Char.ofNat n).toNat ∈ capitals := by
      rw [toNat_ofNat_capital n (hns n hn)]
      exact hns n hn
    have hsettled := capitals_settled _ hmem
    refine ⟨capital_of_mem_capitals _ hmem, fun hb => ?_, fun hs => ?_⟩
    · exact absurd (isBlank_mem_unsettled _ hb) hsettled
    · rw [hs] at hsettled
      exact absurd (by decide) hsettled
  · rw [hcap, List.mem_singleton] at h
    rw [h]
    exact ⟨hcap, id, id⟩

/-- A text whose characters are their own capitals is in capitals. -/
theorem upper_of_settled (cs : List Char) (h : ∀ c, c ∈ cs → capital c = [c]) :
    upper cs = cs := by
  induction cs with
  | nil => rfl
  | cons c cs ih =>
      rw [upper] at ih
      rw [upper, List.flatMap_cons, h c (List.mem_cons_self ..),
        ih (fun d hd => h d (List.mem_cons_of_mem c hd))]
      rfl

/-- Capitals stay capitals. -/
theorem upper_upper (cs : List Char) : upper (upper cs) = upper cs := by
  refine upper_of_settled (upper cs) (fun d hd => ?_)
  rcases List.mem_flatMap.mp hd with ⟨c, _, hdc⟩
  exact (capital_settled c d hdc).1

/-- Capitals bring in no blank. -/
theorem isBlank_upper (cs : List Char) (h : ∀ c, c ∈ cs → isBlank c = false) (d : Char)
    (hd : d ∈ upper cs) : isBlank d = false := by
  rcases List.mem_flatMap.mp hd with ⟨c, hc, hdc⟩
  rw [← Bool.not_eq_true]
  intro hb
  have hcb := (capital_settled c d hdc).2.1 hb
  rw [h c hc] at hcb
  exact Bool.false_ne_true hcb

/-- Capitals bring in no semicolon. -/
theorem semicolon_upper (cs : List Char) (h : ';' ∉ cs) : ';' ∉ upper cs := by
  intro hd
  rcases List.mem_flatMap.mp hd with ⟨c, hc, hdc⟩
  rw [(capital_settled c ';' hdc).2.2 rfl] at hc
  exact h hc

end Text

end Microcode
