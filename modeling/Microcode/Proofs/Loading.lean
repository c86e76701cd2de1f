import Mathlib.Data.List.TakeWhile
import Mathlib.Data.Nat.Find
import Microcode.Proofs.Listing.Printable
import Microcode.Proofs.Placement
/-!
# What a Load Leaves

Where the words of a program stand after a load, and when there is no room for one of them.

An address that is assigned is always one of the store, so only a word without an address can fail
to find a place, and it does so if it follows a word at the last address. Behind such a word the
places of a program have no meaning, since nothing is placed there. `fittingPlaces` cuts them off,
and with them `read_place_fitting` speaks of all loads, whether or not they succeed: what stands at
an address is the last of the words that found this place, and what was there before if none did.
What remains is to say which words these are. `fits_or_overruns` is the case distinction, and it
is made once.

The assembler gives every word an address. What it yields can be loaded anywhere.

## Main definitions

* `ControlStore.fittingPlaces`: The places of the words that find one.
* `ControlStore.Overruns`: A word has no place left to follow to.
* `ControlStore.LoadedOver`: A store holds some words, and what another store holds around them.

## Theorems

* `read_place_fitting`: What stands at an address after a load, successful or not.
* `lastAt_of_mem`, `lastAt_of_not_mem`: The last word at a place, by its position in the list.
* `overruns_of_first`, `fits_or_overruns`: The first word without a place, if there is one.
* `fittingPlaces_of_first`: The words in front of it are those that are placed.
* `load_outcome`: What a load reports and what it leaves.
* `load_outcome_midway`: A load that fails after words have replaced each other.
-/

namespace Microcode

namespace ControlStore

/-- The places of the words in front of the first one that finds none. -/
def fittingPlaces (next : Nat) (words : List MicroWord) : List Nat :=
  (loadPlaces next words).takeWhile (· < 256)

/-- A word without an address follows a word at the last address. -/
def Overruns (program : List MicroWord) (k : Nat) : Prop :=
  ∃ i word, k = i + 1 ∧ program[k]? = some word ∧ word.address = none ∧
    (loadPlaces 0 program)[i]? = some 255

/-- A store holds some words at their places, the last one at each, and everywhere else what
    another store holds. -/
structure LoadedOver (s : ControlStore) (words : List MicroWord) (s' : ControlStore) : Prop where
  last : ∀ address : UInt8, address.toNat ∈ loadPlaces 0 words →
    ∃ (i : Nat) (word : MicroWord), words[i]? = some word ∧
      (loadPlaces 0 words)[i]? = some address.toNat ∧
      (∀ j, i < j → (loadPlaces 0 words)[j]? ≠ some address.toNat) ∧ s'.read address = some word
  rest : ∀ address : UInt8, address.toNat ∉ loadPlaces 0 words → s'.read address = s.read address

theorem length_loadPlaces (next : Nat) (words : List MicroWord) :
    (loadPlaces next words).length = words.length := by
  induction words generalizing next with
  | nil => rfl
  | cons word rest ih => rw [loadPlaces, List.length_cons, List.length_cons, ih]

theorem loadPlaces_take (next : Nat) (words : List MicroWord) (k : Nat) :
    loadPlaces next (words.take k) = (loadPlaces next words).take k := by
  induction words generalizing next k with
  | nil => rw [List.take_nil, loadPlaces, List.take_nil]
  | cons word rest ih =>
      cases k with
      | zero => rfl
      | succ k => rw [List.take_succ_cons, loadPlaces, loadPlaces, List.take_succ_cons, ih]

/-- Behind the first word, a word has its address or follows the word before. -/
theorem loadPlaces_succ (next : Nat) (words : List MicroWord) (i n : Nat) (word : MicroWord)
    (hword : words[i + 1]? = some word) (hplace : (loadPlaces next words)[i]? = some n) :
    (loadPlaces next words)[i + 1]? = some (placeOf word (n + 1)) := by
  induction words generalizing next i with
  | nil => cases hword
  | cons first rest ih =>
      rw [List.getElem?_cons_succ] at hword
      rw [loadPlaces] at hplace ⊢
      rw [List.getElem?_cons_succ]
      cases i with
      | zero =>
          cases rest with
          | nil => cases hword
          | cons second rest =>
              cases hword
              cases hplace
              rfl
      | succ i => exact ih _ i hword hplace

theorem fittingPlaces_cons (next : Nat) (word : MicroWord) (rest : List MicroWord) :
    fittingPlaces next (word :: rest) =
      if placeOf word next < 256 then
        placeOf word next :: fittingPlaces (placeOf word next + 1) rest
      else [] := by
  rw [fittingPlaces, loadPlaces, List.takeWhile_cons]
  simp only [decide_eq_true_eq, fittingPlaces]

theorem lt_of_mem_fittingPlaces (next : Nat) (words : List MicroWord) (n : Nat)
    (h : n ∈ fittingPlaces next words) : n < 256 := by
  have hn := List.mem_takeWhile_imp h
  exact of_decide_eq_true hn

/-- Words are read where they were placed, and all words are placed in front of the first one that
    finds no place. -/
theorem read_place_fitting (s : ControlStore) (next : Nat) (words : List MicroWord)
    (address : UInt8) :
    (s.place next words).1.read address =
      (lastAt (fittingPlaces next words) words address.toNat).or (s.read address) := by
  induction words generalizing s next with
  | nil => rfl
  | cons word rest ih =>
      rw [fittingPlaces_cons]
      by_cases hn : placeOf word next < 256
      · rw [s.place_cons_of_lt next word rest hn, ih, if_pos hn, lastAt_cons, Option.or_assoc]
        congr 1
        -- The word itself is read at its place, and elsewhere what was there before.
        simp only [read, Vector.getElem_set]
        split
        · rfl
        · rfl
      · rw [s.place_cons_of_not_lt next word rest hn, if_neg hn]
        rfl

theorem lastAt_of_not_mem (ns : List Nat) (words : List MicroWord) (n : Nat) (h : n ∉ ns) :
    lastAt ns words n = none := by
  have hnone : (ns.zip words).filter (fun entry => decide (entry.1 = n)) = [] := by
    refine List.filter_eq_nil_iff.mpr (fun entry hentry hc => h ?_)
    rw [← of_decide_eq_true hc]
    exact (List.of_mem_zip hentry).1
  rw [lastAt, hnone]
  rfl

/-- Where a place is taken, the word that is last there has it, and none behind it does. -/
theorem lastAt_of_mem (ns : List Nat) (words : List MicroWord) (n : Nat)
    (hlength : ns.length ≤ words.length) (h : n ∈ ns) :
    ∃ (i : Nat) (word : MicroWord), words[i]? = some word ∧ ns[i]? = some n ∧
      (∀ j, i < j → ns[j]? ≠ some n) ∧ lastAt ns words n = some word := by
  induction words generalizing ns with
  | nil =>
      rw [List.eq_nil_of_length_eq_zero (Nat.le_zero.mp hlength)] at h
      cases h
  | cons first rest ih =>
      cases ns with
      | nil => cases h
      | cons m ns =>
          rw [lastAt_cons]
          -- The first word counts only if no other one takes the place later.
          by_cases hmem : n ∈ ns
          · rcases ih ns (Nat.le_of_succ_le_succ hlength) hmem with
              ⟨i, word, hword, hplace, hlast, heq⟩
            refine ⟨i + 1, word, hword, hplace, fun j hj => ?_, by rw [heq]; rfl⟩
            cases j with
            | zero => exact absurd hj (Nat.not_lt_zero _)
            | succ j => exact hlast j (Nat.lt_of_succ_lt_succ hj)
          · have hm : m = n := ((List.mem_cons.mp h).resolve_right hmem).symm
            refine ⟨0, first, rfl, congrArg some hm, fun j hj => ?_, ?_⟩
            · cases j with
              | zero => exact absurd hj (Nat.lt_irrefl 0)
              | succ j => exact fun hc => hmem (List.mem_of_getElem? hc)
            · rw [lastAt_of_not_mem ns rest n hmem, if_pos hm]
              rfl

/-- Only a word without an address can be beyond the addresses. -/
theorem placeOf_cases (word : MicroWord) (next : Nat) :
    placeOf word next < 256 ∨ word.address = none ∧ placeOf word next = next := by
  rw [placeOf]
  cases word.address with
  | some address => exact Or.inl address.toNat_lt
  | none => exact Or.inr ⟨rfl, rfl⟩

/-- The first word that finds no place has no address and follows a word at the last address. -/
theorem overruns_of_first (program : List MicroWord) (k n : Nat)
    (hplace : (loadPlaces 0 program)[k]? = some n) (hn : 256 ≤ n)
    (hbefore : ∀ j m, j < k → (loadPlaces 0 program)[j]? = some m → m < 256) :
    Overruns program k := by
  have hk : k < program.length := by
    rw [← length_loadPlaces 0 program]
    exact (List.getElem?_eq_some_iff.mp hplace).1
  have hword := List.getElem?_eq_getElem hk
  cases k with
  | zero =>
      -- The first word is placed at zero if it has no address.
      cases program with
      | nil => cases hplace
      | cons word rest =>
          cases hplace
          rcases placeOf_cases word 0 with hc | ⟨_, heq⟩
          · omega
          · omega
  | succ i =>
      have hi : i < (loadPlaces 0 program).length := by
        rw [length_loadPlaces]
        omega
      have hprev := List.getElem?_eq_getElem hi
      have hlt := hbefore i _ (Nat.lt_succ_self i) hprev
      rw [loadPlaces_succ 0 program i _ _ hword hprev] at hplace
      cases hplace
      rcases placeOf_cases program[i + 1] ((loadPlaces 0 program)[i] + 1) with hc | ⟨hnone, heq⟩
      · omega
      · refine ⟨i, _, rfl, hword, hnone, ?_⟩
        rw [hprev]
        congr 1
        omega

/-- A word that overruns has no place. -/
theorem place_of_overruns (program : List MicroWord) (k : Nat) (h : Overruns program k) :
    (loadPlaces 0 program)[k]? = some 256 := by
  rcases h with ⟨i, word, rfl, hword, hnone, hplace⟩
  rw [loadPlaces_succ 0 program i 255 word hword hplace, placeOf, hnone]

/-- Every word finds a place, or there is one that overruns and in front of which all words do. -/
theorem fits_or_overruns (program : List MicroWord) :
    (∀ n, n ∈ loadPlaces 0 program → n < 256) ∨
    ∃ k, Overruns program k ∧
      ∀ j m, j < k → (loadPlaces 0 program)[j]? = some m → m < 256 := by
  by_cases hall : ∀ n, n ∈ loadPlaces 0 program → n < 256
  · exact Or.inl hall
  · push Not at hall
    rcases hall with ⟨n, hmem, hn⟩
    rcases List.getElem?_of_mem hmem with ⟨i, hi⟩
    have hex : ∃ k m, (loadPlaces 0 program)[k]? = some m ∧ 256 ≤ m := ⟨i, n, hi, hn⟩
    rcases Nat.find_spec hex with ⟨m, hm, hle⟩
    have hbefore : ∀ j m', j < Nat.find hex → (loadPlaces 0 program)[j]? = some m' → m' < 256 :=
      fun j m' hj hm' => Nat.lt_of_not_le (fun hc => Nat.find_min hex hj ⟨m', hm', hc⟩)
    exact Or.inr ⟨_, overruns_of_first program _ m hm hle hbefore, hbefore⟩

/-- In front of the first word that overruns all words find places. -/
theorem lt_of_first_overrun (program : List MicroWord) (k : Nat) (h : Overruns program k)
    (hfirst : ∀ j, j < k → ¬ Overruns program j) (j m : Nat) (hj : j < k)
    (hplace : (loadPlaces 0 program)[j]? = some m) : m < 256 := by
  rcases fits_or_overruns program with hall | ⟨k', hk', hbefore⟩
  · exact hall m (List.mem_of_getElem? hplace)
  · rcases Nat.lt_trichotomy k k' with hlt | rfl | hlt
    · exact absurd (hbefore k 256 hlt (place_of_overruns program k h)) (Nat.lt_irrefl 256)
    · exact hbefore j m hj hplace
    · exact absurd hk' (hfirst k' hlt)

/-- The words that find places are those in front of the first one that overruns. -/
theorem fittingPlaces_of_first (program : List MicroWord) (k : Nat) (h : Overruns program k)
    (hfirst : ∀ j, j < k → ¬ Overruns program j) :
    fittingPlaces 0 program = loadPlaces 0 (program.take k) := by
  have hplace := place_of_overruns program k h
  rcases List.getElem?_eq_some_iff.mp hplace with ⟨hk, hat⟩
  have htake : ∀ n, n ∈ (loadPlaces 0 program).take k → decide (n < 256) = true := by
    intro n hn
    rcases List.mem_take_iff_getElem.mp hn with ⟨j, hj, rfl⟩
    have hjk : j < k := by omega
    exact decide_eq_true (lt_of_first_overrun program k h hfirst j _ hjk
      (List.getElem?_eq_getElem (by omega)))
  rw [fittingPlaces, loadPlaces_take]
  conv_lhs => rw [← List.take_append_drop k (loadPlaces 0 program)]
  rw [List.takeWhile_append_of_pos htake, List.drop_eq_getElem_cons hk, hat]
  exact List.append_nil _

/-- What a load leaves, in terms of the words that find places. -/
theorem loadedOver_of_fitting (s : ControlStore) (program words : List MicroWord)
    (hfront : words <+: program) (hplaces : fittingPlaces 0 program = loadPlaces 0 words) :
    LoadedOver s words (s.load program).1 := by
  have hread : ∀ address, (s.load program).1.read address =
      (lastAt (loadPlaces 0 words) program address.toNat).or (s.read address) := by
    intro address
    rw [load_fst, read_place_fitting, hplaces]
  refine ⟨fun address hmem => ?_, fun address hnot => ?_⟩
  · have hlength : (loadPlaces 0 words).length ≤ program.length := by
      rw [length_loadPlaces]
      exact hfront.length_le
    rcases lastAt_of_mem _ program _ hlength hmem with ⟨i, word, hword, hplace, hlast, heq⟩
    refine ⟨i, word, ?_, hplace, hlast, ?_⟩
    · have hi := (List.getElem?_eq_some_iff.mp hplace).1
      rw [length_loadPlaces] at hi
      rcases hfront with ⟨rest, rfl⟩
      rwa [List.getElem?_append_left hi] at hword
    · rw [hread, heq]
      rfl
  · rw [hread, lastAt_of_not_mem _ _ _ hnot]
    rfl

/-- Every word with an address finds its place. -/
theorem lt_of_addressed (next : Nat) (words : List MicroWord)
    (h : ∀ w, w ∈ words → ∃ address, w.address = some address) (n : Nat)
    (hn : n ∈ loadPlaces next words) : n < 256 := by
  induction words generalizing next with
  | nil => cases hn
  | cons word rest ih =>
      rw [List.forall_mem_cons] at h
      rcases List.mem_cons.mp hn with rfl | hrest
      · rcases h.1 with ⟨address, haddress⟩
        rw [placeOf, haddress]
        exact address.toNat_lt
      · exact ih _ h.2 hrest

/-- A load that fails reports the length of the whole program. -/
theorem load_snd_cases (s : ControlStore) (program : List MicroWord) :
    (s.load program).2 = .ok () ∨
      (s.load program).2 = .error (.programTooLarge program.length) := by
  rw [load]
  rcases s.place 0 program with ⟨loaded, _ | _⟩
  · exact Or.inr rfl
  · exact Or.inl rfl

/-- A load succeeds if no word overruns. -/
theorem load_eq_ok_iff_not_overruns (s : ControlStore) (program : List MicroWord) :
    (s.load program).2 = .ok () ↔ ∀ k, ¬ Overruns program k := by
  rw [load_eq_ok_iff]
  constructor
  · intro hall k hk
    have hmem := List.mem_of_getElem? (place_of_overruns program k hk)
    exact absurd (hall 256 hmem) (Nat.lt_irrefl 256)
  · intro hnone
    exact (fits_or_overruns program).resolve_right (fun ⟨k, hk, _⟩ => hnone k hk)

/-- A load places every word at its address or behind the word before, and of several words with
    one place the last one stays. It fails exactly if a word without an address follows a word at
    the last address, and then leaves what the words in front of the first such word give. An
    assembled program is always loaded. -/
theorem load_outcome (s : ControlStore) (program : List MicroWord) :
    ((∃ e, (s.load program).2 = .error e) ↔ ∃ k, Overruns program k) ∧
    (∀ k, Overruns program k → (∀ j, j < k → ¬ Overruns program j) →
      (s.load program).2 = .error (.programTooLarge program.length) ∧
        LoadedOver s (program.take k) (s.load program).1) ∧
    ((∀ k, ¬ Overruns program k) →
      (s.load program).2 = .ok () ∧ LoadedOver s program (s.load program).1) ∧
    ∀ source, assemble source = .ok program → (s.load program).2 = .ok () := by
  have hok := s.load_eq_ok_iff_not_overruns program
  have hcases := s.load_snd_cases program
  have herror : ∀ k, Overruns program k →
      (s.load program).2 = .error (.programTooLarge program.length) :=
    fun k hk => hcases.resolve_left (fun hc => hok.mp hc k hk)
  refine ⟨⟨?_, ?_⟩, fun k hk hfirst => ⟨herror k hk, ?_⟩, fun hnone => ⟨hok.mpr hnone, ?_⟩,
    fun source hsource => ?_⟩
  · rintro ⟨e, he⟩
    by_contra hnone
    rw [hok.mpr (fun k hk => hnone ⟨k, hk⟩)] at he
    cases he
  · rintro ⟨k, hk⟩
    exact ⟨_, herror k hk⟩
  · exact s.loadedOver_of_fitting program _ (List.take_prefix k program)
      (fittingPlaces_of_first program k hk hfirst)
  · have hall := (s.load_eq_ok_iff program).mp (hok.mpr hnone)
    refine s.loadedOver_of_fitting program program (List.prefix_refl program) ?_
    exact List.takeWhile_eq_self_iff.mpr (fun n hn => decide_eq_true (hall n hn))
  · rw [load_eq_ok_iff]
    exact lt_of_addressed 0 program
      (fun w hw => ((printable_of_assemble source program hsource).each w hw).placed)

/-- A program whose third and fourth word replace the first two, and whose fifth word has no place.
    The sixth one, which has an address, is not loaded either. -/
theorem load_outcome_midway :
    let word (read : UInt8) (address : Option UInt8) : MicroWord :=
      { write := 0, read, alu := 0, jump := 0, jumpAddress := 0, address }
    let program := [word 1 none, word 2 (some 0xFF), word 3 (some 0), word 4 (some 0xFF),
      word 5 none, word 6 (some 0x20)]
    let loaded := empty.load program
    Overruns program 4 ∧ (∀ j, j < 4 → ¬ Overruns program j) ∧
      loaded.2 = .error (.programTooLarge 6) ∧ LoadedOver empty (program.take 4) loaded.1 ∧
      loaded.1.read 0 = some (word 3 (some 0)) ∧ loaded.1.read 0xFF = some (word 4 (some 0xFF)) ∧
      loaded.1.read 0x20 = none := by
  intro word program loaded
  have hoverruns : Overruns program 4 := ⟨3, word 5 none, rfl, rfl, rfl, rfl⟩
  have hfirst : ∀ j, j < 4 → ¬ Overruns program j := by
    rintro j hj ⟨i, w, rfl, hw, hnone, _⟩
    -- The words behind the first one and in front of the fifth have addresses.
    rcases i with _ | _ | _ | i
    · cases hw; cases hnone
    · cases hw; cases hnone
    · cases hw; cases hnone
    · omega
  have hloaded := (load_outcome empty program).2.1 4 hoverruns hfirst
  exact ⟨hoverruns, hfirst, hloaded.1, hloaded.2, rfl, rfl, rfl⟩

end ControlStore

end Microcode
