import Microcode.Proofs.Listing.Reassembly
import Microcode.Proofs.Placement
/-!
# Printed Places and Loaded Places

A word without an address has two places, and they need not be the same.

The control store puts such a word behind the one before it. The printer takes the place of the
word in the list, so that it prints an `ORG` line for it where the two differ. `settled` is the
list with every word at the address that it is printed at, and a listing is printed the same from
the one as from the other. So a program is found again in its listing up to the addresses that it
has gained, and where its words are loaded then is a matter of comparing places.

`reload_agrees_iff` compares them. The printer and the store give a program the same places
exactly if every word without an address is loaded at its place in the list, which is so where all
words have addresses or none has, and where every run of words without one stands at its place.
A program for which this fails is `reload_moves_word`.

## Main definitions

* `MicroWord.unplaced`: A word without its address.
* `ControlStore.Agree`: Two stores hold the same words, up to what the words say of their place.
* `Listing.settled`: The words at the addresses that they are printed at.

## Theorems

* `disassemble_settled`: Settled words are printed as the words are.
* `printable_settled`: Settled words are found again in their listing.
* `loadPlaces_settled`: The places of settled words.
* `loadPlaces_settled_iff`: When words are printed where they are loaded.
* `reload_agrees_iff`: When a program that is loaded from its listing is the same program.
* `reload_agrees_mixed`: A program with and without addresses that is the same.
* `reload_moves_word`: A program that is not.
-/

namespace Microcode

/-- A word without its address. -/
def MicroWord.unplaced (w : MicroWord) : MicroWord :=
  { w with address := none }

/-- Two stores hold the same codes, jump addresses and labels, or nothing, at every address. -/
def ControlStore.Agree (s s' : ControlStore) : Prop :=
  ∀ address, (s.read address).map MicroWord.unplaced = (s'.read address).map MicroWord.unplaced

namespace Listing

/-- The words from a place in a list on, at the addresses that they are printed at. -/
def settled (place : Nat) : List MicroWord → List MicroWord
  | [] => []
  | word :: rest =>
    word.placedAt (word.address.getD (UInt8.ofNat place)) :: settled (place + 1) rest

theorem wordLines_settled (t : ControlTable) (words : List MicroWord) (place : Nat)
    (next : Option UInt8) :
    wordLines t place next (settled place words) = wordLines t place next words := by
  induction words generalizing place next with
  | nil => rfl
  | cons word rest ih =>
      -- No column of a line but the address depends on where the word is.
      have hline : ∀ address address', wordLine t address (word.placedAt address') =
          wordLine t address word := fun _ _ => rfl
      have haddress : ∀ address, (word.placedAt address).address.getD (UInt8.ofNat place) =
          address := fun _ => rfl
      rw [settled, wordLines, wordLines, ih, haddress, hline]

/-- Settled words are printed as the words are. -/
theorem disassemble_settled (words : List MicroWord) (t : ControlTable) :
    disassemble (settled 0 words) t = disassemble words t := by
  rw [disassemble, disassemble, wordLines_settled]

theorem map_unplaced_settled (words : List MicroWord) (place : Nat) :
    (settled place words).map MicroWord.unplaced = words.map MicroWord.unplaced := by
  induction words generalizing place with
  | nil => rfl
  | cons word rest ih =>
      rw [settled, List.map_cons, List.map_cons, ih]
      rfl

theorem labels_settled (words : List MicroWord) (place : Nat) :
    labels (settled place words) = labels words := by
  induction words generalizing place with
  | nil => rfl
  | cons word rest ih =>
      rw [settled, labels_cons, labels_cons, ih]
      rfl

/-- A settled word is one of the words, at some address. -/
theorem exists_of_mem_settled (words : List MicroWord) (place : Nat) (w : MicroWord)
    (hw : w ∈ settled place words) : ∃ v address, v ∈ words ∧ w = v.placedAt address := by
  induction words generalizing place with
  | nil => exact absurd hw List.not_mem_nil
  | cons v rest ih =>
      rcases List.mem_cons.mp hw with rfl | hrest
      · exact ⟨v, _, List.mem_cons_self .., rfl⟩
      · rcases ih _ hrest with ⟨u, address, hu, rfl⟩
        exact ⟨u, address, List.mem_cons_of_mem v hu, rfl⟩

/-- Settled words are found again in their listing. -/
theorem printable_settled (words : List MicroWord) (place : Nat)
    (hnarrow : ∀ w, w ∈ words → w.Narrow)
    (hlabel : ∀ w, w ∈ words → ∀ name, w.label = some name → IsLabel name)
    (hdistinct : (labels words).Nodup) : Printable (settled place words) := by
  refine ⟨fun w hw => ?_, by rw [labels_settled]; exact hdistinct⟩
  rcases exists_of_mem_settled words place w hw with ⟨v, address, hv, rfl⟩
  have hv' := hnarrow v hv
  exact ⟨⟨hv'.write, hv'.read, hv'.alu, hv'.jump⟩, ⟨address, rfl⟩, hlabel v hv⟩

end Listing

namespace ControlStore

open Listing

/-- Every word without an address is loaded at its place in a list, where the words are those from
    a place on and `next` is where the first one is loaded without an address. -/
def InPlace (place next : Nat) (words : List MicroWord) : Prop :=
  ∀ (i : Nat) (w : MicroWord), words[i]? = some w → w.address = none →
    (loadPlaces next words)[i]? = some (place + i)

/-- Settled words are loaded where they are printed, whatever stands in front of them. -/
theorem loadPlaces_settled (words : List MicroWord) (place next : Nat) :
    loadPlaces next (settled place words) =
      words.mapIdx (fun i w => (w.address.getD (UInt8.ofNat (place + i))).toNat) := by
  induction words generalizing place next with
  | nil => rfl
  | cons word rest ih =>
      rw [settled, loadPlaces, ih, List.mapIdx_cons]
      simp only [Nat.add_assoc, Nat.add_comm 1]
      rfl

/-- A word is printed where it is loaded if it has an address or its place is its address. -/
theorem getD_toNat_eq_placeOf_iff (word : MicroWord) (place next : Nat) (hplace : place < 256) :
    (word.address.getD (UInt8.ofNat place)).toNat = placeOf word next ↔
      (word.address = none → placeOf word next = place) := by
  unfold placeOf
  cases word.address with
  | some address => exact ⟨fun _ h => absurd h (Option.some_ne_none address), fun _ => rfl⟩
  | none =>
      rw [Option.getD_none, UInt8.toNat_ofNat_of_lt' hplace]
      exact ⟨fun h _ => h.symm, fun h => (h rfl).symm⟩

theorem inPlace_cons (word : MicroWord) (rest : List MicroWord) (place next : Nat) :
    InPlace place next (word :: rest) ↔
      (word.address = none → placeOf word next = place) ∧
        InPlace (place + 1) (placeOf word next + 1) rest := by
  constructor
  · intro h
    refine ⟨fun hnone => Option.some.inj (h 0 word rfl hnone), fun i w hw hnone => ?_⟩
    rw [Nat.add_assoc, Nat.add_comm 1]
    exact h (i + 1) w hw hnone
  · rintro ⟨hfirst, hrest⟩ i w hw hnone
    cases i with
    | zero =>
        cases hw
        exact congrArg some (hfirst hnone)
    | succ i =>
        have hat := hrest i w hw hnone
        rw [Nat.add_assoc, Nat.add_comm 1] at hat
        exact hat

/-- Words are printed where they are loaded if every word without an address is loaded at its
    place in the list. -/
theorem loadPlaces_settled_iff (words : List MicroWord) (place next : Nat)
    (hsize : place + words.length ≤ 256) :
    loadPlaces next (settled place words) = loadPlaces next words ↔ InPlace place next words := by
  induction words generalizing place next with
  | nil => exact ⟨fun _ i w hw => absurd hw (Option.some_ne_none w).symm, fun _ => rfl⟩
  | cons word rest ih =>
      rw [List.length_cons] at hsize
      have hsettled : placeOf (word.placedAt (word.address.getD (UInt8.ofNat place))) next =
          (word.address.getD (UInt8.ofNat place)).toNat := rfl
      rw [settled, loadPlaces, loadPlaces, hsettled, List.cons.injEq, inPlace_cons,
        getD_toNat_eq_placeOf_iff word place next (by omega), and_congr_right_iff]
      intro hfirst
      rw [(getD_toNat_eq_placeOf_iff word place next (by omega)).mpr hfirst]
      exact ih (place + 1) (placeOf word next + 1) (by omega)

/-- After a load two stores agree if the last words at every address do. -/
theorem agree_load_iff (words words' : List MicroWord)
    (h : (empty.load words).2 = .ok ()) (h' : (empty.load words').2 = .ok ()) :
    Agree (empty.load words).1 (empty.load words').1 ↔
      ∀ n, n < 256 → lastAt (loadPlaces 0 words) (words.map MicroWord.unplaced) n =
        lastAt (loadPlaces 0 words') (words'.map MicroWord.unplaced) n := by
  have hread : ∀ ws, (empty.load ws).2 = .ok () → ∀ address,
      ((empty.load ws).1.read address).map MicroWord.unplaced =
        lastAt (loadPlaces 0 ws) (ws.map MicroWord.unplaced) address.toNat := by
    intro ws hws address
    rw [read_load _ ws address hws, read_empty, Option.or_none, lastAt_map]
  constructor
  · intro hagree n hn
    have hat := hagree (UInt8.ofNat n)
    rw [hread words h, hread words' h', UInt8.toNat_ofNat_of_lt' hn] at hat
    exact hat
  · intro hall address
    rw [hread words h, hread words' h']
    exact hall _ address.toNat_lt

/-- The load of settled words succeeds. -/
theorem load_settled (words : List MicroWord) :
    (empty.load (settled 0 words)).2 = .ok () := by
  rw [load_eq_ok_iff, loadPlaces_settled]
  intro n hn
  rcases List.mem_mapIdx.mp hn with ⟨i, hi, rfl⟩
  exact UInt8.toNat_lt _

end ControlStore

namespace Listing

open ControlStore

/-- A program is found again in its listing up to its addresses, and loads. It loads to the same
    words exactly if at every address the last word that is printed there and the last word that
    is loaded there are the same; and that is so if every word without an address is loaded at its
    place in the list, which means that the printer and the store put every word at the same
    place. -/
theorem reload_agrees_iff (words : List MicroWord) (t : ControlTable)
    (hnarrow : ∀ w, w ∈ words → w.Narrow)
    (hlabel : ∀ w, w ∈ words → ∀ name, w.label = some name → IsLabel name)
    (hdistinct : (labels words).Nodup) (hsize : words.length ≤ 256)
    (hload : (empty.load words).2 = .ok ()) :
    assemble (disassemble words t) = .ok (settled 0 words) ∧
    (empty.load (settled 0 words)).2 = .ok () ∧
    (Agree (empty.load (settled 0 words)).1 (empty.load words).1 ↔
      ∀ n, n < 256 →
        lastAt (loadPlaces 0 (settled 0 words)) (words.map MicroWord.unplaced) n =
          lastAt (loadPlaces 0 words) (words.map MicroWord.unplaced) n) ∧
    (loadPlaces 0 (settled 0 words) = loadPlaces 0 words ↔ InPlace 0 0 words) ∧
    (InPlace 0 0 words → Agree (empty.load (settled 0 words)).1 (empty.load words).1) := by
  have hagain := agree_load_iff (settled 0 words) words (load_settled words) hload
  rw [map_unplaced_settled] at hagain
  have hplaces := loadPlaces_settled_iff words 0 0 (by rw [Nat.zero_add]; exact hsize)
  refine ⟨?_, load_settled words, hagain, hplaces, fun h => ?_⟩
  · rw [← disassemble_settled]
    exact assemble_disassemble _ t (printable_settled words 0 hnarrow hlabel hdistinct)
  · rw [hagain, hplaces.mpr h]
    exact fun _ _ => rfl

/-- A program in which the second word has an address, and the third one follows it to its own
    place in the list. -/
theorem reload_agrees_mixed :
    let words : List MicroWord := [
      { write := 0xD, read := 9, alu := 0, jump := 0, jumpAddress := 0, label := some "TOP" },
      { write := 8, read := 5, alu := 8, jump := 2, jumpAddress := 0x40, address := some 1 },
      { write := 0, read := 0, alu := 0, jump := 1, jumpAddress := 0 },
      { write := 2, read := 3, alu := 0, jump := 3, jumpAddress := 0, label := some "SUB",
        address := some 0x40 }]
    assemble (disassemble words .builtin) = .ok (settled 0 words) ∧
      Agree (empty.load (settled 0 words)).1 (empty.load words).1 := by
  intro words
  have hnarrow : ∀ w, w ∈ words → w.Narrow := by decide
  have hname : ∀ name, name ∈ labels words → IsLabel name := by decide
  have hlabel : ∀ w, w ∈ words → ∀ name, w.label = some name → IsLabel name :=
    fun w hw name h => hname name (List.mem_filterMap.mpr ⟨w, hw, h⟩)
  have hplaces : loadPlaces 0 words = [0, 1, 2, 0x40] := rfl
  have hload : (empty.load words).2 = .ok () := by
    rw [load_eq_ok_iff, hplaces]
    decide
  have hin : InPlace 0 0 words := by
    rw [← loadPlaces_settled_iff words 0 0 (by decide), hplaces]
    rfl
  have hagain := reload_agrees_iff words .builtin hnarrow hlabel (by decide) (by decide) hload
  exact ⟨hagain.1, hagain.2.2.2.2 hin⟩

/-- A program whose second word follows the first one into the store, but is printed at its place
    in the list. -/
theorem reload_moves_word :
    let words : List MicroWord := [
      { write := 0xD, read := 9, alu := 0, jump := 0, jumpAddress := 0, address := some 0x40 },
      { write := 8, read := 5, alu := 8, jump := 0, jumpAddress := 0 }]
    (∀ w, w ∈ words → w.Narrow) ∧ labels words = [] ∧ (empty.load words).2 = .ok () ∧
      ∃ again, assemble (disassemble words .builtin) = .ok again ∧
        (empty.load again).2 = .ok () ∧
        ((empty.load words).1.read 0x41).map MicroWord.unplaced = words[1]? ∧
        (empty.load again).1.read 0x41 = none ∧
        ¬ Agree (empty.load again).1 (empty.load words).1 := by
  intro words
  have hnarrow : ∀ w, w ∈ words → w.Narrow := by decide
  have hnone : labels words = [] := rfl
  have hlabel : ∀ w, w ∈ words → ∀ name, w.label = some name → IsLabel name := by
    intro w hw name h
    have hmem : name ∈ labels words := List.mem_filterMap.mpr ⟨w, hw, h⟩
    rw [hnone] at hmem
    exact absurd hmem List.not_mem_nil
  have hagain : assemble (disassemble words .builtin) = .ok (settled 0 words) := by
    rw [← disassemble_settled]
    exact assemble_disassemble _ _ (printable_settled words 0 hnarrow hlabel List.nodup_nil)
  refine ⟨hnarrow, hnone, rfl, settled 0 words, hagain, load_settled words, rfl, rfl, fun h => ?_⟩
  exact absurd (h 0x41) (by decide)

end Listing

end Microcode
