import Microcode.ControlStore
/-!
# Where Words Are Loaded

What a control store holds after a program was loaded.

The place of a word depends on the words in front of it, since a word without an address follows
the one before. `loadPlaces` works the places out without a store. Whether a load succeeds can be
read off them, and so can what it leaves: at every address the last word with that place, and
what was there before if no word has it. Two programs therefore load to the same store if they
give the same words the same places, however the places came about.

## Main definitions

* `ControlStore.loadPlaces`: The places that a load gives to some words.
* `ControlStore.lastAt`: The last word at a place.

## Theorems

* `place_snd_iff`, `read_place`: Whether words are placed, and what stands at an address then.
* `load_eq_ok_iff`: A load succeeds if every place is an address.
* `read_load`: After a load an address holds the last word with that place.
* `mem_of_read_load`: A load, even a failed one, leaves no words but those that were there and those
  of the program.
-/

namespace Microcode

namespace ControlStore

/-- The places that a load gives to some words, the first of which goes to `next` unless its
    address is assigned. -/
def loadPlaces (next : Nat) : List MicroWord → List Nat
  | [] => []
  | word :: rest => placeOf word next :: loadPlaces (placeOf word next + 1) rest

/-- The last of some words that have a given place. -/
def lastAt (ns : List Nat) (words : List MicroWord) (n : Nat) : Option MicroWord :=
  (((ns.zip words).filter (fun entry => decide (entry.1 = n))).getLast?).map Prod.snd

theorem lastAt_cons (m : Nat) (ns : List Nat) (word : MicroWord) (words : List MicroWord)
    (n : Nat) :
    lastAt (m :: ns) (word :: words) n =
      (lastAt ns words n).or (if m = n then some word else none) := by
  unfold lastAt
  rw [List.zip_cons_cons, List.filter_cons]
  by_cases h : m = n
  · rw [if_pos (decide_eq_true h), if_pos h, List.getLast?_cons]
    cases ((ns.zip words).filter (fun entry => decide (entry.1 = n))).getLast? <;> rfl
  · rw [if_neg (by rwa [decide_eq_true_iff]), if_neg h, Option.or_none]

-- The last word at a place, seen through a function of words.
theorem lastAt_map (f : MicroWord → MicroWord) (ns : List Nat) (words : List MicroWord) (n : Nat) :
    (lastAt ns words n).map f = lastAt ns (words.map f) n := by
  induction words generalizing ns with
  | nil => rw [List.map_nil, lastAt, List.zip_nil_right]; rfl
  | cons word words ih =>
      cases ns with
      | nil => rfl
      | cons m ns =>
          rw [List.map_cons, lastAt_cons, lastAt_cons, Option.map_or, ih]
          split <;> rfl

/-- A word whose place is an address is put there, and the next one follows it. -/
theorem place_cons_of_lt (s : ControlStore) (next : Nat) (word : MicroWord)
    (rest : List MicroWord) (h : placeOf word next < 256) :
    s.place next (word :: rest) =
      place ⟨s.places.set (placeOf word next) (some word) h⟩ (placeOf word next + 1) rest := by
  rw [place]
  exact dif_pos h

theorem place_cons_of_not_lt (s : ControlStore) (next : Nat) (word : MicroWord)
    (rest : List MicroWord) (h : ¬ placeOf word next < 256) :
    s.place next (word :: rest) = (s, false) := by
  rw [place]
  exact dif_neg h

/-- Words are placed if every place is an address. -/
theorem place_snd_iff (s : ControlStore) (next : Nat) (words : List MicroWord) :
    (s.place next words).2 = true ↔ ∀ n, n ∈ loadPlaces next words → n < 256 := by
  induction words generalizing s next with
  | nil => exact ⟨fun _ n hn => absurd hn List.not_mem_nil, fun _ => rfl⟩
  | cons word rest ih =>
      rw [loadPlaces, List.forall_mem_cons]
      by_cases h : placeOf word next < 256
      · rw [s.place_cons_of_lt next word rest h, ih]
        exact (and_iff_right h).symm
      · rw [s.place_cons_of_not_lt next word rest h]
        exact ⟨fun hc => absurd hc Bool.false_ne_true, fun hc => absurd hc.1 h⟩

/-- Placed words stand at their places, the last one at each. -/
theorem read_place (s : ControlStore) (next : Nat) (words : List MicroWord) (address : UInt8)
    (h : (s.place next words).2 = true) :
    (s.place next words).1.read address =
      (lastAt (loadPlaces next words) words address.toNat).or (s.read address) := by
  induction words generalizing s next with
  | nil => rfl
  | cons word rest ih =>
      by_cases hn : placeOf word next < 256
      · rw [s.place_cons_of_lt next word rest hn] at h ⊢
        rw [ih _ _ h, loadPlaces, lastAt_cons, Option.or_assoc]
        congr 1
        -- The word itself is read at its place, and elsewhere what was there before.
        simp only [read, Vector.getElem_set]
        split
        · rfl
        · rfl
      · rw [s.place_cons_of_not_lt next word rest hn] at h
        exact absurd h Bool.false_ne_true

/-- A load succeeds if every place is an address. -/
theorem load_eq_ok_iff (s : ControlStore) (program : List MicroWord) :
    (s.load program).2 = .ok () ↔ ∀ n, n ∈ loadPlaces 0 program → n < 256 := by
  rw [← s.place_snd_iff 0 program, load]
  rcases s.place 0 program with ⟨loaded, _ | _⟩
  · simp only [reduceCtorEq, Bool.false_eq_true]
  · simp only

/-- A load leaves what it has placed, whether or not it succeeds. -/
theorem load_fst (s : ControlStore) (program : List MicroWord) :
    (s.load program).1 = (s.place 0 program).1 := by
  rw [load]
  rcases s.place 0 program with ⟨loaded, _ | _⟩ <;> rfl

/-- After a load an address holds the last word with that place. -/
theorem read_load (s : ControlStore) (program : List MicroWord) (address : UInt8)
    (h : (s.load program).2 = .ok ()) :
    (s.load program).1.read address =
      (lastAt (loadPlaces 0 program) program address.toNat).or (s.read address) := by
  have hplaced := (s.place_snd_iff 0 program).mpr ((s.load_eq_ok_iff program).mp h)
  rw [load_fst, s.read_place 0 program address hplaced]

theorem mem_of_read_place (s : ControlStore) (next : Nat) (words : List MicroWord)
    (address : UInt8) (w : MicroWord) (h : (s.place next words).1.read address = some w) :
    s.read address = some w ∨ w ∈ words := by
  induction words generalizing s next with
  | nil => exact Or.inl h
  | cons word rest ih =>
      rw [place] at h
      split at h
      · rcases ih _ _ h with hread | hmem
        · simp only [read, Vector.getElem_set] at hread
          split at hread
          · cases hread
            exact Or.inr List.mem_cons_self
          · exact Or.inl hread
        · exact Or.inr (List.mem_cons_of_mem _ hmem)
      · exact Or.inl h

/-- A store holds nothing new after a load, whether or not it succeeds, but words of the
    program. -/
theorem mem_of_read_load (s : ControlStore) (program : List MicroWord) (address : UInt8)
    (w : MicroWord) (h : (s.load program).1.read address = some w) :
    s.read address = some w ∨ w ∈ program := by
  rw [load_fst] at h
  exact s.mem_of_read_place 0 program address w h

end ControlStore

end Microcode
