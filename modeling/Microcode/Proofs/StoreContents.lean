import Mathlib.Data.List.FinRange
import Microcode.Proofs.Loading
import Microcode.Proofs.Provenance
/-!
# What a Store Holds

The control store as a map from addresses to words.

A store is written to, loaded, cleared, and replaced by a list of places. What stands at an address
after all that can be told without the store, from the changes that were made. A change says
something of one address, or of all of them, and the last change that says something of an address
decides what is there: a word, or nothing. `Edit.changes` are the changes of an edit. A load comes
to as many as it has words that find a place, which is the same whether or not it fails behind
them; a list of the wrong size comes to none, and so does a list that was taken from the store
itself. `read_edit` proves of each edit that it does what its changes say, and `read_editAll`
follows for all edits together.

The other half looks at one store only. The addresses at which words are listed are those at which
they are read, and they are listed in their order, so that the list has no word twice and leaves
none out.

## Main definitions

* `ControlStore.Edit`: What is done to a store.
* `ControlStore.edit`, `ControlStore.editAll`: The store after one edit, and after a list.
* `ControlStore.Change`, `ControlStore.Edit.changes`: The changes that an edit makes.
* `ControlStore.Change.latest`: What some changes have put at an address last.

## Theorems

* `latest_eq_some_iff`: The last thing that was put at an address, as a split of the changes.
* `replacedBy_of_length`, `replacedBy_of_length_ne`, `replacedBy_toList`: Which lists are accepted.
* `getElem?_toList`, `toList_write`: Reading and writing, as access to a list.
* `latest_load`: The changes of a load.
* `read_edit`, `read_editAll`: A store holds what the changes say.
* `mem_programmed_iff`, `pairwise_programmed`, `position_programmed_iff`: The list of the words.
* `size_eq_length_programmed`: The number of the words.
* `store_remembers`: A store is a map from addresses to words.
-/

namespace Microcode

namespace ControlStore

/-- What is done to a store from outside. -/
inductive Edit where
  | write (address : UInt8) (word : MicroWord)
  | clear
  | load (program : List MicroWord)
  /-- A list is taken for the places. -/
  | adopt (places : List (Option MicroWord))
  /-- The places are taken out as a list and put back. -/
  | rebuild

/-- The store that is made from a list, or the one from before if there is none. -/
def replacedBy (s : ControlStore) (places : List (Option MicroWord)) :
    ControlStore × Except StoreError Unit :=
  match ofList places with
  | .ok s' => (s', .ok ())
  | .error e => (s, .error e)

/-- The store after an edit, and whether the edit was accepted. -/
def edit (s : ControlStore) : Edit → ControlStore × Except StoreError Unit
  | .write address word => (s.write address word, .ok ())
  | .clear => (s.clear, .ok ())
  | .load program => s.load program
  | .adopt places => s.replacedBy places
  | .rebuild => s.replacedBy s.toList

/-- The store after a list of edits. -/
def editAll (s : ControlStore) (edits : List Edit) : ControlStore :=
  edits.foldl (fun s e => (s.edit e).1) s

/-- A change to a store: a word is put at an address, or every place is renewed. -/
inductive Change where
  | put (address : UInt8) (word : MicroWord)
  | renew (places : List (Option MicroWord))

/-- What a change puts at an address, which may be no word; nothing if it leaves the address
    alone. -/
def Change.puts? (address : UInt8) : Change → Option (Option MicroWord)
  | put a word => if a = address then some (some word) else none
  | renew places => some places[address.toNat]?.join

/-- The changes that an edit makes. A load puts the words that find places, and a list of another
    size than the store changes nothing. -/
def Edit.changes : Edit → List Change
  | write address word => [.put address word]
  | clear => [.renew (List.replicate 256 none)]
  | load program =>
    ((fittingPlaces 0 program).zip program).map (fun e => .put (UInt8.ofNat e.1) e.2)
  | adopt places => if places.length = 256 then [.renew places] else []
  | rebuild => []

/-- What some changes have put at an address last. -/
def Change.latest (changes : List Change) (address : UInt8) : Option (Option MicroWord) :=
  (changes.filterMap (·.puts? address)).getLast?

/-- The last thing that was put at an address is what a change has put there that no other one
    follows. -/
theorem Change.latest_eq_some_iff (changes : List Change) (address : UInt8)
    (entry : Option MicroWord) :
    latest changes address = some entry ↔
      ∃ before change after, changes = before ++ change :: after ∧
        change.puts? address = some entry ∧ ∀ c ∈ after, c.puts? address = none := by
  rw [latest, List.getLast?_eq_some_iff]
  constructor
  · rintro ⟨earlier, h⟩
    rcases List.filterMap_eq_append_iff.mp h with ⟨front, back, rfl, _, hback⟩
    rcases List.filterMap_eq_cons_iff.mp hback with ⟨skipped, change, after, rfl, _, hat, hnil⟩
    refine ⟨front ++ skipped, change, after, ?_, hat, List.filterMap_eq_nil_iff.mp hnil⟩
    rw [List.append_assoc]
  · rintro ⟨before, change, after, rfl, hat, hafter⟩
    refine ⟨before.filterMap (·.puts? address), ?_⟩
    rw [List.filterMap_append, List.filterMap_cons_some hat,
      List.filterMap_eq_nil_iff.mpr hafter]

theorem Change.latest_singleton (change : Change) (address : UInt8) :
    latest [change] address = change.puts? address := by
  rw [latest]
  cases h : change.puts? address with
  | none =>
      rw [List.filterMap_cons_none h]
      rfl
  | some entry =>
      rw [List.filterMap_cons_some h]
      rfl

/-- Reading is looking up the place that has the address for its number. -/
theorem getElem?_toList (s : ControlStore) (address : UInt8) :
    s.toList[address.toNat]? = some (s.read address) := by
  rw [toList, Vector.getElem?_toList]
  exact Vector.getElem?_eq_getElem _

/-- Writing replaces the place that has the address for its number. -/
theorem toList_write (s : ControlStore) (address : UInt8) (word : MicroWord) :
    (s.write address word).toList = s.toList.set address.toNat (some word) := by
  rw [toList, write, Vector.toList_set]
  rfl

/-- A list with a place for every address is accepted, and its places are those of the store. -/
theorem replacedBy_of_length (s : ControlStore) (places : List (Option MicroWord))
    (h : places.length = 256) :
    ∃ s', s.replacedBy places = (s', .ok ()) ∧ s'.toList = places := by
  have hlist : ofList places = .ok ⟨⟨places.toArray, by simpa using h⟩⟩ := dif_pos h
  refine ⟨_, ?_, (ofList_eq_ok_iff places _).mp hlist⟩
  rw [replacedBy, hlist]

/-- A list of another size is refused. -/
theorem replacedBy_of_length_ne (s : ControlStore) (places : List (Option MicroWord))
    (h : places.length ≠ 256) :
    s.replacedBy places = (s, .error (.wrongSize places.length)) := by
  have hlist : ofList places = .error (.wrongSize places.length) := dif_neg h
  rw [replacedBy, hlist]

/-- The places of a store are taken back for the store. -/
theorem replacedBy_toList (s : ControlStore) : s.replacedBy s.toList = (s, .ok ()) := by
  rw [replacedBy, ofList_toList]

/-- The last word that a load puts at an address is the last one at that place. -/
theorem latest_load (program : List MicroWord) (address : UInt8) :
    Change.latest (Edit.load program).changes address =
      (lastAt (fittingPlaces 0 program) program address.toNat).map some := by
  have hentry : ∀ e, e ∈ (fittingPlaces 0 program).zip program →
      (Change.put (UInt8.ofNat e.1) e.2).puts? address =
        if decide (e.1 = address.toNat) then some (some e.2) else none := by
    intro e he
    have hlt : e.1 < 256 := lt_of_mem_fittingPlaces 0 program _ (List.of_mem_zip he).1
    have hiff : UInt8.ofNat e.1 = address ↔ decide (e.1 = address.toNat) = true := by
      rw [← UInt8.toNat_inj, UInt8.toNat_ofNat_of_lt' hlt, decide_eq_true_iff]
    rw [Change.puts?]
    exact if_congr hiff rfl rfl
  rw [Change.latest, Edit.changes, List.filterMap_map, lastAt, Option.map_map, ← List.getLast?_map]
  congr 1
  refine (List.filterMap_congr hentry).trans ?_
  rw [← List.filterMap_filter, List.filterMap_eq_map']
  rfl

/-- After an edit an address holds what the changes have put there last, or what it held before. -/
theorem read_edit (s : ControlStore) (e : Edit) (address : UInt8) :
    (s.edit e).1.read address = (Change.latest e.changes address).getD (s.read address) := by
  cases e with
  | write a word =>
      rw [edit, read_write, Edit.changes, Change.latest_singleton, Change.puts?]
      by_cases h : a = address
      · rw [if_pos h, if_pos h]
        rfl
      · rw [if_neg h, if_neg h]
        rfl
  | clear =>
      have hblank : (List.replicate 256 (none : Option MicroWord))[address.toNat]?.join = none := by
        rw [List.getElem?_replicate]
        split <;> rfl
      rw [edit, read_clear, Edit.changes, Change.latest_singleton, Change.puts?, hblank]
      rfl
  | load program =>
      -- The words in front of the first one that overruns are placed, the last one at a place wins.
      rw [latest_load, edit, load_fst, read_place_fitting]
      cases lastAt (fittingPlaces 0 program) program address.toNat <;> rfl
  | adopt places =>
      rw [edit, Edit.changes]
      by_cases h : places.length = 256
      · rcases s.replacedBy_of_length places h with ⟨s', hs', rfl⟩
        rw [hs', if_pos h, Change.latest_singleton, Change.puts?, getElem?_toList]
        rfl
      · rw [s.replacedBy_of_length_ne places h, if_neg h]
        rfl
  | rebuild =>
      rw [edit, replacedBy_toList]
      rfl

/-- After a list of edits an address holds what all their changes have put there last. -/
theorem read_editAll (s : ControlStore) (edits : List Edit) (address : UInt8) :
    (s.editAll edits).read address =
      (Change.latest (edits.flatMap Edit.changes) address).getD (s.read address) := by
  induction edits generalizing s with
  | nil => rfl
  | cons e edits ih =>
      have hsplit : Change.latest ((e :: edits).flatMap Edit.changes) address =
          (Change.latest (edits.flatMap Edit.changes) address).or
            (Change.latest e.changes address) := by
        rw [Change.latest, List.flatMap_cons, List.filterMap_append, List.getLast?_append]
        rfl
      rw [hsplit, editAll, List.foldl_cons, ← editAll, ih, read_edit]
      cases Change.latest (edits.flatMap Edit.changes) address <;> rfl

/-- The words are listed with the addresses at which they are read. -/
theorem mem_programmed_iff (s : ControlStore) (address : UInt8) (word : MicroWord) :
    (address, word) ∈ s.programmed ↔ s.read address = some word := by
  rw [programmed, List.mem_filterMap]
  constructor
  · rintro ⟨i, _, hi⟩
    rcases Option.map_eq_some_iff.mp hi with ⟨w, hw, heq⟩
    cases heq
    have hnat : (UInt8.ofNat i.val).toNat = i.val := UInt8.toNat_ofNat_of_lt' i.isLt
    simp only [read, hnat]
    exact hw
  · intro h
    refine ⟨⟨address.toNat, address.toNat_lt⟩, List.mem_finRange _, ?_⟩
    change (s.read address).map _ = _
    rw [h, Option.map_some, UInt8.ofNat_toNat]

/-- The words are listed in the order of their addresses, each of them once. -/
theorem pairwise_programmed (s : ControlStore) :
    s.programmed.Pairwise (fun p q => p.1.toNat < q.1.toNat) := by
  refine List.Pairwise.filterMap _ ?_ (List.pairwise_lt_finRange 256)
  intro i j hij p hp q hq
  rcases Option.map_eq_some_iff.mp hp with ⟨_, _, rfl⟩
  rcases Option.map_eq_some_iff.mp hq with ⟨_, _, rfl⟩
  rw [UInt8.toNat_ofNat_of_lt' i.isLt, UInt8.toNat_ofNat_of_lt' j.isLt]
  exact hij

/-- An address in the list is the position of its place, no less than 256 of which there are. -/
theorem position_programmed_iff (s : ControlStore) (i : Nat) (word : MicroWord) :
    (∃ p, p ∈ s.programmed ∧ p.1.toNat = i ∧ p.2 = word) ↔ s.toList[i]? = some (some word) := by
  constructor
  · rintro ⟨p, hp, rfl, rfl⟩
    rw [getElem?_toList, (s.mem_programmed_iff p.1 p.2).mp hp]
  · intro h
    have hi : i < 256 := by
      have hlt := (List.getElem?_eq_some_iff.mp h).1
      rwa [length_toList] at hlt
    have hnat : (UInt8.ofNat i).toNat = i := UInt8.toNat_ofNat_of_lt' hi
    refine ⟨(UInt8.ofNat i, word), ?_, hnat, rfl⟩
    rw [mem_programmed_iff, ← Option.some.injEq, ← getElem?_toList, hnat, h]

/-- The number of words is the length of their list. -/
theorem size_eq_length_programmed (s : ControlStore) : s.size = s.programmed.length := by
  have hplaces : s.places.toList = (List.finRange 256).map (fun i => s.places[i.val]) := by
    refine List.ext_getElem ?_ (fun i h h' => ?_)
    · rw [Vector.length_toList, List.length_map, List.length_finRange]
    · rw [Vector.getElem_toList, List.getElem_map, List.getElem_finRange]
      rfl
  rw [size, hplaces, List.countP_map, programmed, List.length_filterMap_eq_countP]
  refine List.countP_congr (fun i _ => ?_)
  rw [Option.isSome_map]
  rfl

/-- A store is a map from addresses to words. Whatever is done to it, it has one place for every
    address; it holds at an address what was put there last, since it was cleared or replaced if
    it was; and its words are listed once each, in the order of their addresses. -/
theorem store_remembers (edits : List Edit) :
    let s := empty.editAll edits
    s.toList.length = 256 ∧
    (∀ address, s.toList[address.toNat]? = some (s.read address)) ∧
    (∀ address word, (s.write address word).toList = s.toList.set address.toNat (some word)) ∧
    (∀ address word, s.read address = some word ↔
      ∃ before change after, edits.flatMap Edit.changes = before ++ change :: after ∧
        change.puts? address = some (some word) ∧ ∀ c ∈ after, c.puts? address = none) ∧
    (∀ places, places.length = 256 →
      ∃ s', s.edit (.adopt places) = (s', .ok ()) ∧ s'.toList = places) ∧
    (∀ places, places.length ≠ 256 →
      s.edit (.adopt places) = (s, .error (.wrongSize places.length))) ∧
    s.edit .rebuild = (s, .ok ()) ∧
    (∀ address word, (address, word) ∈ s.programmed ↔ s.read address = some word) ∧
    s.programmed.Pairwise (fun p q => p.1.toNat < q.1.toNat) ∧
    (∀ i word, (∃ p, p ∈ s.programmed ∧ p.1.toNat = i ∧ p.2 = word) ↔
      s.toList[i]? = some (some word)) ∧
    s.size = s.programmed.length ∧ (s.isEmpty = true ↔ s.programmed = []) := by
  intro s
  refine ⟨s.length_toList, s.getElem?_toList, s.toList_write, fun address word => ?_,
    s.replacedBy_of_length, s.replacedBy_of_length_ne, s.replacedBy_toList, s.mem_programmed_iff,
    s.pairwise_programmed, s.position_programmed_iff, s.size_eq_length_programmed, ?_⟩
  · have hread := read_editAll empty edits address
    rw [read_empty] at hread
    rw [hread, ← Change.latest_eq_some_iff]
    cases Change.latest (edits.flatMap Edit.changes) address with
    | none => simp only [Option.getD_none, reduceCtorEq]
    | some entry => simp only [Option.getD_some, Option.some.injEq]
  · rw [isEmpty, beq_iff_eq, size_eq_length_programmed, List.length_eq_zero_iff]

end ControlStore

end Microcode
