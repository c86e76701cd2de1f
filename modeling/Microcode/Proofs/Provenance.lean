import Microcode.Proofs.Decoding
import Microcode.Proofs.Listing.Printable
import Microcode.Proofs.Packing
import Microcode.Proofs.Placement
import Microcode.Proofs.SavedState
/-!
# Where Words Come From

Which words a machine can get to hold.

A word is built from codes, unpacked from bits or assembled, and all three look at the codes. It is
then moved around: labelled, retargeted, placed, stored, loaded, handed to a machine. None of this
touches the codes, so whatever is made in these ways is `Narrow`. The one way in that is left is a
JSON text, and reading a word from a text does not look at its codes. `obtained_narrow_iff` says
that this is the whole story: what is obtained with the help of some texts is narrow exactly if the
texts themselves give nothing else. Without any text everything is narrow; with all texts, anything
at all can be obtained.

The size of a store is another matter. A store cannot be had without its 256 places, and reading
one from a list, or from a text, fails if there are more or fewer.

## Main definitions

* `Item`: A word, a store or a machine.
* `Item.Holds`, `Item.Narrow`: The words of an item, and that their codes fit.
* `Item.ReadFrom`: The item that a JSON text gives.
* `Obtained`: The items that can be obtained, given the texts that are read.

## Theorems

* `readFrom_compact`: Every item is given by some text.
* `ofList_eq_ok_iff`, `items_of_ofJson?`: A store is read from as many places as it has.
* `runLimited_store`: A run leaves the store alone.
* `narrow_of_obtained`: What is obtained is narrow if the texts are.
* `obtained_narrow_iff`: Exactly then.
* `restored_word_overflows`: A text whose word does not fit.
-/

namespace Microcode

/-- A word, a store or a machine. -/
inductive Item where
  | word (w : MicroWord)
  | store (s : ControlStore)
  | machine (m : Machine)

namespace Item

/-- The words that an item holds. -/
def Holds : Item → MicroWord → Prop
  | word w, v => v = w
  | store s, v => ∃ address, s.read address = some v
  | machine m, v => ∃ address, m.store.read address = some v

/-- All words that an item holds have codes that fit in four bits. -/
def Narrow (x : Item) : Prop :=
  ∀ w, x.Holds w → w.Narrow

/-- An item as JSON. -/
def toJson : Item → Json
  | word w => w.toJson
  | store s => s.toJson
  | machine m => m.toJson

/-- A JSON text gives an item. -/
def ReadFrom (text : String) : Item → Prop
  | word w => (Json.parse? text).bind MicroWord.ofJson? = some w
  | store s => (Json.parse? text).bind ControlStore.ofJson? = some s
  | machine m => Machine.ofText? text = some m

/-- Every item is given by the text with which it is written. -/
theorem readFrom_compact (x : Item) : x.ReadFrom x.toJson.compact := by
  cases x with
  | word w =>
      rw [ReadFrom, toJson, Json.parse?_compact, Option.bind_some]
      exact w.restores
  | store s =>
      rw [ReadFrom, toJson, Json.parse?_compact, Option.bind_some]
      exact s.restores
  | machine m =>
      rw [ReadFrom, Machine.ofText?, toJson, Json.parse?_compact, Option.bind_some]
      exact m.restores

/-- What a machine holds is what its store holds. -/
theorem narrow_of_store_eq {m m' : Machine} (h : m'.store = m.store)
    (hm : (machine m).Narrow) : (machine m').Narrow := by
  rintro v ⟨address, hread⟩
  rw [h] at hread
  exact hm v ⟨address, hread⟩

end Item

/-- The items that can be obtained, where `admitted` are the texts that are read. The fields of a
    machine are open, so a machine can be put together from a store and anything else; the label
    and the address of a word are open as well. -/
inductive Obtained (admitted : String → Prop) : Item → Prop where
  | ofCodes {w : MicroWord} (write read alu jump jumpAddress : UInt8)
      (h : MicroWord.ofCodes write read alu jump jumpAddress = .ok w) : Obtained admitted (.word w)
  | ofBits {w : MicroWord} (packed : UInt32) (h : MicroWord.ofBits packed = .ok w) :
      Obtained admitted (.word w)
  | assembled {w : MicroWord} (source : String) (words : List MicroWord)
      (h : assemble source = .ok words) (hw : w ∈ words) : Obtained admitted (.word w)
  | withLabel {w : MicroWord} (label : String) (hw : Obtained admitted (.word w)) :
      Obtained admitted (.word (w.withLabel label))
  | placedAt {w : MicroWord} (address : UInt8) (hw : Obtained admitted (.word w)) :
      Obtained admitted (.word (w.placedAt address))
  | retarget {w : MicroWord} (jumpAddress : UInt8) (hw : Obtained admitted (.word w)) :
      Obtained admitted (.word (w.retarget jumpAddress))
  | renamed {w : MicroWord} (label : Option String) (address : Option UInt8)
      (hw : Obtained admitted (.word w)) : Obtained admitted (.word { w with label, address })
  | stored {s : ControlStore} {w : MicroWord} (address : UInt8)
      (hs : Obtained admitted (.store s)) (h : s.read address = some w) :
      Obtained admitted (.word w)
  | empty : Obtained admitted (.store .empty)
  | clear {s : ControlStore} (hs : Obtained admitted (.store s)) :
      Obtained admitted (.store s.clear)
  | write {s : ControlStore} {w : MicroWord} (address : UInt8) (hs : Obtained admitted (.store s))
      (hw : Obtained admitted (.word w)) : Obtained admitted (.store (s.write address w))
  | load {s : ControlStore} (program : List MicroWord) (hs : Obtained admitted (.store s))
      (hprogram : ∀ w ∈ program, Obtained admitted (.word w)) :
      Obtained admitted (.store (s.load program).1)
  | ofList {s : ControlStore} (places : List (Option MicroWord))
      (hplaces : ∀ w, some w ∈ places → Obtained admitted (.word w))
      (h : ControlStore.ofList places = .ok s) : Obtained admitted (.store s)
  | storeOf {m : Machine} (hm : Obtained admitted (.machine m)) : Obtained admitted (.store m.store)
  | new (table : ControlTable) : Obtained admitted (.machine (.new table))
  | made {store : ControlStore} (registers : RegisterFile) (status : StatusWord)
      (sequencer : Sequencer) (cycles : UInt64) (table : ControlTable)
      (hs : Obtained admitted (.store store)) :
      Obtained admitted (.machine { registers, status, sequencer, store, cycles, table })
  | loadInto {m : Machine} (program : List MicroWord) (hm : Obtained admitted (.machine m))
      (hprogram : ∀ w ∈ program, Obtained admitted (.word w)) :
      Obtained admitted (.machine (m.load program).1)
  | reset {m : Machine} (hm : Obtained admitted (.machine m)) : Obtained admitted (.machine m.reset)
  | step {m : Machine} (word : MicroWord) (hm : Obtained admitted (.machine m)) :
      Obtained admitted (.machine (m.step word).machine)
  | cycle {m : Machine} (hm : Obtained admitted (.machine m)) :
      Obtained admitted (.machine m.cycle.machine)
  | run {m : Machine} (limit : UInt64) (hm : Obtained admitted (.machine m)) :
      Obtained admitted (.machine (m.runLimited limit).machine)
  | restored {x : Item} (text : String) (htext : admitted text) (h : x.ReadFrom text) :
      Obtained admitted x

namespace ControlStore

/-- A store is made from a list exactly if the list is that of its places. -/
theorem ofList_eq_ok_iff (places : List (Option MicroWord)) (s : ControlStore) :
    ofList places = .ok s ↔ s.toList = places := by
  constructor
  · intro h
    unfold ofList at h
    split at h
    · cases h
      rfl
    · cases h
  · rintro rfl
    exact s.ofList_toList

-- The place of an address is a place of the list.
theorem mem_toList_of_read (s : ControlStore) (address : UInt8) (w : MicroWord)
    (h : s.read address = some w) : some w ∈ s.toList := by
  rw [toList, Vector.mem_toList_iff, ← h]
  exact Vector.getElem_mem _

theorem length_toList (s : ControlStore) : s.toList.length = 256 :=
  s.places.length_toList

/-- A store is read from a list of 256 items and from nothing else. -/
theorem items_of_ofJson? (j : Json) (s : ControlStore) (h : ofJson? j = some s) :
    ∃ items, j = .array items ∧ items.length = 256 := by
  cases j with
  | array items =>
      refine ⟨items, rfl, ?_⟩
      simp only [ofJson?, Json.items?, Option.bind_eq_bind, Option.bind_eq_some_iff] at h
      obtain ⟨places, hplaces, hs⟩ := h
      cases hlist : ofList places with
      | error e =>
          rw [hlist] at hs
          cases hs
      | ok t =>
          rw [Json.length_of_mapM _ _ _ hplaces, ← (ofList_eq_ok_iff places t).mp hlist,
            length_toList]
  | _ => cases h

end ControlStore

/-- A run leaves the store alone, as each of its cycles does. -/
theorem Machine.runLimited_store (m : Machine) (limit : UInt64) :
    (m.runLimited limit).machine.store = m.store := by
  by_cases hall : m.Completes limit.toNat
  · rw [m.runLimited_of_completes limit hall]
    exact (m.after_store_table _).1
  · obtain ⟨k, e, hk, hbefore, he⟩ := m.first_failure _ hall
    rw [m.runLimited_of_fails limit k e hk hbefore he]
    exact (m.after_store_table k).1

/-- What is obtained is narrow if what the texts give is. -/
theorem narrow_of_obtained (admitted : String → Prop)
    (htexts : ∀ (text : String) (x : Item), admitted text → x.ReadFrom text → x.Narrow) (x : Item)
    (hx : Obtained admitted x) : x.Narrow := by
  induction hx with
  | ofCodes write read alu jump jumpAddress h =>
      rintro v rfl
      exact ((MicroWord.ofCodes_eq_ok_iff _ _ _ _ _ _).mp h).2
  | ofBits packed h =>
      rintro v rfl
      exact ((MicroWord.ofBits_eq_ok_iff _ _).mp h).1
  | assembled source words h hw =>
      rintro v rfl
      exact ((printable_of_assemble source words h).each _ hw).narrow
  | withLabel _ _ ih | placedAt _ _ ih | retarget _ _ ih | renamed _ _ _ ih =>
      -- The codes are those of the word before.
      rintro v rfl
      have hw := ih _ rfl
      exact ⟨hw.write, hw.read, hw.alu, hw.jump⟩
  | stored address _ h ih =>
      rintro v rfl
      exact ih v ⟨address, h⟩
  | empty =>
      rintro v ⟨address, h⟩
      rw [ControlStore.read_empty] at h
      cases h
  | clear _ _ =>
      rintro v ⟨address, h⟩
      rw [ControlStore.read_clear] at h
      cases h
  | write address _ _ ihs ihw =>
      rintro v ⟨b, h⟩
      rw [ControlStore.read_write] at h
      split at h
      · exact ihw v (Option.some.inj h).symm
      · exact ihs v ⟨b, h⟩
  | load program _ _ ihs ihp | loadInto program _ _ ihs ihp =>
      rintro v ⟨address, h⟩
      rcases ControlStore.mem_of_read_load _ _ _ _ h with hread | hmem
      · exact ihs v ⟨address, hread⟩
      · exact ihp v hmem v rfl
  | ofList places _ h ih =>
      rintro v ⟨address, hread⟩
      have hmem := ControlStore.mem_toList_of_read _ _ _ hread
      rw [(ControlStore.ofList_eq_ok_iff _ _).mp h] at hmem
      exact ih v hmem v rfl
  | storeOf _ ih => exact ih
  | new table =>
      rintro v ⟨address, h⟩
      cases (ControlStore.read_empty address).symm.trans h
  | made _ _ _ _ _ _ ih => exact ih
  | reset _ ih => exact ih
  | step word _ ih => exact Item.narrow_of_store_eq (Machine.step_store_table _ word).1 ih
  | cycle _ ih => exact Item.narrow_of_store_eq (Machine.cycle_store_table _).1 ih
  | run limit _ ih => exact Item.narrow_of_store_eq (Machine.runLimited_store _ limit) ih
  | restored text htext h => exact htexts text _ htext h

/-- The words that are obtained have codes that fit in four bits exactly if the texts that are
    read give no others. That is so if no text is read, however words, stores and machines are
    made and whatever is done with them; if every text is read, nothing is ruled out. The codes
    that fit are those that the bits of a word give back. Every store has 256 places, and a list or
    a text of another number of places is not read as one. -/
theorem obtained_narrow_iff (admitted : String → Prop) :
    ((∀ x, Obtained admitted x → x.Narrow) ↔
      ∀ (text : String) (x : Item), admitted text → x.ReadFrom text → x.Narrow) ∧
    (∀ x, Obtained (fun _ => False) x → x.Narrow) ∧
    (∀ x, Obtained (fun _ => True) x) ∧
    (∀ w : MicroWord, w.Narrow → w.bits.toNat < 2 ^ 24) ∧
    (∀ w : MicroWord, w.Narrow ↔ MicroWord.ofBits w.bits = .ok w.bare) ∧
    (∀ s : ControlStore, s.toList.length = 256) ∧
    (∀ places s, ControlStore.ofList places = .ok s ↔ s.toList = places) ∧
    (∀ j s, ControlStore.ofJson? j = some s → ∃ items, j = .array items ∧ items.length = 256) := by
  refine ⟨⟨fun h text x htext hread => ?_, narrow_of_obtained admitted⟩,
    narrow_of_obtained _ ?_, fun x => ?_, fun w h => ?_, fun w => (w.ofBits_bits_iff).symm,
    ControlStore.length_toList, ControlStore.ofList_eq_ok_iff, ControlStore.items_of_ofJson?⟩
  · exact h x (.restored text htext hread)
  · exact fun _ _ hfalse => hfalse.elim
  · exact .restored _ trivial x.readFrom_compact
  · exact w.bits_lt h

/-- A call that is read from a text, loaded and executed. -/
theorem obtained_narrow_call :
    let j : Json := .record [("write", .natural 13), ("read", .natural 9), ("alu", .natural 8),
      ("jump", .natural 2), ("jump_address", .natural 64)]
    let w : MicroWord := { write := 13, read := 9, alu := 8, jump := 2, jumpAddress := 64 }
    let m : Machine := ((Machine.new .builtin).load [w.withLabel "start"]).1
    (Item.word w).ReadFrom j.compact ∧ (Item.machine (m.runLimited 1).machine).Narrow := by
  intro j w m
  have hread : (Item.word w).ReadFrom j.compact := by
    rw [Item.ReadFrom, Json.parse?_compact]
    rfl
  refine ⟨hread, (obtained_narrow_iff (fun text => text = j.compact)).1.mpr ?_ _ ?_⟩
  · rintro _ x rfl hx v hv
    cases x <;>
      simp only [Item.ReadFrom, Machine.ofText?, Json.parse?_compact, Option.bind_some] at hx
    · cases hv
      cases hx
      decide
    · cases hx
    · cases hx
  · refine .run 1 (.loadInto _ (.new .builtin) (fun v hv => ?_))
    cases List.mem_singleton.mp hv
    exact .withLabel "start" (.restored _ rfl hread)

/-- A text whose word has a write code above fifteen. It is read, alone as well as inside of a
    machine, and its bits are too wide to be those of a word. -/
theorem restored_word_overflows :
    let j : Json := .record [("write", .natural 16), ("read", .natural 0), ("alu", .natural 0),
      ("jump", .natural 0), ("jump_address", .natural 0)]
    let w : MicroWord := { write := 16, read := 0, alu := 0, jump := 0, jumpAddress := 0 }
    let m : Machine := { store := ControlStore.empty.write 0 w }
    (Item.word w).ReadFrom j.compact ∧ ¬ (Item.word w).Narrow ∧
      MicroWord.ofBits w.bits = .error (.tooWide 0x1000000) ∧
      (Item.machine m).ReadFrom m.toText ∧ ¬ (Item.machine m).Narrow := by
  intro j w m
  have hwide : ¬ w.Narrow := by decide
  have hread : (Item.word w).ReadFrom j.compact := by
    rw [Item.ReadFrom, Json.parse?_compact]
    rfl
  have hstored : m.store.read 0 = some w := by
    rw [ControlStore.read_write, if_pos rfl]
  have hbits : w.bits = 0x1000000 := by decide
  have hpacked : MicroWord.ofBits w.bits = .error (.tooWide 0x1000000) := by
    rw [hbits]
    exact if_pos (by decide)
  exact ⟨hread, fun h => hwide (h w rfl), hpacked, (Item.machine m).readFrom_compact,
    fun h => hwide (h w ⟨0, hstored⟩)⟩

end Microcode
