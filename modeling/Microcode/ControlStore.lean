import Microcode.MicroWord
/-!
# The Control Store

The memory that holds the microprogram: a place for a word at each of the 256 micro-addresses.

A program is placed word by word. A word with an assigned address goes there, and every other
word follows the word before it. When a word would have to follow the last address, the load
stops, and what was placed before stays.

## Main definitions

* `ControlStore`: The store.
* `ControlStore.read`, `ControlStore.write`: Access to one address.
* `ControlStore.clear`: Erasing every word.
* `ControlStore.load`: Placing a program.
* `ControlStore.programmed`: The words with their addresses.
* `ControlStore.ofList`, `ControlStore.toList`: Between stores and lists of places.

## Theorems

* `ControlStore.read_write`: What stands at an address after a word was put at one.
* `ControlStore.read_clear`: No word stands anywhere after all were erased.
-/

namespace Microcode

/-- The control store: an optional word at each micro-address. -/
structure ControlStore where
  places : Vector (Option MicroWord) 256
  deriving DecidableEq

/-- Why a program or a list does not fill a store. -/
inductive StoreError where
  | programTooLarge (size : Nat)
  | wrongSize (found : Nat)
  deriving DecidableEq, Repr

/-- The report of a store error. -/
def StoreError.message : StoreError → String
  | programTooLarge size =>
    "microprogram of " ++ toString size ++ " words runs past micro-address 0xFF"
  | wrongSize found => "control store holds 256 words, found " ++ toString found

namespace ControlStore

/-- The store without a word. -/
def empty : ControlStore :=
  ⟨Vector.replicate 256 none⟩

instance : Inhabited ControlStore := ⟨empty⟩

/-- The word at an address. -/
def read (s : ControlStore) (address : UInt8) : Option MicroWord :=
  getElem s.places address.toNat address.toNat_lt

/-- Puts a word at an address. -/
def write (s : ControlStore) (address : UInt8) (word : MicroWord) : ControlStore :=
  ⟨s.places.set address.toNat (some word) address.toNat_lt⟩

/-- Erases every word. -/
def clear (s : ControlStore) : ControlStore :=
  ⟨s.places.map (fun _ => none)⟩

@[simp] theorem read_empty (address : UInt8) : empty.read address = none := by
  simp [read, empty]

theorem read_write (s : ControlStore) (a b : UInt8) (word : MicroWord) :
    (s.write a word).read b = if a = b then some word else s.read b := by
  simp only [read, write, Vector.getElem_set, UInt8.toNat_inj]

@[simp] theorem read_clear (s : ControlStore) (address : UInt8) :
    s.clear.read address = none := by
  rw [read, clear, Vector.getElem_map]

/-- The place of a word that has the given place left to follow. -/
def placeOf (word : MicroWord) (next : Nat) : Nat :=
  match word.address with
  | some address => address.toNat
  | none => next

/-- Places words, the first one at `next` unless its address is assigned. The second component
    says whether every word found a place. -/
def place (s : ControlStore) (next : Nat) : List MicroWord → ControlStore × Bool
  | [] => (s, true)
  | word :: rest =>
    let n := placeOf word next
    if h : n < 256 then place ⟨s.places.set n (some word) h⟩ (n + 1) rest else (s, false)

/-- Places a program. A failed load leaves the words that it has placed. -/
def load (s : ControlStore) (program : List MicroWord) : ControlStore × Except StoreError Unit :=
  match s.place 0 program with
  | (loaded, true) => (loaded, .ok ())
  | (loaded, false) => (loaded, .error (.programTooLarge program.length))

/-- The words with their addresses, in the order of the addresses. -/
def programmed (s : ControlStore) : List (UInt8 × MicroWord) :=
  (List.finRange 256).filterMap
    (fun i => (s.places[i.val]).map (fun word => (UInt8.ofNat i.val, word)))

/-- The number of words. -/
def size (s : ControlStore) : Nat :=
  s.places.toList.countP Option.isSome

/-- Whether there is no word. -/
def isEmpty (s : ControlStore) : Bool :=
  s.size == 0

/-- The places as a list. -/
def toList (s : ControlStore) : List (Option MicroWord) :=
  s.places.toList

/-- The store with the given places. There have to be 256. -/
def ofList (places : List (Option MicroWord)) : Except StoreError ControlStore :=
  if h : places.length = 256 then .ok ⟨⟨places.toArray, by simpa using h⟩⟩
  else .error (.wrongSize places.length)

/-- A summary of the store. -/
def text (s : ControlStore) : String :=
  "Microstore \x7b programmed: " ++ toString s.size ++ ", total: 256 \x7d"

/-- A store as JSON: the list of its places. -/
def toJson (s : ControlStore) : Json :=
  .array (s.toList.map (Json.nullable MicroWord.toJson))

/-- The store that a JSON value gives. -/
def ofJson? (j : Json) : Option ControlStore := do
  let places ← j.items? (Json.nullable? MicroWord.ofJson?)
  (ofList places).toOption

end ControlStore

end Microcode
