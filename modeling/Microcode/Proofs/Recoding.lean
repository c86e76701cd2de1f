import Mathlib.Logic.Equiv.Defs
import Microcode.Proofs.Codes
import Microcode.Proofs.Decoding
/-!
# Recoding a Microprogram

What can be done to a program and its table without a difference to any run.

The rows of a table can be put in another order if the codes of the program are exchanged
accordingly. Rows that no stored word selects can be edited at will. And the label and the address
that a word remembers can be changed, since they are for the listing. All three leave each word
with the rows that it selects, which is `ControlTable.SameRows`, and words that select the same
rows have the same meaning.

A new order of the rows is a permutation of the sixteen codes for each column. A code above fifteen
has no row before and has none afterwards.

## Main definitions

* `ControlTable.SameRows`: Two words select the same rows, each from its own table.
* `newCode`, `reorder`: A new order of sixteen rows, for the codes and for the column.
* `Recoding`, `Recoding.word`, `Recoding.table`: A new order of each of the four columns.
* `ControlStore.mapWords`: A store with every word exchanged for another.
* `Machine.recoded`: A machine with the rows in another order and its program recoded.

## Theorems

* `SameRows.meaning`: Words that select the same rows have the same meaning.
* `getElem?_reorder`: The new code of a row selects the row in the new order.
* `load_mapWords`: A program can be recoded before or after it is loaded.
* `runs_depend_on_meanings`: Runs depend on nothing but the meanings of words.
-/

namespace Microcode

/-- Two words select the same rows, each from its own table, and have the same jump address. A code
    without a row is as good as any other code without a row. -/
structure ControlTable.SameRows (t t' : ControlTable) (word word' : MicroWord) : Prop where
  write : t.write[word.write.toNat]? = t'.write[word'.write.toNat]?
  read : t.read[word.read.toNat]? = t'.read[word'.read.toNat]?
  alu : t.alu[word.alu.toNat]? = t'.alu[word'.alu.toNat]?
  jump : t.jump[word.jump.toNat]? = t'.jump[word'.jump.toNat]?
  jumpAddress : word.jumpAddress = word'.jumpAddress

/-- The code for a row that has moved, where a code without a row stays as it is. -/
def newCode (order : Equiv.Perm (Fin 16)) (code : UInt8) : UInt8 :=
  if h : code.toNat < 16 then UInt8.ofNat (order ⟨code.toNat, h⟩) else code

/-- A column with its rows in another order. -/
def reorder {α : Type} (order : Equiv.Perm (Fin 16)) (column : Vector α 16) : Vector α 16 :=
  Vector.ofFn (fun i => column[order.symm i])

/-- A new order for the rows of each column. -/
structure Recoding where
  write : Equiv.Perm (Fin 16)
  read : Equiv.Perm (Fin 16)
  alu : Equiv.Perm (Fin 16)
  jump : Equiv.Perm (Fin 16)

/-- A word with the new codes. -/
def Recoding.word (σ : Recoding) (word : MicroWord) : MicroWord :=
  { word with
    write := newCode σ.write word.write
    read := newCode σ.read word.read
    alu := newCode σ.alu word.alu
    jump := newCode σ.jump word.jump }

/-- A table with its rows in the new order. -/
def Recoding.table (σ : Recoding) (t : ControlTable) : ControlTable where
  write := reorder σ.write t.write
  read := reorder σ.read t.read
  alu := reorder σ.alu t.alu
  jump := reorder σ.jump t.jump

/-- A store with every word exchanged for another. -/
def ControlStore.mapWords (f : MicroWord → MicroWord) (s : ControlStore) : ControlStore :=
  ⟨s.places.map (Option.map f)⟩

/-- A machine with the rows of its table in another order, and the program in its store recoded
    for them. -/
def Machine.recoded (m : Machine) (σ : Recoding) : Machine :=
  { m with store := m.store.mapWords σ.word, table := σ.table m.table }

namespace ControlTable

-- A row that is found or missing is all that decoding sees of a code.
theorem entry_congr {α : Type} (column column' : Vector α 16) (field : Field)
    (code code' : UInt8) (h : column[code.toNat]? = column'[code'.toNat]?) :
    (∃ a, entry column field code = .ok a ∧ entry column' field code' = .ok a) ∨
    (∃ e e', entry column field code = .error e ∧ entry column' field code' = .error e') := by
  unfold entry
  rw [h]
  rcases column'[code'.toNat]? with _ | a
  · exact Or.inr ⟨_, _, rfl, rfl⟩
  · exact Or.inl ⟨a, rfl, rfl⟩

/-- Words that select the same rows have the same meaning. -/
theorem SameRows.meaning {t t' : ControlTable} {word word' : MicroWord}
    (h : t.SameRows t' word word') : t.meaning word = t'.meaning word' := by
  have halu : (t.decodeAlu word.alu).toOption = (t'.decodeAlu word'.alu).toOption := by
    rw [decodeAlu_toOption, decodeAlu_toOption, h.alu]
  unfold ControlTable.meaning decodeWrite decodeRead decodeJump
  rcases entry_congr _ _ .write _ _ h.write with ⟨_, hw, hw'⟩ | ⟨_, _, hw, hw'⟩
  · rcases entry_congr _ _ .read _ _ h.read with ⟨_, hr, hr'⟩ | ⟨_, _, hr, hr'⟩
    · rcases entry_congr _ _ .jump _ _ h.jump with ⟨_, hj, hj'⟩ | ⟨_, _, hj, hj'⟩
      · simp only [hw, hw', hr, hr', hj, hj', halu, h.jumpAddress]
      · simp only [hw, hw', hr, hr', hj, hj']
    · simp only [hw, hw', hr, hr']
  · simp only [hw, hw']

end ControlTable

/-- The new code of a row selects the row in the new order. -/
theorem getElem?_reorder {α : Type} (order : Equiv.Perm (Fin 16)) (column : Vector α 16)
    (code : UInt8) :
    (reorder order column)[(newCode order code).toNat]? = column[code.toNat]? := by
  unfold newCode reorder
  by_cases h : code.toNat < 16
  · have hlt := (order ⟨code.toNat, h⟩).isLt
    have hcode : (UInt8.ofNat (order ⟨code.toNat, h⟩)).toNat = (order ⟨code.toNat, h⟩).val :=
      UInt8.toNat_ofNat_of_lt' (Nat.lt_trans hlt (by decide))
    rw [dif_pos h, hcode, Vector.getElem?_eq_getElem hlt, Vector.getElem?_eq_getElem h,
      Vector.getElem_ofFn]
    simp only [Fin.eta, Equiv.symm_apply_apply, Fin.getElem_fin]
  · rw [dif_neg h, Vector.getElem?_eq_none (by omega), Vector.getElem?_eq_none (by omega)]

theorem Recoding.sameRows (σ : Recoding) (t : ControlTable) (word : MicroWord) :
    t.SameRows (σ.table t) word (σ.word word) where
  write := (getElem?_reorder σ.write t.write word.write).symm
  read := (getElem?_reorder σ.read t.read word.read).symm
  alu := (getElem?_reorder σ.alu t.alu word.alu).symm
  jump := (getElem?_reorder σ.jump t.jump word.jump).symm
  jumpAddress := rfl

/-- What a word remembers for the listing has no part in its meaning. -/
theorem ControlTable.meaning_bare (t : ControlTable) : t.meaning ∘ MicroWord.bare = t.meaning :=
  rfl

namespace ControlStore

theorem read_mapWords (f : MicroWord → MicroWord) (s : ControlStore) (address : UInt8) :
    (s.mapWords f).read address = (s.read address).map f := by
  rw [read, read, mapWords, Vector.getElem_map]

/-- Words can be exchanged before or after they are placed, if their addresses stay. -/
theorem place_mapWords (f : MicroWord → MicroWord) (hf : ∀ w, (f w).address = w.address)
    (s : ControlStore) (next : Nat) (words : List MicroWord) :
    (s.mapWords f).place next (words.map f) =
      ((s.place next words).1.mapWords f, (s.place next words).2) := by
  induction words generalizing s next with
  | nil => rfl
  | cons word words ih =>
      have hplace : placeOf (f word) next = placeOf word next := by
        rw [placeOf, placeOf, hf]
      simp only [List.map_cons, place, hplace]
      by_cases hn : placeOf word next < 256
      · rw [dif_pos hn, dif_pos hn, ← ih]
        simp only [mapWords, Vector.map_set, Option.map_some]
      · rw [dif_neg hn, dif_neg hn]

/-- A program can be recoded before or after it is loaded. -/
theorem load_mapWords (f : MicroWord → MicroWord) (hf : ∀ w, (f w).address = w.address)
    (s : ControlStore) (program : List MicroWord) :
    (s.mapWords f).load (program.map f) =
      ((s.load program).1.mapWords f, (s.load program).2) := by
  unfold load
  rw [place_mapWords f hf, List.length_map]
  rcases s.place 0 program with ⟨loaded, _ | _⟩ <;> rfl

end ControlStore

namespace Machine

/-- A machine can be exchanged for its recoded one. -/
theorem interchangeable_recoded (m : Machine) (σ : Recoding) :
    m.Interchangeable (m.recoded σ) := by
  refine ⟨⟨rfl, rfl, rfl, rfl, rfl, rfl⟩, fun address => ?_⟩
  rw [recoded, ControlStore.read_mapWords, Option.map_map]
  refine Option.map_congr (fun word _ => ?_)
  exact (σ.sameRows m.table word).meaning

/-- Runs depend on nothing but the meanings of words. Machines that agree and that find words with
    the same meaning at the same addresses run alike, whatever codes and tables give the words
    that meaning. So it makes no difference if the rows of the table are put in another order and
    the program is recoded for it, before or after it is loaded; if rows are edited that no stored
    word selects; or if stored words get other labels and addresses. -/
theorem runs_depend_on_meanings :
    (∀ m m' : Machine, m.Interchangeable m' → m.RunsAlike m') ∧
    (∀ (m : Machine) (σ : Recoding), m.RunsAlike (m.recoded σ) ∧
      ∀ program, (m.recoded σ).load (program.map σ.word) =
        ((m.load program).1.recoded σ, (m.load program).2)) ∧
    (∀ (m : Machine) (table : ControlTable),
      (∀ address word, m.store.read address = some word → m.table.SameRows table word word) →
      m.RunsAlike { m with table }) ∧
    (∀ (m : Machine) (store : ControlStore),
      (∀ address, (m.store.read address).map MicroWord.bare =
        (store.read address).map MicroWord.bare) →
      m.RunsAlike { m with store }) := by
  refine ⟨fun m m' h => h.runsAlike, fun m σ => ⟨?_, fun program => ?_⟩, fun m table h => ?_,
    fun m store h => ?_⟩
  · exact (m.interchangeable_recoded σ).runsAlike
  · rw [load, load, recoded, ControlStore.load_mapWords]
    · rfl
    · exact fun _ => rfl
  · refine Interchangeable.runsAlike ⟨⟨rfl, rfl, rfl, rfl, rfl, rfl⟩, fun address => ?_⟩
    exact Option.map_congr (fun word hword => (h address word hword).meaning)
  · refine Interchangeable.runsAlike ⟨⟨rfl, rfl, rfl, rfl, rfl, rfl⟩, fun address => ?_⟩
    change (m.store.read address).map m.table.meaning = (store.read address).map m.table.meaning
    rw [← m.table.meaning_bare, ← Option.map_map, ← Option.map_map, h address]

/-- A call that is stored with the code of BR-lo, and the same call under a table in which BR-lo has
    another code, with a label; and that an ALU row which no word selects is filled. -/
theorem runs_depend_on_meanings_call :
    let word : MicroWord := { write := 4, read := 0, alu := 13, jump := 2, jumpAddress := 0x10 }
    let word' : MicroWord := { word with write := 5, label := some "one" }
    let swapped : ControlTable :=
      { ControlTable.builtin with
        write := (ControlTable.builtin.write.set 4 (.reg .brHi)).set 5 (.reg .brLo) }
    let filled : ControlTable :=
      { ControlTable.builtin with alu := ControlTable.builtin.alu.set 6 (some .aPlus1) }
    let m : Machine := { store := ControlStore.empty.write 0 word }
    let m' : Machine := { store := ControlStore.empty.write 0 word', table := swapped }
    m.cycle.result =
      .ok { next := 0x10, status := { positive := true }, mutated := true,
            destination := some .brLo } ∧
    m.RunsAlike m' ∧ m.RunsAlike { m with table := filled } ∧
      m.RunsAlike { m with store := ControlStore.empty.write 0 (word.withLabel "one") } := by
  intro word word' swapped filled m m'
  have hread : ∀ w address, (ControlStore.empty.write 0 w).read address =
      if 0 = address then some w else none := by
    intro w address
    rw [ControlStore.read_write, ControlStore.read_empty]
  refine ⟨rfl, runs_depend_on_meanings.1 m m' ⟨⟨rfl, rfl, rfl, rfl, rfl, rfl⟩, ?_⟩,
    runs_depend_on_meanings.2.2.1 m filled ?_, runs_depend_on_meanings.2.2.2 m _ ?_⟩
  · intro address
    change ((ControlStore.empty.write 0 word).read address).map _ =
      ((ControlStore.empty.write 0 word').read address).map _
    rw [hread, hread]
    split <;> rfl
  · intro address w hw
    change (ControlStore.empty.write 0 word).read address = some w at hw
    rw [hread, Option.ite_none_right_eq_some, Option.some.injEq] at hw
    rw [← hw.2]
    exact ⟨rfl, rfl, rfl, rfl, rfl⟩
  · intro address
    change ((ControlStore.empty.write 0 word).read address).map _ = _
    rw [hread, hread]
    split <;> rfl

end Machine

end Microcode
