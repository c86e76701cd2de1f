import Mathlib.Data.Option.Basic
import Microcode.Proofs.Listing.Program
/-!
# What a Program Means

The words of a program, each with everything that the lines around it say about it.

A word depends on the lines in front of it by its address, which is where the counter stands, and
by its label, which is the last one since the word before. It depends on the whole program by its
jump address, if that is the address of a label: `LabelAt` looks ahead from the line of the label
to the first word, and stops at the end of the program if there is none. That a label waits for
its word, that a reference is written as zero and patched later, and what else an assembler does
in one pass has no place here.

A program whose labels are distinct means one list of words (`means_unique`).

## Main definitions

* `Listing.LabelAt`: The address of a label.
* `Listing.Drafts`: A word as the lines in front of it determine it.
* `Listing.Points`: The jump address that a word is given.
* `Listing.WordOf`: A word is what its line says.
* `Listing.Means`: The words are what a program says.

## Theorems

* `labelAt_of_open`, `labelAt_of_word`: A label that waits gets the address of the next word.
* `labelAt_unique`: Distinct labels have one address each.
* `means_unique`: A program whose labels are distinct means one list of words.
-/

namespace Microcode

namespace Listing

/-- A label has an address: that of the first word at its line or behind it, or, if there is no
    such word, the address past the program. -/
def LabelAt (program : List Statement) (name : String) (address : Nat) : Prop :=
  ∃ before s after, program = before ++ s :: after ∧ s.label = some name ∧
    address = counter (before ++ (s :: after).takeWhile (fun t => !t.isWord))

/-- A word as the lines in front of it determine it, that is, all of it but its jump address. -/
structure Drafts (before : List Statement) (s : Statement) (hi mid : UInt8) (w : MicroWord) :
    Prop where
  write : w.write.toNat = hi.toNat / 16
  read : w.read.toNat = hi.toNat % 16
  alu : w.alu.toNat = mid.toNat / 16
  jump : w.jump.toNat = mid.toNat % 16
  address : w.address.map UInt8.toNat = some (counter before)
  /-- The last label since the word before. -/
  label : w.label = (labelNames (openLines before ++ [s])).getLast?

/-- A jump address is what a word says about it. -/
def Points (program : List Statement) : Target → UInt8 → Prop
  | .fixed address, jumpAddress => jumpAddress = address
  | .label name, jumpAddress => LabelAt program name jumpAddress.toNat

/-- A word is what its line says, behind the lines in front of it and within the program. -/
structure WordOf (program before : List Statement) (s : Statement) (hi mid : UInt8)
    (target : Target) (w : MicroWord) : Prop extends Drafts before s hi mid w where
  points : Points program target w.jumpAddress

/-- The words are what a program says: one for each line with a word, in the order of the
    lines. -/
structure Means (program : List Statement) (words : List MicroWord) : Prop where
  length : words.length = program.countP Statement.isWord
  words : ∀ before s after hi mid target, program = before ++ s :: after →
    s.body = .word hi mid target →
      ∃ w, words[before.countP Statement.isWord]? = some w ∧
        WordOf program before s hi mid target w

/-- A label that waits gets the address of the next word, or the address past the program. -/
theorem labelAt_of_open (program rest : List Statement) (name : String)
    (h : name ∈ labelNames (openLines program)) :
    LabelAt (program ++ rest) name
      (counter (program ++ rest.takeWhile (fun t => !t.isWord))) := by
  rcases List.mem_filterMap.mp h with ⟨s, hs, hname⟩
  rcases exists_openLines program with ⟨front, hfront⟩
  rcases List.append_of_mem hs with ⟨mid, others, hsplit⟩
  have hprogram : program = front ++ mid ++ s :: others := by
    rw [List.append_assoc, ← hsplit, ← hfront]
  -- From the label on there are no words in the program itself.
  have hopen : ∀ t, t ∈ s :: others → (!t.isWord) = true := by
    intro t ht
    rw [isWord_of_mem_openLines program t, Bool.not_false]
    rw [hsplit]
    exact List.mem_append_right mid ht
  refine ⟨front ++ mid, s, others ++ rest, ?_, hname, ?_⟩
  · rw [← List.cons_append, ← List.append_assoc, ← hprogram]
  · rw [← List.cons_append, List.takeWhile_append_of_pos hopen, ← List.append_assoc, ← hprogram]

/-- A word gives its address to the labels since the word before, its own among them. -/
theorem labelAt_of_word (program rest : List Statement) (s : Statement) (name : String)
    (hword : s.isWord = true) (h : name ∈ labelNames (openLines program ++ [s])) :
    LabelAt (program ++ s :: rest) name (counter program) := by
  have hstop : (s :: rest).takeWhile (fun t => !t.isWord) = [] :=
    List.takeWhile_cons_of_neg (by simp [hword])
  rw [labelNames_concat, List.mem_append, Option.mem_toList] at h
  rcases h with hopen | hown
  · have hlabel := labelAt_of_open program (s :: rest) name hopen
    rw [hstop, List.append_nil] at hlabel
    exact hlabel
  · refine ⟨program, s, rest, rfl, hown, ?_⟩
    rw [hstop, List.append_nil]

/-- Distinct labels have one address each. -/
theorem labelAt_unique (program : List Statement) (name : String) (m n : Nat)
    (h : (labelNames program).Nodup) (hm : LabelAt program name m) (hn : LabelAt program name n) :
    m = n := by
  rcases hm with ⟨before, s, after, rfl, hs, rfl⟩
  rcases hn with ⟨before', t, after', hsplit, ht, rfl⟩
  -- A second line with the label would make it stand in the list of labels twice.
  have htwice : ∀ front u mid v back, before ++ s :: after = front ++ u :: (mid ++ v :: back) →
      u.label = some name → v.label ≠ some name := by
    intro front u mid v back heq hu hv
    rw [heq, labelNames, List.filterMap_append, List.filterMap_cons_some hu,
      List.filterMap_append, List.filterMap_cons_some hv] at h
    refine (List.nodup_cons.mp (List.nodup_append.mp h).2.1).1 ?_
    exact List.mem_append_right _ (List.mem_cons_self ..)
  rcases split_cases before after before' after' s t hsplit with
    ⟨rfl, rfl, rfl⟩ | ⟨mid, rfl, rfl⟩ | ⟨mid, rfl, rfl⟩
  · rfl
  · exact absurd ht (htwice before s mid t after' rfl hs)
  · exact absurd hs (htwice before' t mid s after hsplit ht)

-- Another jump address leaves the rest of a word as it is.
theorem drafts_retarget (before : List Statement) (s : Statement) (hi mid jumpAddress : UInt8)
    (w : MicroWord) (h : Drafts before s hi mid w) :
    Drafts before s hi mid (w.retarget jumpAddress) :=
  ⟨h.write, h.read, h.alu, h.jump, h.address, h.label⟩

/-- Two words that are what the same line says are equal. -/
theorem wordOf_unique (program before : List Statement) (s : Statement) (hi mid : UInt8)
    (target : Target) (w v : MicroWord) (hnodup : (labelNames program).Nodup)
    (hw : WordOf program before s hi mid target w) (hv : WordOf program before s hi mid target v) :
    w = v := by
  have hjump : w.jumpAddress = v.jumpAddress := by
    cases target with
    | fixed address => exact hw.points.trans hv.points.symm
    | label name =>
        exact UInt8.toNat_inj.mp (labelAt_unique program name _ _ hnodup hw.points hv.points)
  have haddress : w.address = v.address :=
    Option.map_injective (fun _ _ => UInt8.toNat_inj.mp) (hw.address.trans hv.address.symm)
  have hcode : ∀ {a b : UInt8} {n : Nat}, a.toNat = n → b.toNat = n → a = b :=
    fun ha hb => UInt8.toNat_inj.mp (ha.trans hb.symm)
  cases w
  cases v
  simp only [MicroWord.mk.injEq]
  exact ⟨hcode hw.write hv.write, hcode hw.read hv.read, hcode hw.alu hv.alu,
    hcode hw.jump hv.jump, hjump, hw.label.trans hv.label.symm, haddress⟩

/-- A program whose labels are distinct means one list of words. -/
theorem means_unique (program : List Statement) (words words' : List MicroWord)
    (hnodup : (labelNames program).Nodup) (h : Means program words) (h' : Means program words') :
    words = words' := by
  refine List.ext_getElem? (fun i => ?_)
  by_cases hi : i < program.countP Statement.isWord
  · rcases exists_split_of_lt program i hi with ⟨before, s, after, hsplit, hs, rfl⟩
    rcases (isWord_iff s).mp hs with ⟨hi, mid, target, hbody⟩
    rcases h.words before s after hi mid target hsplit hbody with ⟨w, hw, hword⟩
    rcases h'.words before s after hi mid target hsplit hbody with ⟨v, hv, hword'⟩
    rw [hw, hv, wordOf_unique program before s hi mid target w v hnodup hword hword']
  · rw [List.getElem?_eq_none (h.length ▸ Nat.le_of_not_lt hi),
      List.getElem?_eq_none (h'.length ▸ Nat.le_of_not_lt hi)]

end Listing

end Microcode
