import Microcode.Proofs.Listing.Assembling
/-!
# What an Assembly Yields

Every list of words that comes out of the assembler can be printed and assembled again.

`Printable` collects what that takes: codes that fit, an address for every word, and labels that
are names and differ from each other. An assembly has more to keep track of than its words, and
the invariant is accordingly wider. A name may wait for its word, or be bound to an address
without any word carrying it, and a new label has to differ from all of them; so `Orderly` holds
the names apart, and knows that the labels of the words are among those that are bound.

Resolving the references comes last and changes nothing but jump addresses. That is stated by
erasing them: two lists are alike if they are equal once all jump addresses are zero.

## Main definitions

* `MicroWord.Printable`: A word that is found again in its listing.
* `Listing.labels`: The labels of some words.
* `Listing.Printable`: A list of words that is found again in its listing.
* `Assembly.Orderly`: The invariant of the assembler.
* `Listing.erased`: The words with all jump addresses zero.

## Theorems

* `printable_congr`: Jump addresses have no part in being printable.
* `orderly_labelled`, `orderly_placed`: The effects of a line preserve the invariant.
* `orderly_line`: A line preserves the invariant.
* `erased_resolve`: Resolving a reference changes only a jump address.
* `printable_of_assemble`: What is assembled is printable.
-/

namespace Microcode

/-- A word that is found again in its listing. -/
structure MicroWord.Printable (w : MicroWord) : Prop where
  narrow : w.Narrow
  placed : ∃ address, w.address = some address
  label : ∀ name, w.label = some name → Listing.IsLabel name

namespace Listing

/-- The labels of some words. -/
def labels (words : List MicroWord) : List String :=
  words.filterMap (·.label)

/-- A list of words that is found again in its listing. -/
structure Printable (words : List MicroWord) : Prop where
  each : ∀ w, w ∈ words → w.Printable
  distinct : (labels words).Nodup

/-- The words with all jump addresses zero. -/
def erased (words : List MicroWord) : List MicroWord :=
  words.map (·.retarget 0)

theorem labels_cons (w : MicroWord) (ws : List MicroWord) :
    labels (w :: ws) = w.label.toList ++ labels ws := by
  cases hl : w.label with
  | none => rw [labels, List.filterMap_cons_none hl]; rfl
  | some name => rw [labels, List.filterMap_cons_some hl]; rfl

theorem labels_append (ws vs : List MicroWord) : labels (ws ++ vs) = labels ws ++ labels vs :=
  List.filterMap_append

/-- Jump addresses have no part in being printable. -/
theorem printable_congr (ws vs : List MicroWord) (h : erased vs = erased ws)
    (hws : Printable ws) : Printable vs := by
  have hlabels : ∀ us, labels us = labels (erased us) := by
    intro us
    rw [labels, labels, erased, List.filterMap_map]
    rfl
  refine ⟨fun v hv => ?_, ?_⟩
  · -- Some word of the other list has all the fields of this one but the jump address.
    have hmem : v.retarget 0 ∈ erased ws := by
      rw [← h]
      exact List.mem_map_of_mem hv
    rcases List.mem_map.mp hmem with ⟨w, hw, heq⟩
    have hp := hws.each w hw
    cases v
    cases w
    simp only [MicroWord.retarget, MicroWord.mk.injEq] at heq
    rcases heq with ⟨rfl, rfl, rfl, rfl, _, rfl, rfl⟩
    exact ⟨⟨hp.narrow.write, hp.narrow.read, hp.narrow.alu, hp.narrow.jump⟩, hp.placed, hp.label⟩
  · rw [hlabels, h, ← hlabels]
    exact hws.distinct

end Listing

namespace Assembly

/-- The invariant of the assembler. The labels of the words are distinct because they are bound
    and every name is bound once. -/
structure Orderly (a : Assembly) : Prop where
  words : ∀ w, w ∈ a.words.toList → w.Printable
  names : ∀ name, name ∈ a.names → Listing.IsLabel name
  distinct : a.names.Nodup
  bound : ∀ name, name ∈ Listing.labels a.words.toList → name ∈ a.symbols.map Prod.fst
  once : (Listing.labels a.words.toList).Nodup

/-- The invariant holds before the first line. -/
theorem orderly_empty : Orderly {} where
  words _ h := absurd h List.not_mem_nil
  names _ h := absurd h List.not_mem_nil
  distinct := List.nodup_nil
  bound _ h := absurd h List.not_mem_nil
  once := List.nodup_nil

/-- A new label is one more name, and no word carries it yet. -/
theorem orderly_labelled (a : Assembly) (line : Nat) (token : Token)
    (htoken : Listing.IsToken token) (hne : Listing.labelName token ≠ "")
    (hnew : Listing.labelName token ∉ a.names) (ha : a.Orderly) :
    (a.labelled line (Listing.labelName token)).Orderly := by
  refine ⟨ha.words, fun name hname => ?_, ?_, ha.bound, ha.once⟩
  · rw [names_labelled, List.mem_append, List.mem_singleton] at hname
    rcases hname with hold | rfl
    · exact ha.names name hold
    · exact Listing.isLabel_labelName token htoken hne
  · rw [names_labelled, List.nodup_append]
    refine ⟨ha.distinct, List.pairwise_singleton _ _, fun name hold other hother => ?_⟩
    rw [List.mem_singleton.mp hother]
    intro heq
    rw [heq] at hold
    exact hnew hold

/-- The label of a word was waiting for it. -/
theorem mem_waiting_of_wordAt (a : Assembly) (line : Nat) (hi mid : UInt8) (target : Target)
    (name : String) (h : (a.wordAt line hi mid target).label = some name) :
    name ∈ a.waiting.map Prod.fst := by
  rcases Option.map_eq_some_iff.mp h with ⟨entry, hlast, rfl⟩
  exact List.mem_map_of_mem (List.mem_of_getLast? hlast)

/-- A word takes the last of the waiting labels, which no word before it can have. -/
theorem orderly_placed (a : Assembly) (line : Nat) (hi mid : UInt8) (target : Target)
    (ha : a.Orderly) : (a.placed line hi mid target).Orderly := by
  have hwords : (a.placed line hi mid target).words.toList =
      a.words.toList ++ [a.wordAt line hi mid target] := Array.toList_push
  have hlabels : Listing.labels (a.placed line hi mid target).words.toList =
      Listing.labels a.words.toList ++ (a.wordAt line hi mid target).label.toList := by
    rw [hwords, Listing.labels_append, Listing.labels_cons]
    exact congrArg _ (List.append_nil _)
  have hwaiting := fun name h => a.mem_waiting_of_wordAt line hi mid target name
    (Option.mem_toList.mp h)
  have hsymbols : (a.placed line hi mid target).symbols.map Prod.fst = a.names := by
    have hnames := a.names_placed line hi mid target
    rw [names] at hnames
    exact (List.append_nil _).symm.trans hnames
  refine ⟨fun w hw => ?_, ?_, ?_, ?_, ?_⟩
  · rw [hwords, List.mem_append, List.mem_singleton] at hw
    rcases hw with hold | rfl
    · exact ha.words w hold
    · exact ⟨⟨(MicroWord.nibbles_le hi).1, (MicroWord.nibbles_le hi).2,
        (MicroWord.nibbles_le mid).1, (MicroWord.nibbles_le mid).2⟩, ⟨_, rfl⟩,
        fun name h => ha.names name (List.mem_append_right _
          (a.mem_waiting_of_wordAt line hi mid target name h))⟩
  · rw [names_placed]
    exact ha.names
  · rw [names_placed]
    exact ha.distinct
  · intro name hname
    rw [hlabels, List.mem_append] at hname
    rw [hsymbols]
    rcases hname with hold | hnew
    · exact List.mem_append_left _ (ha.bound name hold)
    · exact List.mem_append_right _ (hwaiting name hnew)
  · rw [hlabels, List.nodup_append]
    -- What waits is apart from what is bound, and the labels of the words are bound.
    have happart := (List.nodup_append.mp ha.distinct).2.2
    refine ⟨ha.once, ?_, fun name hold other hnew => ?_⟩
    · cases (a.wordAt line hi mid target).label with
      | none => exact List.nodup_nil
      | some name => exact List.pairwise_singleton _ name
    · exact happart name (ha.bound name hold) other (hwaiting other hnew)

/-- A line preserves the invariant. -/
theorem orderly_line (a b : Assembly) (numbered : List Char × Nat) (ha : a.Orderly)
    (h : a.line numbered = .ok b) : b.Orderly := by
  refine line_preserves Orderly orderly_labelled ?_ ?_ a b numbered ha h
  · intro c address hc
    exact ⟨hc.words, hc.names, hc.distinct, hc.bound, hc.once⟩
  · intro c line hi mid target _ hc
    exact orderly_placed c line hi mid target hc

/-- Resolving a reference changes only a jump address. -/
theorem erased_resolve (symbols : List (String × UInt8)) (words words' : Array MicroWord)
    (r : Reference) (h : resolve symbols words r = .ok words') :
    Listing.erased words'.toList = Listing.erased words.toList := by
  unfold resolve at h
  cases hlookup : symbols.lookup r.label with
  | none =>
      rw [hlookup] at h
      cases h
  | some address =>
      rw [hlookup] at h
      cases h
      rw [Array.toList_modify, Listing.erased, Listing.erased]
      refine List.ext_getElem? (fun i => ?_)
      rw [List.getElem?_map, List.getElem?_map, List.getElem?_modify]
      cases words.toList[i]? with
      | none => rfl
      | some w =>
          simp only [Option.map_eq_map, Option.map_some, Option.some.injEq]
          split
          · rfl
          · rfl

/-- Lines preserve the invariant. -/
theorem orderly_read (lines : List (List Char × Nat)) (a b : Assembly) (ha : a.Orderly)
    (h : lines.foldlM line a = .ok b) : b.Orderly :=
  foldlM_preserves Orderly line (fun c x d hc hx => orderly_line c d x hc hx) lines a b ha h

/-- The words of a finished assembly are those that were read, up to their jump addresses. -/
theorem erased_finish (a b : Assembly) (h : a.finish = .ok b) :
    Listing.erased b.words.toList = Listing.erased a.words.toList := by
  rcases (a.finish_eq_ok_iff b).mp h with ⟨_, words, hwords, rfl⟩
  refine foldlM_preserves (fun ws : Array MicroWord =>
    Listing.erased ws.toList = Listing.erased a.words.toList) _ ?_ _ _ words rfl hwords
  intro ws r ws' hws hr
  rw [erased_resolve _ ws ws' r hr, hws]

end Assembly

/-- What is assembled is printable. -/
theorem printable_of_assemble (source : String) (words : List MicroWord)
    (h : assemble source = .ok words) : Listing.Printable words := by
  rcases (assemble_eq_ok_iff source words).mp h with ⟨a, b, hread, hfinish, rfl⟩
  have ha : a.Orderly := Assembly.orderly_read _ {} a Assembly.orderly_empty hread
  exact Listing.printable_congr a.words.toList b.words.toList (Assembly.erased_finish a b hfinish)
    ⟨ha.words, ha.once⟩

end Microcode
