import Microcode.Proofs.Listing.Columns
import Microcode.Proofs.Listing.Printable
/-!
# Reassembly

A printed listing assembles to the words that were printed.

The printer and the assembler both walk along the words with an address in hand. The printer
leaves an `ORG` line out where the address follows from the word before, and `next` is the
address that it counts on; the assembler has a running address. The two are in step as long as
the running address is `next` whenever there is one, and behind the last address there is none,
so a word that is printed there gets an `ORG` line however the assembler counts on.

`Gains` is what the lines of some words do to an assembly. Nothing else about the assembly is
needed to go on: no label waits, no reference was added, and the names are those of the words.

## Main definitions

* `Assembly.Gains`: An assembly has taken in some words.
* `Assembly.read`: The assembly after some lines.

## Theorems

* `line_of_blank`, `line_originRow`, `line_wordRow`: What the printed lines do.
* `read_origin`: The running address is set, by an `ORG` line or by the word before.
* `read_rows`: The rows of some words add these words.
* `read_disassemble`: All lines of a printed listing add the words that were printed.
* `assemble_disassemble`: A printable list is found again.
* `reassembly`: Assembling and printing are inverse where the assembler succeeds.
-/

namespace Microcode

namespace Assembly

open Listing

/-- The assembly `b` is `a` with some words more, and no label waits. -/
structure Gains (a b : Assembly) (words : List MicroWord) : Prop where
  waiting : b.waiting = []
  references : b.references = a.references
  names : b.names = a.names ++ labels words
  words : b.words.toList = a.words.toList ++ words

/-- The assembly after some lines, the first of which has a given number. -/
def read (a : Assembly) (n : Nat) (ls : List String) : Except AssemblyError Assembly :=
  ((ls.map String.toList).zipIdx n).foldlM line a

theorem read_cons (a : Assembly) (n : Nat) (l : String) (ls : List String) :
    a.read n (l :: ls) = a.line (l.toList, n) >>= fun b => b.read (n + 1) ls := by
  rw [read, List.map_cons, List.zipIdx_cons, List.foldlM_cons]
  rfl

/-- Lines are read one part after the other. -/
theorem read_append (a : Assembly) (n : Nat) (ls ls' : List String) :
    a.read n (ls ++ ls') = a.read n ls >>= fun b => b.read (n + ls.length) ls' := by
  rw [read, List.map_append, List.zipIdx_append, List.foldlM_append, List.length_map]
  rfl

theorem Gains.trans {a b c : Assembly} {ws vs : List MicroWord} (h : a.Gains b ws)
    (h' : b.Gains c vs) : a.Gains c (ws ++ vs) where
  waiting := h'.waiting
  references := h'.references.trans h.references
  names := by rw [h'.names, h.names, labels_append, List.append_assoc]
  words := by rw [h'.words, h.words, List.append_assoc]

-- A line without tokens does nothing.
theorem line_of_blank (a : Assembly) (line : List Char) (n : Nat) (h : tokens line = []) :
    a.line (line, n) = .ok a := by
  rw [line_eq_ok_iff]
  refine ⟨a, .nothing, ?_, ?_, rfl⟩
  · simp only [h, splitLabel, labelledBy]
  · simp only [h, splitLabel, Body.ofTokens]

theorem line_originRow (a : Assembly) (address : UInt8) (n : Nat) :
    a.line ((originRow address).toList, n) = .ok { a with next := address.toNat } := by
  have hsplit := splitLabel_of_body "ORG".toList [(Text.hexByte address).toList] (by decide)
  rw [line_eq_ok_iff]
  refine ⟨a, .origin address, ?_, ?_, rfl⟩
  · rw [tokens_originRow, hsplit, labelledBy]
  · rw [tokens_originRow, hsplit, Body.ofTokens_origin]

/-- The bytes that are printed for a word make up the word. -/
theorem wordAt_columns (a : Assembly) (n : Nat) (address : UInt8) (word : MicroWord)
    (hw : word.Narrow) (haddress : word.address = some address) (hnext : a.next = address.toNat)
    (hlabel : a.waiting.getLast?.map Prod.fst = word.label) :
    a.wordAt n (MicroWord.pairByte word.write word.read) (MicroWord.pairByte word.alu word.jump)
      (.fixed word.jumpAddress) = word := by
  rcases MicroWord.nibbles_pair _ _ hw.write hw.read with ⟨hwrite, hread⟩
  rcases MicroWord.nibbles_pair _ _ hw.alu hw.jump with ⟨halu, hjump⟩
  rw [wordAt, hwrite, hread, halu, hjump, hlabel, hnext, UInt8.ofNat_toNat, ← haddress]
  rfl

/-- The label in front of a word is defined and waits for the word. -/
theorem labelledBy_label (a : Assembly) (n : Nat) (label : Option String)
    (hlabel : ∀ name, label = some name → IsLabel name ∧ name ∉ a.names)
    (hwaiting : a.waiting = []) :
    ∃ c, a.labelledBy n (label.map String.toList) = .ok c ∧ c.next = a.next ∧
      c.words = a.words ∧ c.references = a.references ∧ c.names = a.names ++ label.toList ∧
      c.waiting.getLast?.map Prod.fst = label := by
  cases label with
  | none =>
      refine ⟨a, rfl, rfl, rfl, rfl, (List.append_nil _).symm, ?_⟩
      rw [hwaiting]
      rfl
  | some name =>
      rcases hlabel name rfl with ⟨hname, hnew⟩
      have hself := labelName_of_isLabel name hname
      refine ⟨a.labelled n name, ?_, rfl, rfl, rfl, a.names_labelled n name, ?_⟩
      · rw [Option.map_some, labelledBy, define_eq_ok_iff, hself]
        exact ⟨hname.nonempty, hnew, rfl⟩
      · rw [labelled, List.getLast?_concat]
        rfl

/-- The line of a word adds the word, if its address is the running one and its label is new. -/
theorem line_wordRow (a : Assembly) (t : ControlTable) (address : UInt8) (word : MicroWord)
    (n : Nat) (hw : word.Printable) (haddress : word.address = some address)
    (hwaiting : a.waiting = []) (hnext : a.next = address.toNat)
    (hnew : ∀ name, word.label = some name → name ∉ a.names) :
    ∃ b, a.line ((wordRow t address word).toList, n) = .ok b ∧ b.next = a.next + 1 ∧
      a.Gains b [word] := by
  have hsplit := splitLabel_wordRow t address word hw.label hw.narrow
  rcases a.labelledBy_label n word.label (fun name h => ⟨hw.label name h, hnew name h⟩) hwaiting
    with ⟨c, hc, hcnext, hcwords, hcrefs, hcnames, hclabel⟩
  have hword := c.wordAt_columns n address word hw.narrow haddress (hcnext.trans hnext) hclabel
  have hplace : c.next < 256 := by
    rw [hcnext, hnext]
    exact address.toNat_lt
  refine ⟨c.placed n (MicroWord.pairByte word.write word.read)
    (MicroWord.pairByte word.alu word.jump) (.fixed word.jumpAddress), ?_, ?_, ?_⟩
  · rw [line_eq_ok_iff]
    refine ⟨c, .word _ _ _, ?_, ?_, (c.emit_eq_ok_iff _ n _ _ _).mpr ⟨hplace, rfl⟩⟩
    · rw [hsplit]
      exact hc
    · rw [hsplit]
      exact Body.ofTokens_columns word hw.narrow
  · exact congrArg (· + 1) hcnext
  · refine ⟨rfl, ?_, ?_, ?_⟩
    · exact Array.append_empty.trans hcrefs
    · rw [names_placed, hcnames, labels_cons]
      exact congrArg _ (List.append_nil _).symm
    · rw [placed, hword, Array.toList_push, hcwords]

/-- An `ORG` line, or the address that the printer counts on in its place, sets the running
    address. -/
theorem read_origin (a : Assembly) (n : Nat) (next : Option UInt8) (address : UInt8)
    (hnext : ∀ address, next = some address → a.next = address.toNat) :
    a.read n (if next = some address then [] else [originRow address]) =
      .ok { a with next := address.toNat } := by
  by_cases h : next = some address
  · rw [if_pos h, ← hnext address h]
    rfl
  · rw [if_neg h, read_cons, line_originRow]
    rfl

theorem next_following (address next : UInt8) (h : following address = some next) :
    address.toNat + 1 = next.toNat := by
  unfold following at h
  by_cases hlast : address = 0xFF
  · rw [if_pos hlast] at h
    cases h
  · rw [if_neg hlast, Option.some.injEq] at h
    have hne : address.toNat ≠ 255 := fun heq => hlast (UInt8.toNat_inj.mp heq)
    have hlt := address.toNat_lt
    have hone : (1 : UInt8).toNat = 1 := rfl
    rw [← h, UInt8.toNat_add, hone]
    omega

/-- The rows of some words add these words, as long as the running address is the one that the
    printer counts on. -/
theorem read_rows (t : ControlTable) (words : List MicroWord) (place : Nat) (next : Option UInt8)
    (a : Assembly) (n : Nat) (hwords : Listing.Printable words) (hwaiting : a.waiting = [])
    (hnext : ∀ address, next = some address → a.next = address.toNat)
    (hnew : ∀ name, name ∈ labels words → name ∉ a.names) :
    ∃ b, a.read n (rows t place next words) = .ok b ∧ a.Gains b words := by
  induction words generalizing place next a n with
  | nil => exact ⟨a, rfl, hwaiting, rfl, (List.append_nil _).symm, (List.append_nil _).symm⟩
  | cons word rest ih =>
      have hword := hwords.each word (List.mem_cons_self ..)
      rcases hword.placed with ⟨address, haddress⟩
      -- The label of the word is new, and the labels behind it differ from it.
      have hdistinct := hwords.distinct
      rw [labels_cons, List.nodup_append] at hdistinct
      have hrest : Listing.Printable rest :=
        ⟨fun w hw => hwords.each w (List.mem_cons_of_mem word hw), hdistinct.2.1⟩
      have hwordnew : ∀ name, word.label = some name → name ∉ a.names := by
        intro name h
        refine hnew name ?_
        rw [labels_cons, h]
        exact List.mem_append_left _ (List.mem_singleton_self name)
      rw [rows, haddress, Option.getD_some, read_append, read_origin a n next address hnext]
      rcases line_wordRow { a with next := address.toNat } t address word
        (n + (if next = some address then [] else [originRow address]).length) hword haddress
        hwaiting rfl hwordnew with ⟨b, hline, hbnext, hb⟩
      have hbnew : ∀ name, name ∈ labels rest → name ∉ b.names := by
        intro name hname hmem
        rw [hb.names, labels_cons, List.mem_append, List.mem_append] at hmem
        rcases hmem with hold | hown | hnone
        · refine hnew name ?_ hold
          rw [labels_cons]
          exact List.mem_append_right _ hname
        · exact hdistinct.2.2 name hown name hname rfl
        · exact absurd hnone List.not_mem_nil
      -- Behind the word, the running address is the one that follows, if there is one.
      have hbnext' : ∀ next, following address = some next → b.next = next.toNat := by
        intro next h
        rw [hbnext]
        exact next_following address next h
      rcases ih (place + 1) (following address) b _ hrest hb.waiting hbnext' hbnew with
        ⟨c, hc, hgains⟩
      refine ⟨c, ?_, ?_⟩
      · rw [bind_eq_ok_iff]
        refine ⟨_, rfl, ?_⟩
        rw [read_cons, hline]
        exact hc
      · -- The address in front of the word is no part of what is gained.
        have hfrom : a.Gains b [word] := ⟨hb.waiting, hb.references, hb.names, hb.words⟩
        exact hfrom.trans hgains

-- Lines without tokens do nothing.
theorem read_blanks (a : Assembly) (n : Nat) (ls : List String)
    (h : ∀ l, l ∈ ls → tokens l.toList = []) : a.read n ls = .ok a := by
  induction ls generalizing n with
  | nil => rfl
  | cons l ls ih =>
      rw [read_cons, line_of_blank a _ n (h l (List.mem_cons_self ..))]
      exact ih (n + 1) (fun l' hl' => h l' (List.mem_cons_of_mem l hl'))

/-- An assembly in which nothing is open is finished as it is. -/
theorem finish_of_closed (a : Assembly) (hwaiting : a.waiting = []) (hrefs : a.references = #[]) :
    a.finish = .ok a := by
  rw [finish_eq_ok_iff, a.bindLabels_of_waiting _ hwaiting, hrefs]
  exact ⟨fun h => absurd hwaiting h, a.words, rfl, rfl⟩

end Assembly

namespace Listing

/-- A printed listing, as the assembler reads it. -/
theorem read_disassemble (t : ControlTable) (words : List MicroWord) (h : Printable words) :
    ∃ a, (numberedLines (disassemble words t)).foldlM Assembly.line {} = .ok a ∧
      Assembly.Gains {} a words := by
  -- A line feed is a blank, and a label has no blanks.
  have honeLine : ∀ w, w ∈ words → ∀ name, w.label = some name → OneLine name := by
    intro w hw name hname hbreak
    have hsolid := ((h.each w hw).label name hname).token.solid '\n' hbreak
    exact absurd hsolid (by decide)
  have hrows : (numberedLines (disassemble words t)).foldlM Assembly.line {} =
      Assembly.read {} 1 (headingRows ++ (rows t 0 (some 0) words ++ [""])) := by
    have hempty : [[]] = [""].map String.toList := by decide
    rw [numberedLines, lines_disassemble t words honeLine, Assembly.read, hempty,
      ← List.map_append, List.append_assoc]
  have hheading : ∀ l, l ∈ headingRows → tokens l.toList = [] := by decide
  have hlast : ∀ l, l ∈ [""] → tokens l.toList = [] := by decide
  have hzero : ∀ address : UInt8, some 0 = some address → (0 : Nat) = address.toNat := by
    intro address haddress
    cases haddress
    rfl
  -- The empty assembly stands at address zero, where the printer begins as well.
  rcases Assembly.read_rows t words 0 (some 0) {} (1 + headingRows.length) h rfl hzero
    (fun _ _ => List.not_mem_nil) with ⟨a, ha, hgains⟩
  refine ⟨a, ?_, hgains⟩
  rw [hrows, Assembly.read_append, Assembly.read_blanks {} 1 _ hheading, bind_eq_ok_iff]
  refine ⟨{}, rfl, ?_⟩
  rw [Assembly.read_append, ha, bind_eq_ok_iff]
  exact ⟨a, rfl, a.read_blanks _ _ hlast⟩

end Listing

/-- A printable list is found again in its listing. -/
theorem assemble_disassemble (words : List MicroWord) (t : ControlTable)
    (h : Listing.Printable words) : assemble (disassemble words t) = .ok words := by
  rcases Listing.read_disassemble t words h with ⟨a, hread, hgains⟩
  rw [assemble_eq_ok_iff]
  refine ⟨a, a, hread, a.finish_of_closed hgains.waiting hgains.references, ?_⟩
  rw [hgains.words]
  rfl

/-- A listing that is printed assembles to what was printed: any printable list, and so
    whatever the assembler itself has made of a source. -/
theorem reassembly :
    (∀ words t, Listing.Printable words → assemble (disassemble words t) = .ok words) ∧
    (∀ source words, assemble source = .ok words → Listing.Printable words) ∧
    (∀ source words t, assemble source = .ok words →
      assemble (disassemble words t) = assemble source) := by
  refine ⟨assemble_disassemble, printable_of_assemble, fun source words t h => ?_⟩
  rw [h]
  exact assemble_disassemble words t (printable_of_assemble source words h)

/-- A program that jumps to and fro between its last address and an earlier one. Of the two labels
    at the second word, the word keeps the later one. -/
theorem reassembly_backward :
    let source := "ORG ff\nloop: D2 05 End\nORG 40\nstraße:\nend: 00 01 LOOP\n"
    let words : List MicroWord := [
      { write := 0xD, read := 2, alu := 0, jump := 5, jumpAddress := 0x40,
        label := some "LOOP", address := some 0xFF },
      { write := 0, read := 0, alu := 0, jump := 1, jumpAddress := 0xFF,
        label := some "END", address := some 0x40 }]
    assemble source = .ok words ∧ Listing.Printable words ∧
      assemble (disassemble words ControlTable.builtin) = .ok words ∧
      assemble (disassemble words ControlTable.builtin) = assemble source := by
  intro source words
  have hvalue : (assemble source).toOption = some words := by decide +kernel
  have hsource : assemble source = .ok words := by
    cases h : assemble source with
    | error e =>
        rw [h] at hvalue
        cases hvalue
    | ok ws =>
        rw [h] at hvalue
        cases hvalue
        rfl
  have hwords := reassembly.2.1 source words hsource
  exact ⟨hsource, hwords, reassembly.1 words ControlTable.builtin hwords,
    reassembly.2.2 source words ControlTable.builtin hsource⟩

end Microcode
