import Microcode.Debugger.Screen
import Microcode.Proofs.Listing.Columns
/-!
# The Window of the Listing

Which part of the control store the debugger shows.

The listing is a window of as many lines as there is room for, with the current word in its
middle. The store ends on both sides: near address 0 the window cannot begin as far in front of
the current word as it should, so the current word moves up, and near 0xFF the window is cut
short. `window_place` is the arithmetic behind this, with both ends in it. The window begins at
or in front of the current word, by the number of lines that stand before it, and this number is
less than the number of lines asked for. The current word therefore never leaves the window.

What is drawn is not the window but the lines of its entries. An entry whose text has a line feed
takes several rows and pushes the current word down, so `visible_current` asks for texts of one
line. A listing gives no others, as a label is a word without blanks.

An address without a word has the text `--`, and the drawing recognises it by this text alone.
`text_eq_dashes_iff` is the reason that this works: the columns of a word are longer, whatever
its notation holds.

## Main definitions

* `Debugger.windowStart`, `Debugger.windowStop`: The ends of the window.
* `Debugger.currentPlace`: The number of lines in front of the current word.
* `Debugger.marked`: An entry with its marks, as it is drawn.
* `Debugger.entryLines`: The lines of an entry.

## Theorems

* `windowStart_add`: The end of the window can be computed in sixteen bits or more.
* `window_place`: The current word is in the window.
* `addresses_listing`, `getElem?_listing`: The entries of the listing.
* `text_eq_dashes_iff`, `text_of_word`: What the text of an entry says.
* `lineStyle_dark_iff`: The entries that are drawn in grey.
* `getElem?_visibleLines`: The place of a line among the visible ones.
* `visible_current`: The current word is drawn in the panel.
* `listing_shows_current`: What the listing shows.
* `listing_shows_current_last`: The listing at the end of the store.
-/

namespace Microcode

namespace Panel

/-- A line stands among the visible ones where its block stands among the blocks, if there is
    room for it and no block up to it has several lines. -/
theorem getElem?_visibleLines (height place : Nat) (blocks : List (List PanelLine))
    (line : PanelLine) (hplace : place < height)
    (hsingle : ∀ block, block ∈ blocks.take (place + 1) → block.length = 1)
    (hline : blocks[place]? = some [line]) :
    (visibleLines height blocks)[place]? = some line := by
  induction blocks generalizing height place with
  | nil => exact nomatch hline
  | cons block rest ih =>
      have hone : block.length = 1 := by
        refine hsingle block ?_
        rw [List.take_succ_cons]
        exact List.mem_cons_self
      have hfits : block.length ≤ height := by omega
      rw [visibleLines, if_pos hfits]
      cases place with
      | zero =>
          rw [List.getElem?_cons_zero] at hline
          rw [Option.some.inj hline]
          rfl
      | succ place =>
          have hrest := ih (height - block.length) place (by omega)
            (fun b hb => hsingle b (by
              rw [List.take_succ_cons]
              exact List.mem_cons_of_mem block hb))
            (by rwa [List.getElem?_cons_succ] at hline)
          rw [List.getElem?_append_right (by omega), hone, Nat.add_sub_cancel]
          rwa [hone] at hrest

end Panel

namespace Text

/-- A text of one line is shown as it is. -/
theorem shownLines_of_oneLine (s : String) (h : OneLine s) :
    shownLines s.toList = [s.toList] := by
  rw [shownLines, lines_of_free s.toList h]
  rfl

/-- Every text is shown in some line. -/
theorem shownLines_ne_nil (cs : List Char) : shownLines cs ≠ [] := by
  rcases exists_pieces (· == '\n') cs with ⟨p, ps, hp⟩
  rw [shownLines, lines, hp, List.getLast?_cons, Option.toList_some]
  exact List.append_ne_nil_of_right_ne_nil _ (List.cons_ne_nil _ _)

end Text

namespace Debugger

variable (d : Debugger) (lines : Nat)

/-- The first address of the window. -/
def windowStart : Nat :=
  d.mpc.toNat - lines / 2

/-- The address behind the last one of the window. -/
def windowStop : Nat :=
  min 256 (d.windowStart lines + lines)

/-- The number of lines in front of the current word. -/
def currentPlace : Nat :=
  min d.mpc.toNat (lines / 2)

/-- An entry with its marks, as it is drawn. -/
def marked (e : ListingLine) : String :=
  (if d.breakpoints.contains e.address then "● " else "  ") ++
    (if e.current then "▶ " else "  ") ++ Text.hexByte e.address ++ ": " ++ e.text

/-- The lines of an entry. -/
def entryLines (e : ListingLine) : List PanelLine :=
  (Text.shownLines (d.marked e).toList).map fun text => {
    style := d.lineStyle e
    spans := [{ text := String.ofList text }] }

/-- The panel draws the entries of the listing, one block for each. -/
theorem blocks_listingPanel : (d.listingPanel lines).blocks = (d.listing lines).map d.entryLines :=
  rfl

/-- The end of the window exceeds the number of lines only while it is small, so that computing
    it in sixteen bits or more does not overflow if the number of lines itself fits. -/
theorem windowStart_add : d.windowStart lines + lines ≤ max lines 510 := by
  have hmpc := d.mpc.toNat_lt
  unfold windowStart
  omega

/-- The current word is in the window, with its number of lines in front of it. -/
theorem window_place (h : 0 < lines) :
    d.windowStart lines + d.currentPlace lines = d.mpc.toNat ∧
      d.currentPlace lines < d.windowStop lines - d.windowStart lines ∧
      d.currentPlace lines < lines := by
  have hmpc := d.mpc.toNat_lt
  unfold windowStop windowStart currentPlace
  omega

-- Every place of the window is an address of the store.
theorem toNat_windowed (n : Nat) (h : n < d.windowStop lines - d.windowStart lines) :
    (UInt8.ofNat (d.windowStart lines + n)).toNat = d.windowStart lines + n := by
  unfold windowStop at h
  rw [UInt8.toNat_ofNat']
  exact Nat.mod_eq_of_lt (by omega)

/-- The entry at a place of the listing. -/
theorem getElem?_listing (i : Nat) :
    (d.listing lines)[i]? = if i < d.windowStop lines - d.windowStart lines
      then some (d.listingLine (UInt8.ofNat (d.windowStart lines + i))) else none := by
  have hlisted : d.listedAddresses lines =
      (List.range' (d.windowStart lines) (d.windowStop lines - d.windowStart lines)).map
        UInt8.ofNat := by
    rw [windowStop, Nat.min_comm]
    rfl
  rw [listing, hlisted, List.map_map, List.getElem?_map]
  split
  · rename_i hi
    rw [List.getElem?_range' hi, Nat.one_mul]
    rfl
  · rename_i hi
    rw [List.getElem?_eq_none (by rw [List.length_range']; omega)]
    rfl

/-- The addresses of the listing ascend by one from the start of the window to its end. -/
theorem addresses_listing :
    (d.listing lines).map (·.address.toNat) =
      List.range' (d.windowStart lines) (d.windowStop lines - d.windowStart lines) := by
  refine List.ext_getElem? (fun i => ?_)
  rw [List.getElem?_map, getElem?_listing]
  split
  · rename_i hi
    rw [List.getElem?_range' hi, Nat.one_mul]
    exact congrArg some (toNat_windowed d lines i hi)
  · rename_i hi
    rw [List.getElem?_eq_none (by rw [List.length_range']; omega)]
    rfl

/-- Every entry of a listing is the line of its address. -/
theorem eq_listingLine_of_mem (e : ListingLine) (h : e ∈ d.listing lines) :
    e = d.listingLine e.address := by
  rcases List.mem_map.mp h with ⟨address, -, rfl⟩
  rfl

theorem getElem?_currentPlace (h : 0 < lines) :
    (d.listing lines)[d.currentPlace lines]? = some (d.listingLine d.mpc) := by
  rcases d.window_place lines h with ⟨hmpc, hinside, -⟩
  rw [getElem?_listing, if_pos hinside, hmpc, UInt8.ofNat_toNat]

/-- An entry is current exactly at the place of the current word. -/
theorem current_iff (h : 0 < lines) (i : Nat) (e : ListingLine)
    (he : (d.listing lines)[i]? = some e) : e.current = true ↔ i = d.currentPlace lines := by
  rcases d.window_place lines h with ⟨hmpc, -, -⟩
  rw [getElem?_listing] at he
  split at he
  · rename_i hi
    rw [← Option.some.inj he, listingLine, beq_iff_eq, ← UInt8.toNat_inj,
      toNat_windowed d lines i hi]
    omega
  · exact nomatch he

-- The columns of a word take eight characters before the word has begun.
theorem wordText_ne_dashes (m : Machine) (w : MicroWord) : wordText m w ≠ "--" := by
  intro heq
  have hlength := congrArg String.length heq
  have hdashes : "--".length = 2 := by decide
  have hspace : " ".length = 1 := by decide
  have hspaces : "  ".length = 2 := by decide
  rw [wordText, Text.padRight, hdashes] at hlength
  simp only [String.length_append, String.length_ofList, List.length_replicate, hspace,
    hspaces] at hlength
  omega

/-- The text of an entry is `--` exactly if there is no word at its address. -/
theorem text_eq_dashes_iff (address : UInt8) :
    (d.listingLine address).text = "--" ↔ d.machine.store.read address = none := by
  unfold listingLine
  cases hread : d.machine.store.read address with
  | none => exact ⟨fun _ => rfl, fun _ => rfl⟩
  | some w => exact ⟨fun h => absurd h (wordText_ne_dashes d.machine w), nofun⟩

/-- The text of an entry with a word holds the columns of the word and its notation. -/
theorem text_of_word (address : UInt8) (w : MicroWord)
    (h : d.machine.store.read address = some w) :
    w.text.toList <:+: (d.listingLine address).text.toList ∧
      (disassembleWord w d.machine.table).toList <:+: (d.listingLine address).text.toList := by
  have htext : (d.listingLine address).text = wordText d.machine w := by
    unfold listingLine
    rw [h]
  rw [htext, wordText]
  simp only [String.toList_append]
  constructor
  · exact ((List.suffix_append _ _).isInfix.trans (List.prefix_append _ _).isInfix).trans
      (List.prefix_append _ _).isInfix
  · exact (List.suffix_append _ _).isInfix

/-- The entries in grey are those without a word that are neither current nor breakpoints. -/
theorem lineStyle_dark_iff (address : UInt8) :
    (d.lineStyle (d.listingLine address)).color = .darkGray ↔
      d.machine.store.read address = none ∧ address ≠ d.mpc ∧
        d.breakpoints.contains address = false := by
  have hcurrent : (d.listingLine address).current = true ↔ address = d.mpc := beq_iff_eq
  rw [← d.text_eq_dashes_iff address]
  unfold lineStyle
  split
  · rename_i h
    exact ⟨Color.noConfusion, fun hgrey => absurd (hcurrent.mp h) hgrey.2.1⟩
  · rename_i h
    split
    · rename_i hb
      exact ⟨Color.noConfusion, fun hgrey => absurd (hb.symm.trans hgrey.2.2) (by decide)⟩
    · rename_i hb
      split
      · rename_i htext
        exact ⟨fun _ => ⟨htext, fun heq => h (hcurrent.mpr heq), Bool.eq_false_iff.mpr hb⟩,
          fun _ => rfl⟩
      · rename_i htext
        exact ⟨Color.noConfusion, fun hgrey => absurd hgrey.1 htext⟩

theorem oneLine_wordText (m : Machine) (w : MicroWord)
    (h : ∀ name, w.label = some name → OneLine name) : OneLine (wordText m w) := by
  have hlabel : OneLine (w.label.getD "") := by
    cases hl : w.label with
    | none => decide
    | some name => exact h name hl
  exact ((((hlabel.padRight 8).append (by decide)).append (oneLine_text w)).append
    (by decide)).append (oneLine_disassembleWord w m.table)

/-- An entry whose label has no line feed is drawn in one line. -/
theorem entryLines_of_oneLine (address : UInt8)
    (h : ∀ w name, d.machine.store.read address = some w → w.label = some name → OneLine name) :
    d.entryLines (d.listingLine address) =
      [⟨d.lineStyle (d.listingLine address), [⟨d.marked (d.listingLine address), none⟩]⟩] := by
  have htext : OneLine (d.listingLine address).text := by
    unfold listingLine
    cases hread : d.machine.store.read address with
    | none => exact (by decide : OneLine "--")
    | some w => exact oneLine_wordText d.machine w (fun name => h w name hread)
  have hline : OneLine (d.marked (d.listingLine address)) := by
    unfold marked
    refine (((OneLine.append ?_ ?_).append (oneLine_hexByte _)).append (by decide)).append htext
    · split <;> decide
    · split <;> decide
  rw [entryLines, Text.shownLines_of_oneLine _ hline]
  simp only [List.map_cons, List.map_nil, String.ofList_toList]

/-- The current word is drawn in the panel, in a row of its own, if the labels of the store have
    no line feeds. -/
theorem visible_current (h : 0 < lines)
    (hlabels : ∀ address w name, d.machine.store.read address = some w →
      w.label = some name → OneLine name) :
    (Panel.visibleLines lines (d.listingPanel lines).blocks)[d.currentPlace lines]? =
      some ⟨{ color := .yellow, bold := true }, [⟨d.marked (d.listingLine d.mpc), none⟩]⟩ := by
  rcases d.window_place lines h with ⟨-, -, hroom⟩
  have hstyle : d.lineStyle (d.listingLine d.mpc) = { color := .yellow, bold := true } :=
    if_pos (beq_self_eq_true d.mpc)
  rw [blocks_listingPanel, ← hstyle]
  refine Panel.getElem?_visibleLines _ _ _ _ hroom (fun block hblock => ?_) ?_
  · rcases List.mem_map.mp (List.mem_of_mem_take hblock) with ⟨e, he, rfl⟩
    rw [d.eq_listingLine_of_mem lines e he, entryLines_of_oneLine d _ (hlabels _)]
    rfl
  · rw [List.getElem?_map, getElem?_currentPlace d lines h, Option.map_some,
      entryLines_of_oneLine d _ (hlabels _)]

/-- What the listing shows, for every state of the debugger and every number of lines. Its
    addresses ascend by one from half the lines in front of the current word, or from 0, and end
    with the lines or with the store; the end is computed without an overflow. If there is a line
    at all, exactly one entry is marked as current. It is that of the micro-program counter, and it
    stands at a place below the number of lines; the panel draws it there if no label in the store
    runs over a line, since a label that does takes several lines of the panel for its entry. An
    entry is `--` exactly if there is no word at its address, its lines in the panel are grey
    exactly if moreover it is neither current nor a breakpoint, and otherwise it holds the columns
    and the notation of its word. -/
theorem listing_shows_current :
    d.windowStart lines + lines ≤ max lines 510 ∧
      (d.listing lines).map (·.address.toNat) =
        List.range' (d.windowStart lines) (d.windowStop lines - d.windowStart lines) ∧
      (0 < lines →
        d.currentPlace lines < lines ∧
        (∃ e, (d.listing lines)[d.currentPlace lines]? = some e ∧ e.address = d.mpc) ∧
        (∀ i e, (d.listing lines)[i]? = some e →
          (e.current = true ↔ i = d.currentPlace lines)) ∧
        ((∀ address w name, d.machine.store.read address = some w →
            w.label = some name → OneLine name) →
          (Panel.visibleLines lines (d.listingPanel lines).blocks)[d.currentPlace lines]? =
            some ⟨{ color := .yellow, bold := true },
              [⟨d.marked (d.listingLine d.mpc), none⟩]⟩)) ∧
      (d.listingPanel lines).blocks = (d.listing lines).map d.entryLines ∧
      ∀ e, e ∈ d.listing lines →
        (e.text = "--" ↔ d.machine.store.read e.address = none) ∧
        d.entryLines e ≠ [] ∧
        (∀ line, line ∈ d.entryLines e → (line.style.color = .darkGray ↔
          d.machine.store.read e.address = none ∧ e.current = false ∧
            d.breakpoints.contains e.address = false)) ∧
        ∀ w, d.machine.store.read e.address = some w →
          w.text.toList <:+: e.text.toList ∧
            (disassembleWord w d.machine.table).toList <:+: e.text.toList := by
  refine ⟨d.windowStart_add lines, d.addresses_listing lines, fun h => ⟨?_, ?_, ?_, ?_⟩,
    d.blocks_listingPanel lines, fun e he => ⟨?_, ?_, fun line hline => ?_, fun w hw => ?_⟩⟩
  · exact (d.window_place lines h).2.2
  · exact ⟨_, d.getElem?_currentPlace lines h, rfl⟩
  · exact d.current_iff lines h
  · exact d.visible_current lines h
  · rw [d.eq_listingLine_of_mem lines e he]
    exact d.text_eq_dashes_iff e.address
  · rw [entryLines, ne_eq, List.map_eq_nil_iff]
    exact Text.shownLines_ne_nil _
  · rcases List.mem_map.mp hline with ⟨text, -, rfl⟩
    have hcurrent : e.current = false ↔ e.address ≠ d.mpc := by
      rw [d.eq_listingLine_of_mem lines e he]
      exact beq_eq_false_iff_ne
    rw [hcurrent, ← d.lineStyle_dark_iff e.address, ← d.eq_listingLine_of_mem lines e he]
  · rw [d.eq_listingLine_of_mem lines e he]
    exact d.text_of_word e.address w hw

/-- At the end of the store the listing is cut short, and the current word is its last line. -/
theorem listing_shows_current_last :
    let word : MicroWord :=
      { write := 10, read := 3, alu := 0, jump := 0, jumpAddress := 0, label := some "LAST" }
    let d : Debugger :=
      { machine :=
          { store := ControlStore.empty.write 0xFF word
            sequencer := { mpc := 0xFF } } }
    (d.listing 6).map (·.address.toNat) = [252, 253, 254, 255] ∧
      (∀ e, (d.listing 6)[2]? = some e → e.text = "--" ∧ e.current = false) ∧
      (Panel.visibleLines 6 (d.listingPanel 6).blocks)[3]? =
        some ⟨{ color := .yellow, bold := true }, [⟨d.marked (d.listingLine 0xFF), none⟩]⟩ := by
  intro word d
  rcases d.listing_shows_current 6 with ⟨-, haddresses, hcurrent, -, hentries⟩
  rcases hcurrent (by decide) with ⟨-, -, hplace, hvisible⟩
  have hwindow : List.range' (d.windowStart 6) (d.windowStop 6 - d.windowStart 6) =
      [252, 253, 254, 255] := by decide +kernel
  have hthree : d.currentPlace 6 = 3 := by decide +kernel
  rw [hthree] at hplace hvisible
  have hentry : (d.listing 6)[2]? = some (d.listingLine 0xFE) := by decide +kernel
  have hempty : d.machine.store.read 0xFE = none := by decide +kernel
  refine ⟨haddresses.trans hwindow, fun e he => ?_,
    hvisible fun address w name hread hlabel => ?_⟩
  · have heq : d.listingLine 0xFE = e := Option.some.inj (hentry.symm.trans he)
    have htext := (hentries e (List.mem_of_getElem? he)).1
    have hmark := hplace 2 e he
    rw [← heq] at htext hmark ⊢
    exact ⟨htext.mpr hempty, Bool.eq_false_iff.mpr fun hc => absurd (hmark.mp hc) (by decide)⟩
  · have hstore : (ControlStore.empty.write 0xFF word).read address = some w := hread
    rw [ControlStore.read_write] at hstore
    split at hstore
    · rw [← Option.some.inj hstore] at hlabel
      rw [← Option.some.inj hlabel]
      decide
    · exact nomatch (ControlStore.read_empty address).symm.trans hstore

end Debugger

end Microcode
