import Microcode.Proofs.Listing.Assembling
import Microcode.Proofs.Listing.Meaning
import Microcode.Proofs.Listing.Offences
/-!
# How Far an Assembly Has Come

The one pass over the lines, seen from the program that they are.

`Reflects` relates an assembly to the lines that it has read. Nothing of it is about what is still
to come, except for `symbols`: a label that is bound has the address that it has in the whole
program, whatever the rest of that is. A label is bound at the first word behind it, so no later
line can move it, and this is what makes one pass enough.

`line_of_fits` is the step: a line that says something that fits is taken. `line_of_offends` is its
other half: a line that offends is refused, and for its offence. The runs `read_of_sound` and
`read_of_offends` follow from the two by induction on the lines.

## Main definitions

* `Assembly.Reflects`: An assembly holds what the lines so far say.
* `Assembly.labelledIf`: The assembly after the label of a line, if it has one.

## Theorems

* `reflects_unplaced`, `reflects_placed`: What the effects of a line leave behind.
* `line_of_fits`, `line_of_offends`: A line is taken if it fits, and refused for its offence.
* `read_of_sound`, `read_of_offends`: The same for all lines of a listing.
-/

namespace Microcode

namespace Assembly

/-- An assembly holds what the lines so far say. -/
structure Reflects (a : Assembly) (program : List Statement) : Prop where
  next : a.next = Listing.counter program
  names : a.names = Listing.labelNames program
  waiting : a.waiting = Listing.openLabels program
  symbols : ∀ name address, (name, address) ∈ a.symbols →
    ∀ rest, Listing.LabelAt (program ++ rest) name address.toNat
  references : a.references.toList = Listing.references program
  size : a.words.size = program.countP Statement.isWord
  words : ∀ before s after hi mid target, program = before ++ s :: after →
    s.body = .word hi mid target →
      ∃ w, a.words[before.countP Statement.isWord]? = some w ∧ Listing.Drafts before s hi mid w ∧
        ∀ address, target = .fixed address → w.jumpAddress = address

/-- The assembly after the label of a line, if it has one. -/
def labelledIf (a : Assembly) (line : Nat) : Option String → Assembly
  | some name => a.labelled line name
  | none => a

theorem labelledIf_eq (a : Assembly) (line : Nat) (label : Option String) :
    a.labelledIf line label =
      { a with waiting := a.waiting ++ (label.map (fun name => (name, line))).toList } := by
  cases label with
  | none => rw [Option.map_none, Option.toList_none, List.append_nil]; rfl
  | some name => rfl

theorem names_labelledIf (a : Assembly) (line : Nat) (label : Option String) :
    (a.labelledIf line label).names = a.names ++ label.toList := by
  cases label with
  | none => exact (List.append_nil _).symm
  | some name => exact a.names_labelled line name

theorem reflects_empty : Reflects {} [] where
  next := rfl
  names := rfl
  waiting := rfl
  symbols _ _ h := absurd h List.not_mem_nil
  references := rfl
  size := rfl
  words before s after _ _ _ h := absurd h (Listing.nil_ne_split before after s)

/-- A bound label stays where it is. -/
theorem labelAt_of_symbols (a : Assembly) (program : List Statement) (s : Statement)
    (ha : a.Reflects program) (name : String) (address : UInt8)
    (h : (name, address) ∈ a.symbols) (rest : List Statement) :
    Listing.LabelAt (program ++ [s] ++ rest) name address.toNat := by
  rw [List.append_assoc]
  exact ha.symbols name address h ([s] ++ rest)

/-- A line without a word leaves its label waiting. -/
theorem reflects_unplaced (a : Assembly) (program : List Statement) (s : Statement)
    (ha : a.Reflects program) (hword : s.isWord = false) :
    Reflects { a.labelledIf s.line s.label with next := Listing.counter (program ++ [s]) }
      (program ++ [s]) := by
  have hreference : s.reference? = none := by
    cases hr : s.reference? with
    | none => rfl
    | some name => rw [Listing.isWord_of_reference s name hr] at hword; cases hword
  have hnames := a.names_labelledIf s.line s.label
  rw [labelledIf_eq] at hnames ⊢
  refine ⟨rfl, ?_, ?_, ?_, ?_, ?_, ?_⟩
  · rw [Listing.labelNames_concat, ← ha.names]
    exact hnames
  · rw [Listing.openLabels_concat_of_not_word program s hword, ← ha.waiting]
  · exact fun name address h rest => labelAt_of_symbols a program s ha name address h rest
  · rw [Listing.references_concat, hreference, ← ha.references]
    exact (List.append_nil _).symm
  · rw [List.countP_append, List.countP_singleton, hword, ← ha.size]
    rfl
  · intro before t after hi mid target hsplit hbody
    rcases Listing.exists_split_concat program before after s t hsplit with
      ⟨_, rfl, _⟩ | ⟨front, _, hfront⟩
    · rw [Statement.isWord, hbody] at hword
      cases hword
    · exact ha.words before t front hi mid target hfront hbody

-- The word that is placed behind the label of its line.
theorem drafts_wordAt (a : Assembly) (program : List Statement) (s : Statement) (hi mid : UInt8)
    (target : Target) (ha : a.Reflects program) (hroom : Listing.counter program ≤ 0xFF) :
    Listing.Drafts program s hi mid
      ((a.labelledIf s.line s.label).wordAt s.line hi mid target) := by
  rw [labelledIf_eq]
  refine ⟨(MicroWord.toNat_nibbles hi).1, (MicroWord.toNat_nibbles hi).2,
    (MicroWord.toNat_nibbles mid).1, (MicroWord.toNat_nibbles mid).2, ?_, ?_⟩
  · simp only [wordAt, Option.map_some, ha.next, Option.some.injEq]
    exact UInt8.toNat_ofNat_of_lt' (Nat.lt_succ_of_le hroom)
  · simp only [wordAt, ha.waiting]
    rw [← List.getLast?_map, Listing.map_fst_openLabels_concat]

/-- A word binds the labels that wait, and is drafted as its line says. -/
theorem reflects_placed (a : Assembly) (program : List Statement) (s : Statement) (hi mid : UInt8)
    (target : Target) (ha : a.Reflects program) (hbody : s.body = .word hi mid target)
    (hroom : Listing.counter program ≤ 0xFF) :
    Reflects ((a.labelledIf s.line s.label).placed s.line hi mid target) (program ++ [s]) := by
  have hword : s.isWord = true := by rw [Statement.isWord, hbody]
  have hdraft := drafts_wordAt a program s hi mid target ha hroom
  have hnames := (a.labelledIf s.line s.label).names_placed s.line hi mid target
  rw [names_labelledIf] at hnames
  rw [labelledIf_eq] at hdraft hnames ⊢
  refine ⟨?_, ?_, ?_, ?_, ?_, ?_, ?_⟩
  · rw [Listing.counter_concat, hbody]
    exact congrArg (· + 1) ha.next
  · rw [hnames, Listing.labelNames_concat, ha.names]
  · rw [Listing.openLabels_concat_of_word program s hword]
    rfl
  · intro name address h rest
    rcases List.mem_append.mp h with hold | hnew
    · exact labelAt_of_symbols a program s ha name address hold rest
    · -- A label that waited gets the address of this word.
      rcases List.mem_map.mp hnew with ⟨entry, hentry, heq⟩
      cases heq
      rw [ha.next, UInt8.toNat_ofNat_of_lt' (Nat.lt_succ_of_le hroom), List.append_assoc]
      refine Listing.labelAt_of_word program rest s entry.1 hword ?_
      rw [← Listing.map_fst_openLabels_concat, ← ha.waiting]
      exact List.mem_map_of_mem hentry
  · rw [Listing.references_concat, ← ha.references, ← ha.size, Statement.reference?, hbody]
    refine Array.toList_append.trans ?_
    cases target with
    | fixed address => rfl
    | label name => rfl
  · rw [List.countP_append, List.countP_singleton, if_pos hword, ← ha.size]
    exact Array.size_push ..
  · intro before t after hi' mid' target' hsplit hbody'
    rcases Listing.exists_split_concat program before after s t hsplit with
      ⟨rfl, rfl, _⟩ | ⟨front, _, hfront⟩
    · rw [hbody] at hbody'
      cases hbody'
      refine ⟨_, ?_, hdraft, ?_⟩
      · rw [← ha.size]
        exact Array.getElem?_push_size
      · rintro address rfl
        rfl
    · -- The words in front of this one keep their places.
      rcases ha.words before t front hi' mid' target' hfront hbody' with ⟨w, hw, hdrafts⟩
      have hlt := (Array.getElem?_eq_some_iff.mp hw).1
      refine ⟨w, ?_, hdrafts⟩
      rw [← hw, Array.getElem?_eq_getElem hlt]
      exact Array.getElem?_push_lt hlt

-- What the body of a line does behind its label.
theorem body_of_room (a : Assembly) (program : List Statement) (s : Statement)
    (ha : a.Reflects program) (hroom : s.isWord = true → Listing.counter program ≤ 0xFF) :
    ∃ b, (a.labelledIf s.line s.label).body s.line s.body = .ok b ∧
      b.Reflects (program ++ [s]) := by
  have hcounter := Listing.counter_concat program s
  have hnext : (a.labelledIf s.line s.label).next = Listing.counter program := by
    rw [labelledIf_eq, ← ha.next]
  cases hbody : s.body with
  | nothing =>
      have hb := reflects_unplaced a program s ha (by rw [Statement.isWord, hbody])
      rw [hcounter, hbody, ← hnext] at hb
      exact ⟨_, rfl, hb⟩
  | origin address =>
      have hb := reflects_unplaced a program s ha (by rw [Statement.isWord, hbody])
      rw [hcounter, hbody] at hb
      exact ⟨_, rfl, hb⟩
  | word hi mid target =>
      have hfree := hroom (by rw [Statement.isWord, hbody])
      refine ⟨_, (emit_eq_ok_iff _ _ _ hi mid target).mpr ⟨?_, rfl⟩,
        reflects_placed a program s hi mid target ha hbody hfree⟩
      rw [hnext]
      exact Nat.lt_succ_of_le hfree

/-- A label that is new is taken. -/
theorem labelledBy_of_isNew (a : Assembly) (program : List Statement) (line : Nat)
    (label : Option Token) (ha : a.Reflects program) (hnew : Listing.IsNew program label) :
    a.labelledBy line label = .ok (a.labelledIf line (label.map Listing.labelName)) := by
  cases label with
  | none => rfl
  | some token =>
      rcases hnew token rfl with ⟨hne, hmem⟩
      refine (a.define_eq_ok_iff _ line token).mpr ⟨?_, ?_, rfl⟩
      · exact fun hempty => hne ((Listing.labelName_eq_empty_iff token).mp hempty)
      · rw [ha.names]
        exact hmem

theorem define_of_defined (a : Assembly) (line : Nat) (token : Token) (hne : token ≠ [])
    (h : Listing.labelName token ∈ a.names) :
    a.define line token = .error (.duplicateLabel line (Listing.labelName token)) := by
  have hempty : ¬ (Listing.labelName token).isEmpty = true := fun he =>
    hne ((Listing.labelName_eq_empty_iff token).mp (String.isEmpty_iff.mp he))
  simp only [define, if_neg hempty, if_pos ((a.defines_iff _).mpr h)]

theorem emit_of_full (a : Assembly) (line : Nat) (hi mid : UInt8) (target : Target)
    (h : 0xFF < a.next) : a.emit line hi mid target = .error (.addressOverflow line) := by
  rw [emit, address, if_neg (Nat.not_lt_of_le h)]
  rfl

/-- A line that says something that fits is taken. -/
theorem line_of_fits (a : Assembly) (program : List Statement) (numbered : List Char × Nat)
    (s : Statement) (ha : a.Reflects program) (hsaid : Listing.Says numbered s)
    (hfits : Listing.Fits program s) :
    ∃ b, a.line numbered = .ok b ∧ b.Reflects (program ++ [s]) := by
  cases hsaid with
  | intro chars n label rest body hheads hbody =>
      have hnew : Listing.IsNew program label := by
        rintro token rfl
        refine ⟨?_, hfits.new _ rfl⟩
        rintro rfl
        exact hfits.named rfl
      rw [a.line_eq (chars, n) label rest ((Listing.splitLabel_eq_iff _ _ _).mpr hheads),
        labelledBy_of_isNew a program n label ha hnew,
        (Listing.ofTokens_eq_ok_iff rest body).mpr hbody]
      exact body_of_room a program _ ha hfits.room

/-- A line that offends is refused for its offence. -/
theorem line_of_offends (a : Assembly) (program : List Statement) (numbered : List Char × Nat)
    (e : AssemblyError) (ha : a.Reflects program) (h : Listing.Offends program numbered e) :
    a.line numbered = .error e := by
  -- An offence is only met behind the checks that the line has passed.
  cases h with
  | emptyLabel chars n rest hheads =>
      rw [a.line_eq (chars, n) _ rest ((Listing.splitLabel_eq_iff _ _ _).mpr hheads)]
      rfl
  | duplicateLabel chars n token rest hheads hne hmem =>
      rw [← ha.names] at hmem
      rw [a.line_eq (chars, n) _ rest ((Listing.splitLabel_eq_iff _ _ _).mpr hheads), labelledBy,
        define_of_defined a n token hne hmem]
      rfl
  | body chars n label rest fault hheads hnew hfault =>
      rw [a.line_eq (chars, n) _ rest ((Listing.splitLabel_eq_iff _ _ _).mpr hheads),
        labelledBy_of_isNew a program n label ha hnew,
        Listing.ofTokens_of_bodyFault rest fault hfault]
      rfl
  | overflow chars n label rest hi mid target hheads hnew hbody hfull =>
      rw [a.line_eq (chars, n) _ rest ((Listing.splitLabel_eq_iff _ _ _).mpr hheads),
        labelledBy_of_isNew a program n label ha hnew,
        (Listing.ofTokens_eq_ok_iff rest _).mpr hbody]
      refine emit_of_full _ n hi mid target ?_
      rw [labelledIf_eq, ha.next]
      exact hfull

/-- Lines that say something that fits are taken. -/
theorem read_of_sound (lines : List (List Char × Nat)) (program : List Statement)
    (hsaid : List.Forall₂ Listing.Says lines program) (a : Assembly) (before : List Statement)
    (ha : a.Reflects before) (hsound : Listing.SoundAfter before program) :
    ∃ b, lines.foldlM line a = .ok b ∧ b.Reflects (before ++ program) := by
  induction hsaid generalizing a before with
  | nil =>
      refine ⟨a, rfl, ?_⟩
      rw [List.append_nil]
      exact ha
  | @cons numbered s lines program hs _ ih =>
      rcases (Listing.soundAfter_cons before program s).mp hsound with ⟨hfits, hrest⟩
      rcases line_of_fits a before numbered s ha hs hfits with ⟨c, hc, hreflects⟩
      rcases ih c (before ++ [s]) hreflects hrest with ⟨b, hb, hprogram⟩
      refine ⟨b, ?_, ?_⟩
      · rw [List.foldlM_cons, hc]
        exact hb
      · rw [List.append_cons]
        exact hprogram

/-- Lines are refused for the first of them that offends. -/
theorem read_of_offends (before after : List (List Char × Nat)) (numbered : List Char × Nat)
    (program : List Statement) (e : AssemblyError)
    (hsaid : List.Forall₂ Listing.Says before program) (hsound : Listing.Sound program)
    (h : Listing.Offends program numbered e) :
    (before ++ numbered :: after).foldlM line {} = .error e := by
  rcases read_of_sound before program hsaid {} [] reflects_empty hsound with ⟨a, ha, hreflects⟩
  rw [List.foldlM_append, ha]
  change (numbered :: after).foldlM line a = .error e
  rw [List.foldlM_cons, line_of_offends a program numbered e hreflects h]
  rfl

end Assembly

end Microcode
