import Mathlib.Data.List.Nodup
import Microcode.Proofs.Listing.Program
/-!
# What Is Wrong with a Listing

When a listing means something, and where to look if it does not.

A listing is valid if its lines say something, its labels have names and are distinct, its words
and the labels behind them have addresses, and its references find labels. `Blames` says what a
listing that is not valid is to be blamed for. There are three kinds of reasons, each of which is
looked for only if there is none of the kinds in front of it: the first line that offends, the
labels behind the last word if there is no address left for them, and the first reference without
a label. Within a line the label is looked at first, then the body, then the address.

Neither says anything of an assembler. That there is always one or the other is
`valid_or_blames`.

## Main definitions

* `Listing.Fits`, `Listing.Sound`: What is asked of a line by those in front of it.
* `Listing.IsNew`: The label of a line can be defined.
* `Listing.Offends`: Why a line cannot stand behind the lines in front of it.
* `Listing.Valid`: A program means something.
* `Listing.Blames`: Why a listing does not mean anything.

## Theorems

* `sound_iff`: The conditions on the lines as conditions on the program.
* `says_or_offends`: A line says something that fits, or it offends.
* `sound_or_offends`: All lines fit, or one of them is the first that offends.
* `valid_iff`: A valid program is sound, and its end is in order.
* `valid_or_blames`: A listing is valid or to be blamed for something.
-/

namespace Microcode

namespace Listing

/-- What the lines in front of a line ask of it: its label has a name and is new, and there is an
    address for its word. -/
structure Fits (before : List Statement) (s : Statement) : Prop where
  named : s.label ≠ some ""
  new : ∀ name, s.label = some name → name ∉ labelNames before
  room : s.isWord = true → counter before ≤ 0xFF

/-- Every line of the rest of a program fits behind the lines in front of it. -/
def SoundAfter (before rest : List Statement) : Prop :=
  ∀ front s after, rest = front ++ s :: after → Fits (before ++ front) s

/-- Every line of a program fits behind the lines in front of it. -/
def Sound (program : List Statement) : Prop :=
  SoundAfter [] program

/-- The label of a line, if it has one, is not empty and not defined yet. -/
def IsNew (before : List Statement) (label : Option Token) : Prop :=
  ∀ token, label = some token → token ≠ [] ∧ labelName token ∉ labelNames before

/-- Why a line cannot stand behind the lines in front of it. -/
inductive Offends (before : List Statement) : List Char × Nat → AssemblyError → Prop where
  | emptyLabel (chars : List Char) (n : Nat) (rest : List Token)
      (hheads : Heads (tokens chars) (some []) rest) :
      Offends before (chars, n) (.syntaxFault n .emptyLabel)
  | duplicateLabel (chars : List Char) (n : Nat) (token : Token) (rest : List Token)
      (hheads : Heads (tokens chars) (some token) rest) (hne : token ≠ [])
      (h : labelName token ∈ labelNames before) :
      Offends before (chars, n) (.duplicateLabel n (labelName token))
  | body (chars : List Char) (n : Nat) (label : Option Token) (rest : List Token)
      (fault : SyntaxFault) (hheads : Heads (tokens chars) label rest)
      (hnew : IsNew before label) (h : BodyFault rest fault) :
      Offends before (chars, n) (.syntaxFault n fault)
  | overflow (chars : List Char) (n : Nat) (label : Option Token) (rest : List Token)
      (hi mid : UInt8) (target : Target) (hheads : Heads (tokens chars) label rest)
      (hnew : IsNew before label) (hbody : SaysBody rest (.word hi mid target))
      (h : 0xFF < counter before) : Offends before (chars, n) (.addressOverflow n)

/-- A program means something. -/
structure Valid (program : List Statement) : Prop where
  named : ∀ s, s ∈ program → s.label ≠ some ""
  distinct : (labelNames program).Nodup
  placed : ∀ before s after, program = before ++ s :: after → s.isWord = true →
    counter before ≤ 0xFF
  /-- There is an address for the labels behind the last word. It is the one past that word, unless
      an `ORG` behind it moves it. -/
  closed : openLabels program ≠ [] → counter program ≤ 0xFF
  defined : ∀ s, s ∈ program → ∀ name, s.reference? = some name → name ∈ labelNames program

/-- Why a listing does not mean anything. -/
inductive Blames (source : String) : AssemblyError → Prop where
  /-- A line offends, and those in front of it do not. -/
  | line (before after : List (List Char × Nat)) (numbered : List Char × Nat)
      (program : List Statement) (e : AssemblyError)
      (hlines : numberedLines source = before ++ numbered :: after)
      (hsaid : List.Forall₂ Says before program) (hsound : Sound program)
      (h : Offends program numbered e) : Blames source e
  /-- No line offends, but there is no address for the labels behind the last word. -/
  | lastLabel (program : List Statement) (name : String) (n : Nat)
      (hsaid : List.Forall₂ Says (numberedLines source) program) (hsound : Sound program)
      (hlast : (openLabels program).getLast? = some (name, n)) (h : 0xFF < counter program) :
      Blames source (.addressOverflow n)
  /-- All labels have addresses, but a word refers to none of them. -/
  | reference (program before after : List Statement) (s : Statement) (name : String)
      (hsaid : List.Forall₂ Says (numberedLines source) program) (hsound : Sound program)
      (hclosed : openLabels program ≠ [] → counter program ≤ 0xFF)
      (hsplit : program = before ++ s :: after)
      (hfirst : ∀ t, t ∈ before → ∀ other, t.reference? = some other →
        other ∈ labelNames program)
      (hname : s.reference? = some name) (h : name ∉ labelNames program) :
      Blames source (.undefinedLabel s.line name)

theorem soundAfter_nil (before : List Statement) : SoundAfter before [] :=
  fun front s after h => absurd h (nil_ne_split front after s)

theorem soundAfter_cons (before rest : List Statement) (s : Statement) :
    SoundAfter before (s :: rest) ↔ Fits before s ∧ SoundAfter (before ++ [s]) rest := by
  constructor
  · intro h
    refine ⟨?_, ?_⟩
    · have hs := h [] s rest rfl
      rw [List.append_nil] at hs
      exact hs
    · rintro front t after rfl
      rw [List.append_assoc]
      exact h (s :: front) t after rfl
  · rintro ⟨hs, hrest⟩ front t after hsplit
    -- The line in question is the first one or one of the rest.
    cases front with
    | nil =>
        cases hsplit
        rw [List.append_nil]
        exact hs
    | cons u us =>
        cases hsplit
        have ht := hrest us t after rfl
        rw [List.append_assoc] at ht
        exact ht

/-- Labels that are new when they are defined are distinct. -/
theorem nodup_of_soundAfter (before rest : List Statement) (h : SoundAfter before rest)
    (hbefore : (labelNames before).Nodup) : (labelNames (before ++ rest)).Nodup := by
  induction rest generalizing before with
  | nil =>
      rw [List.append_nil]
      exact hbefore
  | cons s rest ih =>
      rcases (soundAfter_cons before rest s).mp h with ⟨hs, hrest⟩
      rw [List.append_cons]
      refine ih (before ++ [s]) hrest ?_
      rw [labelNames_concat, List.nodup_append]
      refine ⟨hbefore, Option.toList_nodup s.label, ?_⟩
      rintro name hname other hother rfl
      exact hs.new name (Option.mem_toList.mp hother) hname

/-- The conditions on the lines are these conditions on the program. -/
theorem sound_iff (program : List Statement) :
    Sound program ↔ (∀ s, s ∈ program → s.label ≠ some "") ∧ (labelNames program).Nodup ∧
      ∀ before s after, program = before ++ s :: after → s.isWord = true →
        counter before ≤ 0xFF := by
  constructor
  · intro h
    refine ⟨fun s hs => ?_, nodup_of_soundAfter [] program h List.nodup_nil, ?_⟩
    · rcases List.append_of_mem hs with ⟨before, after, hsplit⟩
      exact (h before s after hsplit).named
    · intro before s after hsplit hword
      exact (h before s after hsplit).room hword
  · rintro ⟨hnamed, hnodup, hroom⟩ before s after rfl
    refine ⟨hnamed s (List.mem_append_right _ (List.mem_cons_self ..)), ?_,
      hroom before s after rfl⟩
    intro name hname hmem
    rw [labelNames_append, labelNames, labelNames, List.filterMap_cons_some hname] at hnodup
    exact (List.nodup_append.mp hnodup).2.2 name hmem name (List.mem_cons_self ..) rfl

-- The conditions on the label of a line, in terms of its name.
theorem isNew_map (before : List Statement) (label : Option Token) (h : IsNew before label) :
    label.map labelName ≠ some "" ∧
      ∀ name, label.map labelName = some name → name ∉ labelNames before := by
  cases label with
  | none =>
      refine ⟨fun hnone => ?_, fun name hnone => ?_⟩
      · cases hnone
      · cases hnone
  | some token =>
      rcases h token rfl with ⟨hne, hnew⟩
      refine ⟨fun hempty => ?_, fun name hname => ?_⟩
      · exact hne ((labelName_eq_empty_iff token).mp (Option.some.inj hempty))
      · rw [← Option.some.inj hname]
        exact hnew

/-- A line says something that fits, or it offends. -/
theorem says_or_offends (before : List Statement) (numbered : List Char × Nat) :
    (∃ s, Says numbered s ∧ Fits before s) ∨ ∃ e, Offends before numbered e := by
  rcases numbered with ⟨chars, n⟩
  rcases exists_heads (tokens chars) with ⟨label, rest, hheads⟩
  -- The label comes first, since a line with two faults is blamed for that of its label.
  have hlabel : IsNew before label ∨ ∃ e, Offends before (chars, n) e := by
    cases label with
    | none => exact Or.inl fun token hnone => absurd hnone (Option.some_ne_none token).symm
    | some token =>
        by_cases hne : token = []
        · subst hne
          exact Or.inr ⟨_, .emptyLabel chars n rest hheads⟩
        · by_cases hmem : labelName token ∈ labelNames before
          · exact Or.inr ⟨_, .duplicateLabel chars n token rest hheads hne hmem⟩
          · refine Or.inl fun other hother => ?_
            cases hother
            exact ⟨hne, hmem⟩
  rcases hlabel with hnew | hoffends
  · rcases saysBody_or_fault rest (ne_nil_of_heads chars label rest hheads) with
      ⟨body, hbody⟩ | ⟨fault, hfault⟩
    · rcases isNew_map before label hnew with ⟨hnamed, hdistinct⟩
      by_cases hroom : ({ line := n, label := label.map labelName, body } : Statement).isWord =
          true → counter before ≤ 0xFF
      · exact Or.inl ⟨_, .intro chars n label rest body hheads hbody, hnamed, hdistinct, hroom⟩
      · rcases Classical.not_imp.mp hroom with ⟨hword, hfull⟩
        rcases (isWord_iff _).mp hword with ⟨hi, mid, target, rfl⟩
        exact Or.inr ⟨_, .overflow chars n label rest hi mid target hheads hnew hbody
          (Nat.lt_of_not_le hfull)⟩
    · exact Or.inr ⟨_, .body chars n label rest fault hheads hnew hfault⟩
  · exact Or.inr hoffends

/-- All lines fit, or one of them is the first that offends. -/
theorem sound_or_offends (before : List Statement) (lines : List (List Char × Nat)) :
    (∃ program, List.Forall₂ Says lines program ∧ SoundAfter before program) ∨
      ∃ front numbered after program e, lines = front ++ numbered :: after ∧
        List.Forall₂ Says front program ∧ SoundAfter before program ∧
          Offends (before ++ program) numbered e := by
  induction lines generalizing before with
  | nil => exact Or.inl ⟨[], .nil, soundAfter_nil before⟩
  | cons numbered lines ih =>
      rcases says_or_offends before numbered with ⟨s, hsaid, hfits⟩ | ⟨e, hoffends⟩
      · rcases ih (before ++ [s]) with ⟨program, hprogram, hsound⟩ |
          ⟨front, other, after, program, e, rfl, hprogram, hsound, hoffends⟩
        · exact Or.inl ⟨s :: program, .cons hsaid hprogram,
            (soundAfter_cons before program s).mpr ⟨hfits, hsound⟩⟩
        · rw [List.append_assoc] at hoffends
          exact Or.inr ⟨numbered :: front, other, after, s :: program, e, rfl,
            .cons hsaid hprogram, (soundAfter_cons before program s).mpr ⟨hfits, hsound⟩,
            hoffends⟩
      · refine Or.inr ⟨[], numbered, lines, [], e, rfl, .nil, soundAfter_nil before, ?_⟩
        rw [List.append_nil]
        exact hoffends

/-- A valid program is sound, and its end is in order. -/
theorem valid_iff (program : List Statement) :
    Valid program ↔ Sound program ∧ (openLabels program ≠ [] → counter program ≤ 0xFF) ∧
      ∀ s, s ∈ program → ∀ name, s.reference? = some name → name ∈ labelNames program := by
  rw [sound_iff]
  constructor
  · intro h
    exact ⟨⟨h.named, h.distinct, h.placed⟩, h.closed, h.defined⟩
  · rintro ⟨⟨hnamed, hdistinct, hplaced⟩, hclosed, hdefined⟩
    exact ⟨hnamed, hdistinct, hplaced, hclosed, hdefined⟩

/-- All references of a program find labels, or there is a first that does not. -/
theorem defined_or_first (program : List Statement) (names : List String) :
    (∀ s, s ∈ program → ∀ name, s.reference? = some name → name ∈ names) ∨
      ∃ before s after name, program = before ++ s :: after ∧
        (∀ t, t ∈ before → ∀ other, t.reference? = some other → other ∈ names) ∧
          s.reference? = some name ∧ name ∉ names := by
  induction program with
  | nil => exact Or.inl fun s hs => absurd hs List.not_mem_nil
  | cons s rest ih =>
      by_cases hs : ∀ name, s.reference? = some name → name ∈ names
      · rcases ih with hrest | ⟨before, t, after, name, rfl, hfirst, hname, hundefined⟩
        · exact Or.inl (List.forall_mem_cons.mpr ⟨hs, hrest⟩)
        · exact Or.inr ⟨s :: before, t, after, name, rfl, List.forall_mem_cons.mpr ⟨hs, hfirst⟩,
            hname, hundefined⟩
      · rcases not_forall.mp hs with ⟨name, hname⟩
        rcases Classical.not_imp.mp hname with ⟨href, hundefined⟩
        exact Or.inr ⟨[], s, rest, name, rfl, fun t ht => absurd ht List.not_mem_nil, href,
          hundefined⟩

/-- A listing is valid or to be blamed for something. -/
theorem valid_or_blames (source : String) :
    (∃ program, List.Forall₂ Says (numberedLines source) program ∧ Valid program) ∨
      ∃ e, Blames source e := by
  rcases sound_or_offends [] (numberedLines source) with ⟨program, hsaid, hsound⟩ |
    ⟨front, numbered, after, program, e, hlines, hsaid, hsound, hoffends⟩
  · by_cases hclosed : openLabels program ≠ [] → counter program ≤ 0xFF
    · rcases defined_or_first program (labelNames program) with hdefined |
        ⟨before, s, after, name, hsplit, hfirst, hname, hundefined⟩
      · exact Or.inl ⟨program, hsaid, (valid_iff program).mpr ⟨hsound, hclosed, hdefined⟩⟩
      · exact Or.inr ⟨_, .reference program before after s name hsaid hsound hclosed hsplit hfirst
          hname hundefined⟩
    · rcases Classical.not_imp.mp hclosed with ⟨hopen, hfull⟩
      exact Or.inr ⟨_, .lastLabel program _ _ hsaid hsound (List.getLast?_eq_some_getLast hopen)
        (Nat.lt_of_not_le hfull)⟩
  · exact Or.inr ⟨e, .line front after numbered program e hlines hsaid hsound hoffends⟩

end Listing

end Microcode
