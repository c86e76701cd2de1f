import Microcode.Listing.Assembly
import Microcode.Proofs.Listing.Statements
import Microcode.Proofs.Outcomes
/-!
# What a Line Does

The assembler as a sequence of three effects.

A line that is accepted defines a label or not, and then does nothing, sets the address of the
next word, or places a word. The lemmas here say when each of these succeeds and what it leaves
behind, all of it, so that nothing above has to look into the assembler again. `line_preserves`
is the form in which most properties of an assembly are proved: whatever each of the effects
preserves, a line preserves, and with `foldlM_preserves` all lines of a listing.

## Main definitions

* `Assembly.names`: The labels that are defined, bound or waiting.
* `Assembly.labelled`: The assembly after a label.
* `Assembly.wordAt`, `Assembly.placed`: The word that is written, and the assembly after it.
* `Assembly.labelledBy`: The effect of what stands in front of the body of a line.

## Theorems

* `define_eq_ok_iff`: When a label is defined.
* `emit_eq_ok_iff`: When a word is placed.
* `line_eq`, `line_eq_ok_iff`: The parts of a line, and when it is accepted.
* `line_preserves`: What each effect preserves, a line preserves.
* `finish_eq`, `finish_of_full`, `finish_eq_ok_iff`: The end of a listing, and when it succeeds.
* `assemble_eq_ok_iff`: When a listing is assembled.
-/

namespace Microcode

namespace Assembly

/-- The labels that are defined, bound or waiting. -/
def names (a : Assembly) : List String :=
  a.symbols.map Prod.fst ++ a.waiting.map Prod.fst

/-- The assembly after a label. -/
def labelled (a : Assembly) (line : Nat) (name : String) : Assembly :=
  { a with waiting := a.waiting ++ [(name, line)] }

/-- The word that is written for two bytes and a target. -/
def wordAt (a : Assembly) (line : Nat) (hi mid : UInt8) (target : Target) : MicroWord where
  write := hi >>> 4
  read := hi &&& 0xF
  alu := mid >>> 4
  jump := mid &&& 0xF
  jumpAddress := (a.jumpAddress line target).1
  label := a.waiting.getLast?.map Prod.fst
  address := some (UInt8.ofNat a.next)

/-- The assembly after a word. -/
def placed (a : Assembly) (line : Nat) (hi mid : UInt8) (target : Target) : Assembly :=
  { a.bindLabels (UInt8.ofNat a.next) with
    next := a.next + 1
    references := a.references ++ (a.jumpAddress line target).2
    words := a.words.push (a.wordAt line hi mid target) }

/-- The effect of what stands in front of the body of a line. -/
def labelledBy (a : Assembly) (line : Nat) : Option Token → Except AssemblyError Assembly
  | some token => a.define line token
  | none => .ok a

theorem defines_iff (a : Assembly) (name : String) : a.defines name = true ↔ name ∈ a.names := by
  simp only [defines, names, Bool.or_eq_true, List.any_eq_true, beq_iff_eq, List.mem_append,
    List.mem_map]

/-- Binding the labels keeps their names. -/
theorem names_bindLabels (a : Assembly) (address : UInt8) :
    (a.bindLabels address).names = a.names := by
  have hfst : (Prod.fst ∘ fun entry : String × Nat => (entry.1, address)) = Prod.fst := rfl
  rw [names, bindLabels, names, List.map_append, List.map_map, hfst, List.map_nil,
    List.append_nil]

theorem names_labelled (a : Assembly) (line : Nat) (name : String) :
    (a.labelled line name).names = a.names ++ [name] := by
  rw [names, labelled, names, List.map_append, List.append_assoc]
  rfl

theorem names_placed (a : Assembly) (line : Nat) (hi mid : UInt8) (target : Target) :
    (a.placed line hi mid target).names = a.names :=
  a.names_bindLabels (UInt8.ofNat a.next)

/-- A label is defined if it has a name and the name is new. -/
theorem define_eq_ok_iff (a b : Assembly) (line : Nat) (token : Token) :
    a.define line token = .ok b ↔
      Listing.labelName token ≠ "" ∧ Listing.labelName token ∉ a.names ∧
        b = a.labelled line (Listing.labelName token) := by
  simp only [define]
  by_cases hempty : (Listing.labelName token).isEmpty = true
  · rw [if_pos hempty]
    constructor
    · intro h
      cases h
    · rintro ⟨hne, _⟩
      exact absurd (String.isEmpty_iff.mp hempty) hne
  · rw [if_neg hempty]
    have hne : Listing.labelName token ≠ "" := fun h => hempty (String.isEmpty_iff.mpr h)
    by_cases hdefined : a.defines (Listing.labelName token) = true
    · rw [if_pos hdefined]
      constructor
      · intro h
        cases h
      · rintro ⟨_, hnew, _⟩
        exact absurd ((a.defines_iff _).mp hdefined) hnew
    · rw [if_neg hdefined]
      have hnew : Listing.labelName token ∉ a.names := fun h =>
        hdefined ((a.defines_iff _).mpr h)
      constructor
      · intro h
        cases h
        exact ⟨hne, hnew, rfl⟩
      · rintro ⟨_, _, rfl⟩
        rfl

theorem address_eq_ok_iff (a : Assembly) (line : Nat) (address : UInt8) :
    a.address line = .ok address ↔ a.next < 256 ∧ address = UInt8.ofNat a.next := by
  unfold Assembly.address
  by_cases hnext : a.next < 256
  · rw [if_pos hnext, Except.ok.injEq]
    exact ⟨fun h => ⟨hnext, h.symm⟩, fun h => h.2.symm⟩
  · rw [if_neg hnext]
    constructor
    · intro h
      cases h
    · rintro ⟨h, _⟩
      exact absurd h hnext

/-- A word is placed if there is an address left for it. -/
theorem emit_eq_ok_iff (a b : Assembly) (line : Nat) (hi mid : UInt8) (target : Target) :
    a.emit line hi mid target = .ok b ↔ a.next < 256 ∧ b = a.placed line hi mid target := by
  simp only [emit, bind_eq_ok_iff, address_eq_ok_iff, mapError_eq_ok_iff,
    MicroWord.ofCodes_nibbles, Except.ok.injEq, pure, Except.pure]
  constructor
  · rintro ⟨_, ⟨hnext, rfl⟩, _, rfl, rfl⟩
    exact ⟨hnext, rfl⟩
  · rintro ⟨hnext, rfl⟩
    exact ⟨_, ⟨hnext, rfl⟩, _, rfl, rfl⟩

/-- A line is its label, its body and the effect of its body, one after the other. -/
theorem line_eq (a : Assembly) (numbered : List Char × Nat) (label : Option Token)
    (rest : List Token) (h : Listing.splitLabel (Listing.tokens numbered.1) = (label, rest)) :
    a.line numbered = (a.labelledBy numbered.2 label >>= fun c =>
      (Body.ofTokens rest).mapError (.syntaxFault numbered.2) >>= fun body =>
        c.body numbered.2 body) := by
  rw [line, h]
  cases label with
  | none => rfl
  | some token => rfl

/-- A line is accepted if its label, its body and the effect of its body are. -/
theorem line_eq_ok_iff (a b : Assembly) (numbered : List Char × Nat) :
    a.line numbered = .ok b ↔ ∃ c body,
      a.labelledBy numbered.2 (Listing.splitLabel (Listing.tokens numbered.1)).1 = .ok c ∧
      Body.ofTokens (Listing.splitLabel (Listing.tokens numbered.1)).2 = .ok body ∧
      c.body numbered.2 body = .ok b := by
  simp only [a.line_eq numbered _ _ rfl, bind_eq_ok_iff, mapError_eq_ok_iff]
  constructor
  · rintro ⟨c, hc, body, hbody, h⟩
    exact ⟨c, body, hc, hbody, h⟩
  · rintro ⟨c, body, hc, hbody, h⟩
    exact ⟨c, hc, body, hbody, h⟩

/-- What each effect preserves, a line preserves. -/
theorem line_preserves (P : Assembly → Prop)
    (hlabel : ∀ a line token, Listing.IsToken token → Listing.labelName token ≠ "" →
      Listing.labelName token ∉ a.names → P a → P (a.labelled line (Listing.labelName token)))
    (horigin : ∀ a (address : UInt8), P a → P { a with next := address.toNat })
    (hword : ∀ a line hi mid target, a.next < 256 → P a → P (a.placed line hi mid target))
    (a b : Assembly) (numbered : List Char × Nat) (ha : P a) (h : a.line numbered = .ok b) :
    P b := by
  -- The label takes effect first, and the body finds the assembly that it leaves.
  rcases (a.line_eq_ok_iff b numbered).mp h with ⟨c, body, hc, _, hb⟩
  have hPc : P c := by
    cases hsplit : Listing.splitLabel (Listing.tokens numbered.1) with
    | mk label rest =>
        rw [hsplit] at hc
        cases label with
        | none =>
            cases hc
            exact ha
        | some token =>
            rcases (a.define_eq_ok_iff c _ token).mp hc with ⟨hne, hnew, rfl⟩
            exact hlabel a _ token (Listing.isToken_of_splitLabel _ token rest hsplit) hne hnew ha
  cases body with
  | nothing =>
      cases hb
      exact hPc
  | origin address =>
      cases hb
      exact horigin c address hPc
  | word hi mid target =>
      rcases (c.emit_eq_ok_iff b _ hi mid target).mp hb with ⟨hnext, rfl⟩
      exact hword c _ hi mid target hnext hPc

theorem bindLabels_of_waiting (a : Assembly) (address : UInt8) (h : a.waiting = []) :
    a.bindLabels address = a := by
  cases a with
  | mk next symbols waiting references words =>
      cases h
      rw [bindLabels, List.map_nil, List.append_nil]

/-- With an address for the labels behind the last word, what is left is the references. -/
theorem finish_eq (a : Assembly) (h : a.waiting ≠ [] → a.next < 256) :
    a.finish = (a.references.toList.foldlM
      (resolve (a.bindLabels (UInt8.ofNat a.next)).symbols) a.words >>= fun words =>
        pure { a.bindLabels (UInt8.ofNat a.next) with words }) := by
  unfold finish
  cases hlast : a.waiting.getLast? with
  | none =>
      -- With nothing to bind, no address is asked for.
      rw [a.bindLabels_of_waiting _ (List.getLast?_eq_none_iff.mp hlast)]
      rfl
  | some entry =>
      have hnext := h (List.ne_nil_of_mem (List.mem_of_getLast? hlast))
      have haddress := (a.address_eq_ok_iff entry.2 _).mpr ⟨hnext, rfl⟩
      simp only [haddress]
      rfl

/-- Without an address for them, the last of these labels is reported. -/
theorem finish_of_full (a : Assembly) (name : String) (line : Nat)
    (hlast : a.waiting.getLast? = some (name, line)) (h : ¬ a.next < 256) :
    a.finish = .error (.addressOverflow line) := by
  simp only [finish, hlast, address, if_neg h]
  rfl

/-- The labels behind the last word are bound if there is an address left for them, and then
    every reference has to find its label. -/
theorem finish_eq_ok_iff (a b : Assembly) :
    a.finish = .ok b ↔ (a.waiting ≠ [] → a.next < 256) ∧ ∃ words,
      a.references.toList.foldlM (resolve (a.bindLabels (UInt8.ofNat a.next)).symbols) a.words =
        .ok words ∧
      b = { a.bindLabels (UInt8.ofNat a.next) with words } := by
  by_cases hroom : a.waiting ≠ [] → a.next < 256
  · simp only [a.finish_eq hroom, bind_eq_ok_iff, pure, Except.pure, Except.ok.injEq]
    constructor
    · rintro ⟨words, hwords, rfl⟩
      exact ⟨hroom, words, hwords, rfl⟩
    · rintro ⟨_, words, hwords, rfl⟩
      exact ⟨words, hwords, rfl⟩
  · rcases Classical.not_imp.mp hroom with ⟨hopen, hfull⟩
    rw [a.finish_of_full _ _ (List.getLast?_eq_some_getLast hopen) hfull]
    constructor
    · intro h
      cases h
    · rintro ⟨h, _⟩
      exact absurd h hroom

end Assembly

/-- The words of a listing are those that its finished assembly holds. -/
theorem assemble_eq_ok_iff (source : String) (words : List MicroWord) :
    assemble source = .ok words ↔ ∃ a b,
      (Listing.numberedLines source).foldlM Assembly.line {} = .ok a ∧ a.finish = .ok b ∧
        b.words.toList = words := by
  simp only [assemble, Assembly.ofSource, map_eq_ok_iff, bind_eq_ok_iff]
  constructor
  · rintro ⟨b, ⟨a, ha, hb⟩, hwords⟩
    exact ⟨a, b, ha, hb, hwords⟩
  · rintro ⟨a, b, ha, hb, hwords⟩
    exact ⟨b, ⟨a, ha, hb⟩, hwords⟩

end Microcode
