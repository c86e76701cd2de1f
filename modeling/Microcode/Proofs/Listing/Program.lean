import Mathlib.Data.List.DropRight
import Microcode.Listing.Assembly
import Microcode.Proofs.Listing.Grammar
/-!
# Programs as Lists of Lines

Counters, labels and references of a listing that has been read.

A program is the list of what its lines say. Everything here is said of the program as a whole,
and never by running along it: `counter` looks back to the last origin and counts the words behind
it, `openLines` looks back to the last word, and a line is a way to split a program into what is
in front of it and what is behind. A word is known by the number of words in front of it
(`split_unique`), which is its place in what is assembled.

What one more line changes is said by `counter_concat`, `labelNames_concat`, `references_concat`
and the two lemmas each about `openLines` and `openLabels`. They are all that a proof about a pass
over the lines has to know.

## Main definitions

* `Statement.isWord`, `Statement.origin?`, `Statement.reference?`: The kinds of lines.
* `Listing.counter`: The address that a next word would have.
* `Listing.labelNames`: The labels that a program defines.
* `Listing.openLines`, `Listing.openLabels`: The lines behind the last word, and their labels.
* `Listing.references`: The words that refer to labels.

## Theorems

* `split_cases`, `exists_split_concat`, `split_unique`: Where a line stands in a program.
* `exists_split_of_lt`: There is a word for each number less than the number of words.
* `counter_concat`, `labelNames_concat`, `references_concat`: One more line.
* `map_fst_openLabels`: The labels behind the last word.
* `mem_references_iff`, `references_pairwise`: Each word refers to one label or to none.
-/

namespace Microcode

namespace Statement

/-- Whether a line is a word. -/
def isWord (s : Statement) : Bool :=
  match s.body with
  | .word _ _ _ => true
  | _ => false

/-- The operand of an `ORG`. -/
def origin? (s : Statement) : Option UInt8 :=
  match s.body with
  | .origin address => some address
  | _ => none

/-- The label that a word refers to. -/
def reference? (s : Statement) : Option String :=
  match s.body with
  | .word _ _ (.label name) => some name
  | _ => none

end Statement

namespace Listing

theorem isWord_iff (s : Statement) :
    s.isWord = true ↔ ∃ hi mid target, s.body = .word hi mid target := by
  rcases s with ⟨line, label, _ | address | ⟨hi, mid, target⟩⟩
  all_goals simp [Statement.isWord]

theorem isWord_of_reference (s : Statement) (name : String) (h : s.reference? = some name) :
    s.isWord = true := by
  rcases s with ⟨line, label, _ | address | ⟨hi, mid, target⟩⟩
  · cases h
  · cases h
  · rfl

/-- The address that a word behind a program would have: the operand of the last `ORG`, or zero,
    plus the number of words since. -/
def counter (program : List Statement) : Nat :=
  ((program.filterMap Statement.origin?).getLast?.map UInt8.toNat).getD 0 +
    (program.rtakeWhile (fun s => s.origin?.isNone)).countP Statement.isWord

/-- The labels that a program defines. -/
def labelNames (program : List Statement) : List String :=
  program.filterMap Statement.label

/-- The lines behind the last word. -/
def openLines (program : List Statement) : List Statement :=
  program.rtakeWhile (fun s => !s.isWord)

/-- The labels behind the last word, with their lines. -/
def openLabels (program : List Statement) : List (String × Nat) :=
  (openLines program).filterMap (fun s => s.label.map (fun name => (name, s.line)))

/-- The words that refer to labels, each with its place among the words. -/
def references (program : List Statement) : List Reference :=
  ((program.filter Statement.isWord).zipIdx).filterMap (fun entry =>
    entry.1.reference?.map (fun label => { index := entry.2, label, line := entry.1.line }))

-- A program with a line is not empty.
theorem nil_ne_split (before after : List Statement) (s : Statement) : [] ≠ before ++ s :: after :=
  (List.append_ne_nil_of_right_ne_nil before (List.cons_ne_nil s after)).symm

/-- Two lines of a program are the same line, or one stands in front of the other. -/
theorem split_cases (before after before' after' : List Statement) (s t : Statement)
    (h : before ++ s :: after = before' ++ t :: after') :
    (before = before' ∧ s = t ∧ after = after') ∨
      (∃ mid, before' = before ++ s :: mid ∧ after = mid ++ t :: after') ∨
        ∃ mid, before = before' ++ t :: mid ∧ after' = mid ++ s :: after := by
  rcases List.append_eq_append_iff.mp h with ⟨mid, rfl, hmid⟩ | ⟨mid, rfl, hmid⟩
  · cases mid with
    | nil =>
        cases hmid
        exact Or.inl ⟨(List.append_nil _).symm, rfl, rfl⟩
    | cons u mid =>
        cases hmid
        exact Or.inr (Or.inl ⟨mid, rfl, rfl⟩)
  · cases mid with
    | nil =>
        cases hmid
        exact Or.inl ⟨List.append_nil _, rfl, rfl⟩
    | cons u mid =>
        cases hmid
        exact Or.inr (Or.inr ⟨mid, rfl, rfl⟩)

/-- A line of a longer program is the last line or an earlier one. -/
theorem exists_split_concat (program before after : List Statement) (t s : Statement)
    (h : program ++ [t] = before ++ s :: after) :
    (before = program ∧ s = t ∧ after = []) ∨
      ∃ front, after = front ++ [t] ∧ program = before ++ s :: front := by
  rcases split_cases before after program [] s t h.symm with
    hlast | ⟨mid, hprogram, hafter⟩ | ⟨mid, _, hnil⟩
  · exact Or.inl hlast
  · exact Or.inr ⟨mid, hafter, hprogram⟩
  · exact absurd hnil (nil_ne_split mid after s)

/-- A word is found again by the number of words in front of it. -/
theorem split_unique (before after before' after' : List Statement) (s t : Statement)
    (h : before ++ s :: after = before' ++ t :: after') (hs : s.isWord = true)
    (ht : t.isWord = true)
    (hcount : before.countP Statement.isWord = before'.countP Statement.isWord) :
    before = before' ∧ s = t := by
  rcases split_cases before after before' after' s t h with
    ⟨hbefore, hst, _⟩ | ⟨mid, rfl, _⟩ | ⟨mid, rfl, _⟩
  · exact ⟨hbefore, hst⟩
  · rw [List.countP_append, List.countP_cons_of_pos hs] at hcount
    omega
  · rw [List.countP_append, List.countP_cons_of_pos ht] at hcount
    omega

/-- There is a word for each number less than the number of words. -/
theorem exists_split_of_lt (program : List Statement) (i : Nat)
    (h : i < program.countP Statement.isWord) :
    ∃ before s after, program = before ++ s :: after ∧ s.isWord = true ∧
      before.countP Statement.isWord = i := by
  induction program using List.reverseRecOn with
  | nil => exact absurd h (Nat.not_lt_zero i)
  | append_singleton program s ih =>
      by_cases hi : i < program.countP Statement.isWord
      · rcases ih hi with ⟨before, t, after, rfl, ht⟩
        refine ⟨before, t, after ++ [s], ?_, ht⟩
        rw [List.append_assoc, List.cons_append]
      · rw [List.countP_append, List.countP_singleton] at h
        split at h
        · rename_i hs
          exact ⟨program, s, [], rfl, hs, by omega⟩
        · exact absurd h hi

theorem counter_concat (program : List Statement) (s : Statement) :
    counter (program ++ [s]) = match s.body with
      | .nothing => counter program
      | .origin address => address.toNat
      | .word _ _ _ => counter program + 1 := by
  unfold counter
  rw [List.filterMap_append, List.rtakeWhile_concat]
  rcases s with ⟨line, label, _ | address | ⟨hi, mid, target⟩⟩
  · simp [Statement.origin?, Statement.isWord]
  · simp [Statement.origin?]
  · simp [Statement.origin?, Statement.isWord, Nat.add_assoc]

theorem labelNames_append (program rest : List Statement) :
    labelNames (program ++ rest) = labelNames program ++ labelNames rest :=
  List.filterMap_append

theorem labelNames_concat (program : List Statement) (s : Statement) :
    labelNames (program ++ [s]) = labelNames program ++ s.label.toList := by
  rw [labelNames_append]
  rfl

theorem openLines_concat_of_word (program : List Statement) (s : Statement)
    (h : s.isWord = true) : openLines (program ++ [s]) = [] := by
  rw [openLines, List.rtakeWhile_concat_neg]
  simp [h]

theorem openLines_concat_of_not_word (program : List Statement) (s : Statement)
    (h : s.isWord = false) : openLines (program ++ [s]) = openLines program ++ [s] := by
  rw [openLines, List.rtakeWhile_concat_pos, openLines]
  simp [h]

theorem openLabels_concat_of_word (program : List Statement) (s : Statement)
    (h : s.isWord = true) : openLabels (program ++ [s]) = [] := by
  rw [openLabels, openLines_concat_of_word program s h, List.filterMap_nil]

theorem openLabels_concat_of_not_word (program : List Statement) (s : Statement)
    (h : s.isWord = false) : openLabels (program ++ [s]) =
      openLabels program ++ (s.label.map (fun name => (name, s.line))).toList := by
  rw [openLabels, openLines_concat_of_not_word program s h, List.filterMap_append, openLabels]
  rfl

-- The labels behind the last word without their lines.
theorem map_fst_openLabels (program : List Statement) :
    (openLabels program).map Prod.fst = labelNames (openLines program) := by
  rw [openLabels, List.map_filterMap, labelNames]
  congr
  funext s
  rw [Option.map_map]
  exact Option.map_id' ..

-- The same with one more line, whatever that is.
theorem map_fst_openLabels_concat (program : List Statement) (s : Statement) :
    (openLabels program ++ (s.label.map (fun name => (name, s.line))).toList).map Prod.fst =
      labelNames (openLines program ++ [s]) := by
  rw [List.map_append, map_fst_openLabels, labelNames_concat, ← Option.toList_map, Option.map_map]
  congr 2
  exact Option.map_id' ..

theorem references_concat (program : List Statement) (s : Statement) :
    references (program ++ [s]) = references program ++ (s.reference?.map (fun label =>
      { index := program.countP Statement.isWord, label, line := s.line })).toList := by
  rw [references, List.filter_append, List.zipIdx_append, List.filterMap_append, references,
    List.countP_eq_length_filter, Nat.zero_add]
  rcases s with ⟨line, label, _ | address | ⟨hi, mid, _ | name⟩⟩
  all_goals rfl

/-- The lines behind the last word are the end of the program, and no words. -/
theorem exists_openLines (program : List Statement) :
    ∃ front, program = front ++ openLines program :=
  ⟨_, List.rdropWhile_append_rtakeWhile.symm⟩

theorem isWord_of_mem_openLines (program : List Statement) (s : Statement)
    (h : s ∈ openLines program) : s.isWord = false := by
  simpa using List.mem_rtakeWhile_imp h

/-- A reference is a word that names a label, and knows how many words are in front of it. -/
theorem mem_references_iff (program : List Statement) (r : Reference) :
    r ∈ references program ↔ ∃ before s after, program = before ++ s :: after ∧
      s.reference? = some r.label ∧ r.line = s.line ∧
      r.index = before.countP Statement.isWord := by
  induction program using List.reverseRecOn with
  | nil =>
      constructor
      · intro h
        cases h
      · rintro ⟨before, s, after, hnil, _⟩
        exact absurd hnil (nil_ne_split before after s)
  | append_singleton program s ih =>
      -- A reference is that of the last line or one of the program in front of it.
      rw [references_concat, List.mem_append, ih, Option.mem_toList, Option.map_eq_some_iff]
      constructor
      · rintro (⟨before, t, after, rfl, ht⟩ | ⟨label, hlabel, rfl⟩)
        · refine ⟨before, t, after ++ [s], ?_, ht⟩
          rw [List.append_assoc, List.cons_append]
        · exact ⟨program, s, [], rfl, hlabel, rfl, rfl⟩
      · rintro ⟨before, t, after, hsplit, hlabel, hline, hindex⟩
        rcases exists_split_concat program before after s t hsplit with
          ⟨rfl, rfl, _⟩ | ⟨front, _, rfl⟩
        · refine Or.inr ⟨r.label, hlabel, ?_⟩
          rw [← hline, ← hindex]
        · exact Or.inl ⟨before, t, front, rfl, hlabel, hline, hindex⟩

theorem references_prefix (program rest : List Statement) :
    references program <+: references (program ++ rest) := by
  unfold references
  rw [List.filter_append, List.zipIdx_append, List.filterMap_append]
  exact List.prefix_append ..

/-- No word refers to two labels. -/
theorem references_pairwise (program : List Statement) :
    (references program).Pairwise (fun r q => r.index ≠ q.index) := by
  induction program using List.reverseRecOn with
  | nil => exact List.Pairwise.nil
  | append_singleton program s ih =>
      rw [references_concat, List.pairwise_append]
      refine ⟨ih, ?_, ?_⟩
      · cases s.reference? with
        | none => exact List.Pairwise.nil
        | some label => exact List.pairwise_singleton ..
      · intro r hr q hq
        rw [Option.mem_toList, Option.map_eq_some_iff] at hq
        rcases hq with ⟨label, _, rfl⟩
        -- The word of an earlier reference is one of the words that the last one counts.
        rcases (mem_references_iff program r).mp hr with ⟨before, t, after, rfl, ht, _, hindex⟩
        simp only [hindex, List.countP_append,
          List.countP_cons_of_pos (isWord_of_reference t r.label ht)]
        omega

end Listing

end Microcode
