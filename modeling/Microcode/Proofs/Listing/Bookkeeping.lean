import Mathlib.Data.List.DropRight
import Microcode.Proofs.Listing.Resolving
/-!
# The Books of an Assembly

What an assembly keeps of the lines that it has read, and that it can rely on it.

Three things are looked up without a check. The first token of a line is taken as soon as there is
text in front of the comment; a word that refers to a label is noted by the place that it is about
to get, when it may still fail to get one; and at the end the noted places are looked up in the
output. `firstLook_eq`, `inOrder_of_read` and `resolve_in_range` say that there always is something
to be found.

The middle one is an invariant. `Wrote` tells which line has written which word, in terms of the
assembly that the line was read in, and `InOrder` says of an assembly that its notes agree with
that: of the notes on a place there is one if the line there named a label, and none otherwise. A
line that fails leaves no assembly behind, and so a note without a word is never seen.

Two errors that a line could report are ruled out altogether. Two bytes always form a word, and
two digits are always a byte.

## Main definitions

* `Text.trim`: A text without the blanks at its ends.
* `Listing.firstLook`: The label of a line by a look at its first token.
* `Assembly.Wrote`: A line has written a word.
* `Target.notes`: What is noted of a word.
* `Assembly.InOrder`: The notes of an assembly agree with the lines that it has read.
* `Assembly.Resolved`: A word after the references have been resolved.

## Theorems

* `words_trim`, `words_ne_nil_of_trim`: Trimming a text.
* `firstLook_eq`: There is a first token wherever one is looked for.
* `line_error_cases`: The errors that a line can report.
* `line_cases`: What a line does to the output and the notes.
* `inOrder_line`, `inOrder_of_read`: The books are kept line by line, and so throughout.
* `resolve_in_range`: Every noted place is there when it is looked up.
* `finish_resolved`: What the end of a listing does to each word.
* `books_in_order`: The books after any number of lines, and what is made of them.
* `books_in_order_forward`: A listing that refers forward across an `ORG`.
-/

namespace Microcode

namespace Text

/-- A text without the blanks at its ends. -/
def trim (cs : List Char) : List Char :=
  (cs.dropWhile isBlank).rdropWhile isBlank

/-- The words of a text are those of the trimmed text. -/
theorem words_trim (cs : List Char) : words (trim cs) = words cs := by
  have hfront : ∀ c, c ∈ cs.takeWhile isBlank → isBlank c = true :=
    fun c hc => List.mem_takeWhile_imp hc
  have hback : ∀ c, c ∈ (cs.dropWhile isBlank).rtakeWhile isBlank → isBlank c = true :=
    fun c hc => List.mem_rtakeWhile_imp hc
  calc words (trim cs)
      = words ((cs.dropWhile isBlank).rdropWhile isBlank ++
          (cs.dropWhile isBlank).rtakeWhile isBlank) := (words_trailing _ _ hback).symm
    _ = words (cs.dropWhile isBlank) := by rw [List.rdropWhile_append_rtakeWhile]
    _ = words (cs.takeWhile isBlank ++ cs.dropWhile isBlank) := (words_indented _ _ hfront).symm
    _ = words cs := by rw [List.takeWhile_append_dropWhile]

/-- A text of which something is left has a word. -/
theorem words_ne_nil_of_trim (cs : List Char) (h : trim cs ≠ []) : words (trim cs) ≠ [] := by
  have hlast : ¬ isBlank ((trim cs).getLast h) = true := List.rdropWhile_last_not _ _ h
  rcases mem_words_of_mem _ _ (List.getLast_mem h) (Bool.eq_false_iff.mpr hlast) with ⟨w, hw, _⟩
  exact List.ne_nil_of_mem hw

end Text

namespace Listing

/-- The label that a line defines, and the tokens of its body, by a look at the first token. It is
    taken if there is text in front of the comment, and fails if there is no token then. -/
def firstLook (line : List Char) : Option (Option Token × List Token) :=
  let text := Text.trim (line.takeWhile (· != ';'))
  if text = [] then some (none, [])
  else (Text.words text)[0]?.map fun first => match labelOf? first with
    | some label => (some label, (Text.words text).eraseIdx 0)
    | none => (none, Text.words text)

/-- There is a first token wherever one is looked for. -/
theorem firstLook_eq (line : List Char) : firstLook line = some (splitLabel (tokens line)) := by
  have htokens : Text.words (Text.trim (line.takeWhile (· != ';'))) = tokens line :=
    Text.words_trim _
  unfold firstLook
  by_cases hempty : Text.trim (line.takeWhile (· != ';')) = []
  · rw [if_pos hempty]
    rw [hempty] at htokens
    rw [← htokens]
    rfl
  · rw [if_neg hempty, htokens]
    have hne := Text.words_ne_nil_of_trim _ hempty
    rw [htokens] at hne
    cases hline : tokens line with
    | nil => exact absurd hline hne
    | cons first rest =>
        cases hlabel : labelOf? first with
        | none => simp only [List.getElem?_cons_zero, Option.map_some, hlabel, splitLabel]
        | some label =>
            simp only [List.getElem?_cons_zero, Option.map_some, hlabel, splitLabel,
              List.eraseIdx_zero, List.tail_cons]

end Listing

/-- What is noted of a word at a place, written by a line. -/
def Target.notes (i n : Nat) : Target → List Reference
  | .fixed _ => []
  | .label name => [{ index := i, label := name, line := n }]

/-- What is noted of a word is its place, its line and its label. -/
theorem Target.mem_notes (target : Target) (i n : Nat) (r : Reference)
    (h : r ∈ target.notes i n) : r.index = i ∧ r.line = n ∧ target = .label r.label := by
  cases target with
  | fixed address => exact absurd h List.not_mem_nil
  | label name =>
      rw [List.mem_singleton.mp h]
      exact ⟨rfl, rfl, rfl⟩

theorem Target.notes_pairwise (target : Target) (i n : Nat) :
    (target.notes i n).Pairwise (fun r q => r.index < q.index) := by
  cases target with
  | fixed address => exact List.Pairwise.nil
  | label name => exact List.pairwise_singleton ..

/-- The notes on a place are those of the word there. -/
theorem Target.filter_notes (target : Target) (i n j : Nat) :
    (target.notes i n).filter (fun r => r.index == j) = if j = i then target.notes i n else [] := by
  by_cases h : j = i
  · rw [if_pos h, List.filter_eq_self]
    intro r hr
    rw [(target.mem_notes i n r hr).1, h, beq_self_eq_true]
  · rw [if_neg h, List.filter_eq_nil_iff]
    intro r hr hc
    rw [(target.mem_notes i n r hr).1, beq_iff_eq] at hc
    exact h hc.symm

namespace Assembly

open Listing

/-- A line has written a word at a place: it was read behind the lines in front of it, its body is
    a word with the given target, and reading it added the word to as many as there were. -/
inductive Wrote (lines : List (List Char × Nat)) (n : Nat) (target : Target) (i : Nat)
    (w : MicroWord) : Prop where
  | intro (before after : List (List Char × Nat)) (chars : List Char) (hi mid : UInt8)
      (a b : Assembly) (hlines : lines = before ++ (chars, n) :: after)
      (hbefore : before.foldlM line {} = .ok a)
      (hbody : Body.ofTokens (splitLabel (tokens chars)).2 = .ok (.word hi mid target))
      (hline : a.line (chars, n) = .ok b) (hplace : a.words.size = i)
      (hword : b.words = a.words.push w) : Wrote lines n target i w

/-- The notes of an assembly agree with the lines that it has read. -/
structure InOrder (lines : List (List Char × Nat)) (a : Assembly) : Prop where
  range : ∀ r, r ∈ a.references.toList → r.index < a.words.size
  ascending : a.references.toList.Pairwise (fun r q => r.index < q.index)
  /-- The word at a noted place was written by the noted line, and for the noted label. -/
  noted : ∀ r, r ∈ a.references.toList →
    ∃ w, a.words[r.index]? = some w ∧ Wrote lines r.line (.label r.label) r.index w
  /-- Every word was written by a line, and is noted once if the line named a label. -/
  written : ∀ i w, a.words[i]? = some w → ∃ n target, Wrote lines n target i w ∧
    a.references.toList.filter (fun r => r.index == i) = target.notes i n

/-- A word after the references have been resolved: it points at its label, or is as it was. -/
def Resolved (symbols : List (String × UInt8)) (w w' : MicroWord) : Target → Prop
  | .fixed _ => w' = w
  | .label name => ∃ address, (name, address) ∈ symbols ∧ w' = w.retarget address

/-- The errors that a line can report. Neither are there codes that do not fit among them, nor a
    short address that is no byte. -/
theorem line_error_cases (a : Assembly) (chars : List Char) (n : Nat) (e : AssemblyError)
    (h : a.line (chars, n) = .error e) :
    e = .syntaxFault n .emptyLabel ∨ (∃ name, e = .duplicateLabel n name) ∨
      (∃ rest fault, BodyFault rest fault ∧ e = .syntaxFault n fault) ∨
        e = .addressOverflow n := by
  rcases exists_heads (tokens chars) with ⟨label, rest, hheads⟩
  rw [a.line_eq (chars, n) label rest ((splitLabel_eq_iff _ _ _).mpr hheads)] at h
  cases hlabel : a.labelledBy n label with
  | error e' =>
      rw [hlabel] at h
      cases h
      cases label with
      | none => cases hlabel
      | some token =>
          simp only [labelledBy, define] at hlabel
          by_cases hempty : (labelName token).isEmpty = true
          · rw [if_pos hempty] at hlabel
            cases hlabel
            exact Or.inl rfl
          · by_cases hdefined : a.defines (labelName token) = true
            · rw [if_neg hempty, if_pos hdefined] at hlabel
              cases hlabel
              exact Or.inr (Or.inl ⟨_, rfl⟩)
            · rw [if_neg hempty, if_neg hdefined] at hlabel
              cases hlabel
  | ok c =>
      rw [hlabel] at h
      rcases saysBody_or_fault rest (ne_nil_of_heads chars label rest hheads) with
        ⟨body, hbody⟩ | ⟨fault, hfault⟩
      · rw [(ofTokens_eq_ok_iff rest body).mpr hbody] at h
        cases body with
        | nothing => cases h
        | origin address => cases h
        | word hi mid target =>
            -- Two bytes form a word, so that there is room for it is all that can be missing.
            by_cases hnext : c.next < 256
            · have hplaced := (c.emit_eq_ok_iff _ n hi mid target).mpr ⟨hnext, rfl⟩
              cases hplaced.symm.trans h
            · have hfull := c.emit_of_full n hi mid target (Nat.lt_of_not_le fun hle =>
                hnext (Nat.lt_succ_of_le hle))
              cases hfull.symm.trans h
              exact Or.inr (Or.inr (Or.inr rfl))
      · rw [ofTokens_of_bodyFault rest fault hfault] at h
        cases h
        exact Or.inr (Or.inr (Or.inl ⟨rest, fault, hfault, rfl⟩))

/-- A line leaves the output and the notes as they are, or writes one word and notes its label. -/
theorem line_cases (a b : Assembly) (chars : List Char) (n : Nat)
    (h : a.line (chars, n) = .ok b) :
    (b.words = a.words ∧ b.references = a.references) ∨
      ∃ hi mid target w,
        Body.ofTokens (splitLabel (tokens chars)).2 = .ok (.word hi mid target) ∧
        b.words = a.words.push w ∧
        b.references.toList = a.references.toList ++ target.notes a.words.size n := by
  rcases (a.line_eq_ok_iff b (chars, n)).mp h with ⟨c, body, hc, hbody, hb⟩
  -- A label is no part of either.
  have hlabelled : c.words = a.words ∧ c.references = a.references := by
    cases hlabel : (splitLabel (tokens chars)).1 with
    | none =>
        rw [hlabel] at hc
        cases hc
        exact ⟨rfl, rfl⟩
    | some token =>
        rw [hlabel] at hc
        rcases (a.define_eq_ok_iff c n token).mp hc with ⟨_, _, rfl⟩
        exact ⟨rfl, rfl⟩
  rcases hlabelled with ⟨hwords, hreferences⟩
  cases body with
  | nothing =>
      cases hb
      exact Or.inl ⟨hwords, hreferences⟩
  | origin address =>
      cases hb
      exact Or.inl ⟨hwords, hreferences⟩
  | word hi mid target =>
      rcases (c.emit_eq_ok_iff b n hi mid target).mp hb with ⟨_, rfl⟩
      refine Or.inr ⟨hi, mid, target, c.wordAt n hi mid target, hbody, ?_, ?_⟩
      · rw [placed, hwords]
      · rw [placed, ← hwords, ← hreferences, Array.toList_append]
        cases target <;> rfl

-- A word stays the word of its line when more lines are read.
theorem Wrote.extend {lines : List (List Char × Nat)} {n i : Nat} {target : Target}
    {w : MicroWord} (h : Wrote lines n target i w) (numbered : List Char × Nat) :
    Wrote (lines ++ [numbered]) n target i w := by
  rcases h with ⟨before, after, chars, hi, mid, a, b, rfl, hbefore, hbody, hline, hplace, hword⟩
  refine ⟨before, after ++ [numbered], chars, hi, mid, a, b, ?_, hbefore, hbody, hline, hplace,
    hword⟩
  rw [List.append_assoc, List.cons_append]

/-- The books are in order before the first line. -/
theorem inOrder_empty : InOrder [] {} where
  range r hr := absurd hr List.not_mem_nil
  ascending := List.Pairwise.nil
  noted r hr := absurd hr List.not_mem_nil
  written i w h := by cases h

/-- A line that writes nothing leaves the books as they are. -/
theorem InOrder.extend {lines : List (List Char × Nat)} {a : Assembly} (h : InOrder lines a)
    (numbered : List Char × Nat) : InOrder (lines ++ [numbered]) a where
  range := h.range
  ascending := h.ascending
  noted r hr := by
    rcases h.noted r hr with ⟨w, hw, hwrote⟩
    exact ⟨w, hw, hwrote.extend numbered⟩
  written i w hw := by
    rcases h.written i w hw with ⟨n, target, hwrote, honce⟩
    exact ⟨n, target, hwrote.extend numbered, honce⟩

-- The books depend on the output and the notes alone.
theorem InOrder.congr {lines : List (List Char × Nat)} {a b : Assembly} (h : InOrder lines a)
    (hwords : b.words = a.words) (hreferences : b.references = a.references) :
    InOrder lines b := by
  refine ⟨?_, ?_, ?_, ?_⟩
  · rw [hreferences, hwords]
    exact h.range
  · rw [hreferences]
    exact h.ascending
  · rw [hreferences, hwords]
    exact h.noted
  · rw [hreferences, hwords]
    exact h.written

/-- A word that a line writes is entered at the end. -/
theorem InOrder.enter {lines : List (List Char × Nat)} {a b : Assembly} (h : InOrder lines a)
    (n : Nat) (target : Target) (w : MicroWord) (hwrote : Wrote lines n target a.words.size w)
    (hwords : b.words = a.words.push w)
    (hreferences : b.references.toList = a.references.toList ++ target.notes a.words.size n) :
    InOrder lines b := by
  have hnew := target.mem_notes a.words.size n
  have hlast : b.words[a.words.size]? = some w := by
    rw [hwords, Array.getElem?_push_size]
  refine ⟨?_, ?_, ?_, ?_⟩
  · rw [hreferences, hwords, Array.size_push]
    intro r hr
    rcases List.mem_append.mp hr with hr | hr
    · exact Nat.lt_succ_of_lt (h.range r hr)
    · rw [(hnew r hr).1]
      exact Nat.lt_succ_self _
  · -- What is noted of the new word stands behind all that was noted before.
    rw [hreferences, List.pairwise_append]
    refine ⟨h.ascending, target.notes_pairwise _ _, fun r hr q hq => ?_⟩
    rw [(hnew q hq).1]
    exact h.range r hr
  · rw [hreferences]
    intro r hr
    rcases List.mem_append.mp hr with hr | hr
    · -- The words that were there are where they were.
      rcases h.noted r hr with ⟨w', hw', hwrote'⟩
      refine ⟨w', ?_, hwrote'⟩
      rw [hwords, Array.getElem?_push, if_neg (Nat.ne_of_lt (h.range r hr)), hw']
    · rcases hnew r hr with ⟨hindex, hline, htarget⟩
      refine ⟨w, ?_, ?_⟩
      · rw [hindex, hlast]
      · rw [hindex, hline, ← htarget]
        exact hwrote
  · intro i w' hw'
    rw [hreferences, List.filter_append, target.filter_notes]
    by_cases hi : i = a.words.size
    · -- Nothing was noted of a place that was not there.
      have hnone : a.references.toList.filter (fun r => r.index == i) = [] := by
        rw [List.filter_eq_nil_iff]
        intro r hr hc
        rw [beq_iff_eq, hi] at hc
        exact absurd hc (Nat.ne_of_lt (h.range r hr))
      rw [hi, hlast] at hw'
      cases hw'
      refine ⟨n, target, ?_, ?_⟩
      · rw [hi]
        exact hwrote
      · rw [hnone, if_pos hi, hi, List.nil_append]
    · rw [hwords, Array.getElem?_push, if_neg hi] at hw'
      rw [if_neg hi, List.append_nil]
      exact h.written i w' hw'

/-- A line keeps the books. -/
theorem inOrder_line (lines : List (List Char × Nat)) (a b : Assembly) (chars : List Char)
    (n : Nat) (hread : lines.foldlM line {} = .ok a) (ha : InOrder lines a)
    (h : a.line (chars, n) = .ok b) : InOrder (lines ++ [(chars, n)]) b := by
  have hextended := ha.extend (chars, n)
  rcases a.line_cases b chars n h with
    ⟨hwords, hreferences⟩ | ⟨hi, mid, target, w, hbody, hwords, hreferences⟩
  · exact hextended.congr hwords hreferences
  · have hwrote : Wrote (lines ++ [(chars, n)]) n target a.words.size w :=
      ⟨lines, [], chars, hi, mid, a, b, rfl, hread, hbody, h, rfl, hwords⟩
    exact hextended.enter n target w hwrote hwords hreferences

/-- The books are in order after any lines. -/
theorem inOrder_of_read (lines : List (List Char × Nat)) (a : Assembly)
    (h : lines.foldlM line {} = .ok a) : InOrder lines a := by
  induction lines using List.reverseRecOn generalizing a with
  | nil =>
      cases h
      exact inOrder_empty
  | append_singleton lines numbered ih =>
      rw [List.foldlM_append, bind_eq_ok_iff] at h
      rcases h with ⟨b, hb, hlast⟩
      rw [List.foldlM_cons, bind_eq_ok_iff] at hlast
      rcases hlast with ⟨c, hc, hdone⟩
      cases hdone
      exact inOrder_line lines b a numbered.1 numbered.2 hb (ih b hb) hc

/-- The running address never passes the end of the store. -/
theorem next_le_of_read (lines : List (List Char × Nat)) (a : Assembly)
    (h : lines.foldlM line {} = .ok a) : a.next ≤ 256 := by
  refine foldlM_preserves (fun a => a.next ≤ 256) line (fun a numbered b ha hb => ?_) lines {} a
    (Nat.zero_le _) h
  refine line_preserves (fun a => a.next ≤ 256) (fun _ _ _ _ _ _ ha => ha) ?_ ?_ a b numbered ha hb
  · exact fun _ address _ => Nat.le_of_lt address.toNat_lt
  · exact fun _ _ _ _ _ hnext _ => hnext

/-- No label is bound or waiting twice. -/
theorem names_nodup_of_read (lines : List (List Char × Nat)) (a : Assembly)
    (h : lines.foldlM line {} = .ok a) : a.names.Nodup := by
  refine foldlM_preserves (fun a => a.names.Nodup) line (fun a numbered b ha hb => ?_) lines {} a
    List.nodup_nil h
  refine line_preserves (fun a => a.names.Nodup) ?_ (fun _ _ ha => ha) ?_ a b numbered ha hb
  · intro a n token _ _ hnew ha
    rw [names_labelled, List.nodup_append]
    refine ⟨ha, List.nodup_singleton _, ?_⟩
    rintro name hname other hother rfl
    rw [List.mem_singleton.mp hother] at hname
    exact hnew hname
  · intro a n hi mid target _ ha
    rw [names_placed]
    exact ha

/-- References that were resolved have found their labels. -/
theorem defined_of_resolved (symbols : List (String × UInt8)) (rs : List Reference)
    (words result : Array MicroWord) (h : rs.foldlM (resolve symbols) words = .ok result)
    (r : Reference) (hr : r ∈ rs) : r.label ∈ symbols.map Prod.fst := by
  induction rs generalizing words with
  | nil => exact absurd hr List.not_mem_nil
  | cons q rs ih =>
      rw [List.foldlM_cons, bind_eq_ok_iff] at h
      rcases h with ⟨rest, hq, hrest⟩
      rcases List.mem_cons.mp hr with rfl | hr
      · cases hlookup : symbols.lookup r.label with
        | none =>
            rw [resolve, hlookup] at hq
            cases hq
        | some address =>
            exact List.mem_map_of_mem (mem_of_lookup_eq_some symbols _ _ hlookup)
      · exact ih rest hrest hr

/-- Notes in ascending order are about different places. -/
theorem InOrder.distinct {lines : List (List Char × Nat)} {a : Assembly} (h : InOrder lines a) :
    a.references.toList.Pairwise (fun r q => r.index ≠ q.index) :=
  h.ascending.imp (fun hlt => Nat.ne_of_lt hlt)

/-- When a reference comes to be resolved, its word is there, and is as it was written. -/
theorem resolve_in_range (symbols : List (String × UInt8)) (a : Assembly)
    (lines : List (List Char × Nat)) (ha : InOrder lines a) (front back : List Reference)
    (r : Reference) (words : Array MicroWord) (hsplit : a.references.toList = front ++ r :: back)
    (h : front.foldlM (resolve symbols) a.words = .ok words) :
    r.index < words.size ∧ words[r.index]? = a.words[r.index]? := by
  have hdistinct := ha.distinct
  rw [hsplit, List.pairwise_append] at hdistinct
  rcases resolve_run symbols front a.words (defined_of_resolved symbols front _ _ h)
    hdistinct.1 with ⟨result, hresult, hsize, hother, _⟩
  rw [h] at hresult
  cases hresult
  refine ⟨?_, hother r.index fun q hq => hdistinct.2.2 q hq r List.mem_cons_self⟩
  rw [hsize]
  refine ha.range r ?_
  rw [hsplit]
  exact List.mem_append_right _ List.mem_cons_self

/-- The end of a listing points each word that named a label at the label, once, and leaves the
    others alone. -/
theorem finish_resolved (a b : Assembly) (lines : List (List Char × Nat)) (ha : InOrder lines a)
    (h : a.finish = .ok b) (i : Nat) (w : MicroWord) (hw : a.words[i]? = some w) :
    ∃ n target w', Wrote lines n target i w ∧
      a.references.toList.filter (fun r => r.index == i) = target.notes i n ∧
      b.words[i]? = some w' ∧ Resolved b.symbols w w' target := by
  rcases (a.finish_eq_ok_iff b).mp h with ⟨_, result, hresult, rfl⟩
  rcases resolve_run _ _ a.words (defined_of_resolved _ _ _ _ hresult) ha.distinct with
    ⟨_, hresult', _, hother, hnoted⟩
  rw [hresult] at hresult'
  cases hresult'
  rcases ha.written i w hw with ⟨n, target, hwrote, honce⟩
  cases target with
  | fixed address =>
      refine ⟨n, .fixed address, w, hwrote, honce, ?_, rfl⟩
      rw [← hw]
      -- Nothing was noted of this word, so no reference is to its place.
      refine hother i fun r hr hindex => ?_
      have hmem : r ∈ a.references.toList.filter (fun r => r.index == i) :=
        List.mem_filter.mpr ⟨hr, beq_iff_eq.mpr hindex⟩
      rw [honce] at hmem
      exact absurd hmem List.not_mem_nil
  | label name =>
      have hmem : { index := i, label := name, line := n } ∈
          a.references.toList.filter (fun r => r.index == i) := by
        rw [honce]
        exact List.mem_singleton_self _
      rcases hnoted _ (List.mem_filter.mp hmem).1 with ⟨address, hsymbol, hword⟩
      refine ⟨n, .label name, w.retarget address, hwrote, honce, ?_, address, hsymbol, rfl⟩
      change result[i]? = _
      rw [hword, hw]
      rfl

/-- What an assembly keeps of the lines that it has read is right after any number of them, and
    what is looked up without a check is there. The next address is at most one past the last; a
    label is bound or waits, and stands there once; and the notes are about words of the output, in
    ascending order, each written by the noted line for the noted label, and each noted once. So a
    reference finds its word when it is resolved, not pointed anywhere yet, and at the end exactly
    the words that named a label have been pointed at it. The first token is looked at only where
    there is one, and no line fails for codes or for a short address. -/
theorem books_in_order (source : String) (n : Nat) (a : Assembly)
    (h : ((numberedLines source).take n).foldlM line {} = .ok a) :
    a.next ≤ 256 ∧
    ((a.symbols.map Prod.fst).Nodup ∧ (a.waiting.map Prod.fst).Nodup ∧
      (a.symbols.map Prod.fst).Disjoint (a.waiting.map Prod.fst)) ∧
    InOrder ((numberedLines source).take n) a ∧
    (∀ symbols front r back words, a.references.toList = front ++ r :: back →
      front.foldlM (resolve symbols) a.words = .ok words →
        r.index < words.size ∧ words[r.index]? = a.words[r.index]?) ∧
    (∀ b, a.finish = .ok b → b.words.size = a.words.size ∧
      ∀ (i : Nat) w, a.words[i]? = some w → ∃ m target w',
        Wrote ((numberedLines source).take n) m target i w ∧
        a.references.toList.filter (fun r => r.index == i) = target.notes i m ∧
        b.words[i]? = some w' ∧ Resolved b.symbols w w' target) ∧
    (∀ chars, firstLook chars = some (splitLabel (tokens chars))) ∧
    ∀ (c : Assembly) chars m fault, c.line (chars, m) = .error (.syntaxFault m fault) →
      (∀ e, fault ≠ .codes e) ∧ ∀ token, fault ≠ .notAByte .address token := by
  have hbooks := inOrder_of_read _ a h
  have hnames := List.nodup_append.mp (names_nodup_of_read _ a h)
  refine ⟨next_le_of_read _ a h, ⟨hnames.1, hnames.2.1, ?_⟩, hbooks, ?_, ?_, firstLook_eq, ?_⟩
  · exact fun name hbound hwaiting => hnames.2.2 name hbound name hwaiting rfl
  · exact fun symbols front r back words => resolve_in_range symbols a _ hbooks front back r words
  · intro b hb
    refine ⟨?_, finish_resolved a b _ hbooks hb⟩
    -- The words are pointed at their labels where they are, and none is added.
    rcases (a.finish_eq_ok_iff b).mp hb with ⟨_, result, hresult, rfl⟩
    rcases resolve_run _ _ a.words (defined_of_resolved _ _ _ _ hresult) hbooks.distinct with
      ⟨_, hresult', hsize, _⟩
    rw [hresult] at hresult'
    cases hresult'
    exact hsize
  · intro c chars m fault hfault
    rcases c.line_error_cases chars m _ hfault with
      heq | ⟨name, heq⟩ | ⟨rest, other, hother, heq⟩ | heq
    · cases heq
      exact ⟨fun _ hc => (nomatch hc), fun _ hc => (nomatch hc)⟩
    · cases heq
    · cases heq
      cases hother <;> exact ⟨fun _ hc => (nomatch hc), fun _ hc => (nomatch hc)⟩
    · cases heq

/-- A listing that refers forward across an `ORG` and back, as it is kept when the last address is
    taken. The line behind would note a word that it then finds no address for. -/
theorem books_in_order_forward :
    let source := "a: 00 01 B\n ORG ff\nb: 00 01 A\n 00 01 C\nc:"
    ∃ a, ((numberedLines source).take 3).foldlM line {} = .ok a ∧
      a.next = 256 ∧ a.words.size = 2 ∧ a.symbols = [("A", 0), ("B", 0xFF)] ∧
      InOrder ((numberedLines source).take 3) a ∧
      assemble source = .error (.addressOverflow 4) := by
  intro source
  have hvalue : (((numberedLines source).take 3).foldlM line {}).toOption.map
      (fun a => (a.next, a.words.size, a.symbols)) = some (256, 2, [("A", 0), ("B", 0xFF)]) := by
    decide +kernel
  cases h : ((numberedLines source).take 3).foldlM line {} with
  | error e =>
      rw [h] at hvalue
      cases hvalue
  | ok a =>
      rw [h] at hvalue
      simp only [Except.toOption, Option.map_some, Option.some.injEq, Prod.mk.injEq] at hvalue
      exact ⟨a, rfl, hvalue.1, hvalue.2.1, hvalue.2.2, (books_in_order source 3 a h).2.2.1,
        by decide +kernel⟩

end Assembly

end Microcode
