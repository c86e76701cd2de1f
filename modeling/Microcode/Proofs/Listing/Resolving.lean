import Microcode.Proofs.Listing.Progress
import Microcode.Proofs.Lookups
/-!
# Resolving the References

What the end of a listing does to the words that were placed.

The words that refer to labels were written with jump address zero. At the end each of them is
pointed at the address of its label, in the order in which they were noted. No word is noted
twice, so the order does not matter for the outcome (`resolve_run`); it matters for the report,
which is about the first word whose label is not defined (`resolve_of_undefined`).

## Theorems

* `resolve_run`: Each noted word gets the address of its label, and no other word changes.
* `resolve_of_undefined`: The first label that is not defined is reported.
* `bindLabels_symbols`: The labels of a finished listing have their addresses.
* `finish_of_valid`: A valid program is finished, and the words are what it says.
* `finish_of_undefined`: A program with an undefined label is reported for the first of them.
-/

namespace Microcode

namespace Assembly

theorem resolve_of_defined (symbols : List (String × UInt8)) (words : Array MicroWord)
    (r : Reference) (h : r.label ∈ symbols.map Prod.fst) :
    ∃ address, (r.label, address) ∈ symbols ∧
      resolve symbols words r = .ok (words.modify r.index (·.retarget address)) := by
  cases hlookup : symbols.lookup r.label with
  | none => exact absurd h ((lookup_eq_none_iff_not_mem symbols r.label).mp hlookup)
  | some address =>
      refine ⟨address, mem_of_lookup_eq_some symbols _ _ hlookup, ?_⟩
      rw [resolve, hlookup]

/-- Each noted word gets the address of its label, and no other word changes. -/
theorem resolve_run (symbols : List (String × UInt8)) (rs : List Reference)
    (words : Array MicroWord) (hdefined : ∀ r, r ∈ rs → r.label ∈ symbols.map Prod.fst)
    (hdistinct : rs.Pairwise (fun r q => r.index ≠ q.index)) :
    ∃ result, rs.foldlM (resolve symbols) words = .ok result ∧ result.size = words.size ∧
      (∀ i, (∀ r, r ∈ rs → r.index ≠ i) → result[i]? = words[i]?) ∧
      ∀ r, r ∈ rs → ∃ address, (r.label, address) ∈ symbols ∧
        result[r.index]? = words[r.index]?.map (·.retarget address) := by
  induction rs generalizing words with
  | nil => exact ⟨words, rfl, rfl, fun _ _ => rfl, fun r hr => absurd hr List.not_mem_nil⟩
  | cons r rs ih =>
      rcases List.forall_mem_cons.mp hdefined with ⟨hr, hrs⟩
      rcases List.pairwise_cons.mp hdistinct with ⟨hapart, hrest⟩
      rcases resolve_of_defined symbols words r hr with ⟨address, hsymbol, hresolve⟩
      rcases ih (words.modify r.index (·.retarget address)) hrs hrest with
        ⟨result, hresult, hsize, hother, hnoted⟩
      have hmodify : ∀ i, r.index ≠ i →
          (words.modify r.index (·.retarget address))[i]? = words[i]? := by
        intro i hi
        rw [Array.getElem?_modify, if_neg hi]
      refine ⟨result, ?_, ?_, ?_, ?_⟩
      · rw [List.foldlM_cons, hresolve]
        exact hresult
      · rw [hsize, Array.size_modify]
      · intro i hi
        rcases List.forall_mem_cons.mp hi with ⟨hri, hrsi⟩
        rw [hother i hrsi, hmodify i hri]
      · refine List.forall_mem_cons.mpr ⟨⟨address, hsymbol, ?_⟩, ?_⟩
        · -- The references behind this one are about other words.
          rw [hother r.index (fun q hq => (hapart q hq).symm), Array.getElem?_modify, if_pos rfl]
        · intro q hq
          rcases hnoted q hq with ⟨found, hfound, hword⟩
          refine ⟨found, hfound, ?_⟩
          rw [hword, hmodify q.index (hapart q hq)]

/-- The first label that is not defined is reported. -/
theorem resolve_of_undefined (symbols : List (String × UInt8)) (before after : List Reference)
    (r : Reference) (words : Array MicroWord)
    (hbefore : ∀ q, q ∈ before → q.label ∈ symbols.map Prod.fst)
    (h : r.label ∉ symbols.map Prod.fst) :
    (before ++ r :: after).foldlM (resolve symbols) words =
      .error (.undefinedLabel r.line r.label) := by
  induction before generalizing words with
  | nil =>
      have hlookup := (lookup_eq_none_iff_not_mem symbols r.label).mpr h
      rw [List.nil_append, List.foldlM_cons, resolve, hlookup]
      rfl
  | cons q before ih =>
      rcases List.forall_mem_cons.mp hbefore with ⟨hq, hrest⟩
      rcases resolve_of_defined symbols words q hq with ⟨address, _, hresolve⟩
      rw [List.cons_append, List.foldlM_cons, hresolve]
      exact ih _ hrest

variable (a : Assembly) (program : List Statement)

/-- The labels of a finished listing have their addresses. -/
theorem bindLabels_symbols (ha : a.Reflects program)
    (hclosed : Listing.openLabels program ≠ [] → Listing.counter program ≤ 0xFF)
    (name : String) (address : UInt8)
    (h : (name, address) ∈ (a.bindLabels (UInt8.ofNat a.next)).symbols) :
    Listing.LabelAt program name address.toNat := by
  rcases List.mem_append.mp h with hold | hnew
  · have hlabel := ha.symbols name address hold []
    rw [List.append_nil] at hlabel
    exact hlabel
  · rcases List.mem_map.mp hnew with ⟨entry, hentry, heq⟩
    cases heq
    rw [ha.waiting] at hentry
    have hroom := hclosed (List.ne_nil_of_mem hentry)
    have hlabel := Listing.labelAt_of_open program [] entry.1 (by
      rw [← Listing.map_fst_openLabels]
      exact List.mem_map_of_mem hentry)
    rw [List.takeWhile_nil, List.append_nil] at hlabel
    rw [ha.next, UInt8.toNat_ofNat_of_lt' (Nat.lt_succ_of_le hroom)]
    exact hlabel

/-- At the end every label is bound. -/
theorem map_fst_bindLabels (ha : a.Reflects program) (address : UInt8) :
    (a.bindLabels address).symbols.map Prod.fst = Listing.labelNames program := by
  rw [← ha.names, ← a.names_bindLabels address, names]
  exact (List.append_nil _).symm

-- There is an address for the labels that wait if there is one for the labels behind the last
-- word.
theorem next_of_closed (ha : a.Reflects program)
    (hclosed : Listing.openLabels program ≠ [] → Listing.counter program ≤ 0xFF) :
    a.waiting ≠ [] → a.next < 256 := by
  rw [ha.waiting, ha.next]
  exact fun hopen => Nat.lt_succ_of_le (hclosed hopen)

/-- A valid program is finished, and the words are what it says. -/
theorem finish_of_valid (ha : a.Reflects program) (hvalid : Listing.Valid program) :
    ∃ b, a.finish = .ok b ∧ Listing.Means program b.words.toList := by
  have hdefined : ∀ r, r ∈ Listing.references program →
      r.label ∈ (a.bindLabels (UInt8.ofNat a.next)).symbols.map Prod.fst := by
    intro r hr
    rcases (Listing.mem_references_iff program r).mp hr with ⟨before, s, after, hsplit, hs, _⟩
    rw [map_fst_bindLabels a program ha]
    refine hvalid.defined s ?_ r.label hs
    rw [hsplit]
    exact List.mem_append_right _ (List.mem_cons_self ..)
  rcases resolve_run _ _ a.words hdefined (Listing.references_pairwise program) with
    ⟨result, hresult, hsize, hother, hnoted⟩
  refine ⟨{ a.bindLabels (UInt8.ofNat a.next) with words := result }, ?_, ?_, ?_⟩
  · rw [a.finish_eq (next_of_closed a program ha hvalid.closed), ha.references, hresult]
    rfl
  · rw [Array.length_toList, hsize, ha.size]
  · intro before s after hi mid target hsplit hbody
    rcases ha.words before s after hi mid target hsplit hbody with ⟨w, hw, hdrafts, hfixed⟩
    have hword : s.isWord = true := (Listing.isWord_iff s).mpr ⟨hi, mid, target, hbody⟩
    cases target with
    | fixed address =>
        refine ⟨w, ?_, hdrafts, hfixed address rfl⟩
        rw [Array.getElem?_toList, hother _ ?_, hw]
        -- A reference at this place would be one of this word, which names no label.
        intro r hr hindex
        rcases (Listing.mem_references_iff program r).mp hr with
          ⟨before', t, after', hsplit', ht, _, hindex'⟩
        rcases Listing.split_unique before after before' after' s t (hsplit ▸ hsplit') hword
          (Listing.isWord_of_reference t r.label ht) (hindex.symm.trans hindex') with ⟨_, rfl⟩
        rw [Statement.reference?, hbody] at ht
        cases ht
    | label name =>
        have hmem : { index := before.countP Statement.isWord, label := name, line := s.line } ∈
            Listing.references program := by
          refine (Listing.mem_references_iff program _).mpr
            ⟨before, s, after, hsplit, ?_, rfl, rfl⟩
          rw [Statement.reference?, hbody]
        rcases hnoted _ hmem with ⟨address, hsymbol, hresolved⟩
        refine ⟨w.retarget address, ?_, Listing.drafts_retarget before s hi mid address w hdrafts,
          bindLabels_symbols a program ha hvalid.closed name address hsymbol⟩
        rw [Array.getElem?_toList, hresolved, hw]
        rfl

/-- The first word that refers to no label is reported. -/
theorem finish_of_undefined (before after : List Statement) (s : Statement) (name : String)
    (ha : a.Reflects program)
    (hclosed : Listing.openLabels program ≠ [] → Listing.counter program ≤ 0xFF)
    (hsplit : program = before ++ s :: after)
    (hfirst : ∀ t, t ∈ before → ∀ other, t.reference? = some other →
      other ∈ Listing.labelNames program)
    (hname : s.reference? = some name) (h : name ∉ Listing.labelNames program) :
    a.finish = .error (.undefinedLabel s.line name) := by
  have hnames := map_fst_bindLabels a program ha (UInt8.ofNat a.next)
  -- The references of the lines in front come first, then that of the line.
  rcases Listing.references_prefix (before ++ [s]) after with ⟨others, hothers⟩
  rw [← List.append_cons, ← hsplit, Listing.references_concat, hname, Option.map_some,
    Option.toList_some, ← List.append_cons] at hothers
  rw [a.finish_eq (next_of_closed a program ha hclosed), ha.references, ← hothers,
    resolve_of_undefined _ _ others _ a.words ?_ ?_]
  · rfl
  · intro q hq
    rcases (Listing.mem_references_iff before q).mp hq with ⟨front, t, back, rfl, ht, _⟩
    rw [hnames]
    exact hfirst t (List.mem_append_right _ (List.mem_cons_self ..)) q.label ht
  · rw [hnames]
    exact h

end Assembly

end Microcode
