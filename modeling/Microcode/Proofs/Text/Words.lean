import Microcode.Text.Blank
/-!
# Cutting Text

How the pieces of a text behave when texts are joined.

Everything rests on one law, `pieces_append`: a separator cuts a text in two, and what stands
on its left has no bearing on what stands on its right. Lines and words are instances, since a
line feed separates lines and a blank separates words. A printer that puts a separator between
any two things that it prints can then be read back part by part.

## Theorems

* `pieces_of_free`: A text without separators is one piece.
* `pieces_append`: A separator cuts a text in two.
* `pieces_append_of_free`, `pieces_insert`: Characters that are no separators change one piece.
* `mem_pieces`: A piece holds characters of the text, and no separator.
* `lines_of_free`: A text without a line feed is one line.
* `lines_flatMap`: Lines that were ended by line feeds are found again.
* `words_of_free`: A text without blanks is one word.
* `words_append`: A blank cuts a text in two.
* `words_indented`, `words_trailing`: Blanks in front of a text or behind it hold no words.
* `words_gap`: Any blanks cut a text in two.
* `words_padRight`: Padding adds no words.
* `mem_words`: A word is not empty, and it holds characters of the text that are no blanks.
* `mem_pieces_of_mem`, `mem_words_of_mem`: No character of the text is lost, separators apart.
-/

namespace Microcode

namespace Text

variable (isSeparator : Char → Bool)

/-- A text without separators is one piece. -/
theorem pieces_of_free (cs : List Char) (h : ∀ c, c ∈ cs → isSeparator c = false) :
    pieces isSeparator cs = [cs] := by
  induction cs with
  | nil => rfl
  | cons c cs ih =>
      have hc : isSeparator c = false := h c (List.mem_cons_self ..)
      rw [pieces, ih (fun d hd => h d (List.mem_cons_of_mem c hd)), hc]
      rfl

-- However a text is cut, there is a first piece.
theorem exists_pieces (cs : List Char) : ∃ p ps, pieces isSeparator cs = p :: ps := by
  cases cs with
  | nil => exact ⟨[], [], rfl⟩
  | cons c cs =>
      rw [pieces]
      split
      · exact ⟨_, _, rfl⟩
      · split
        · exact ⟨_, _, rfl⟩
        · exact ⟨_, _, rfl⟩

theorem pieces_cons_of_free (c : Char) (cs p : List Char) (ps : List (List Char))
    (hc : isSeparator c = false) (hcs : pieces isSeparator cs = p :: ps) :
    pieces isSeparator (c :: cs) = (c :: p) :: ps := by
  rw [pieces, hc, hcs]
  rfl

/-- A separator cuts a text in two. -/
theorem pieces_append (cs : List Char) (c : Char) (rest : List Char) (hc : isSeparator c = true) :
    pieces isSeparator (cs ++ c :: rest) = pieces isSeparator cs ++ pieces isSeparator rest := by
  induction cs with
  | nil =>
      rw [List.nil_append, pieces.eq_2, if_pos hc]
      rfl
  | cons d cs ih =>
      cases hd : isSeparator d with
      | true =>
          rw [List.cons_append, pieces.eq_2, pieces.eq_2, if_pos hd, if_pos hd, ih]
          rfl
      | false =>
          -- The character joins the first piece, on either side of the equation.
          rcases exists_pieces isSeparator cs with ⟨p, ps, hp⟩
          rw [hp, List.cons_append] at ih
          rw [List.cons_append, pieces_cons_of_free isSeparator d _ p _ hd ih,
            pieces_cons_of_free isSeparator d cs p ps hd hp]
          rfl

/-- Characters that are no separators join the first piece. -/
theorem pieces_append_of_free (x back p : List Char) (ps : List (List Char))
    (hx : ∀ c, c ∈ x → isSeparator c = false) (hback : pieces isSeparator back = p :: ps) :
    pieces isSeparator (x ++ back) = (x ++ p) :: ps := by
  induction x with
  | nil => exact hback
  | cons c x ih =>
      have hrest := ih (fun d hd => hx d (List.mem_cons_of_mem c hd))
      exact pieces_cons_of_free isSeparator c _ _ _ (hx c List.mem_cons_self) hrest

/-- A place of a text is in one of its pieces, and what is inserted there without a separator is
    inserted into this piece. -/
theorem pieces_insert (front : List Char) :
    ∃ ls u, ∀ x back p ps, (∀ c, c ∈ x → isSeparator c = false) →
      pieces isSeparator back = p :: ps →
      pieces isSeparator (front ++ (x ++ back)) = ls ++ (u ++ (x ++ p)) :: ps := by
  induction front with
  | nil => exact ⟨[], [], pieces_append_of_free isSeparator⟩
  | cons c front ih =>
      rcases ih with ⟨ls, u, h⟩
      cases hc : isSeparator c with
      | true =>
          refine ⟨[] :: ls, u, fun x back p ps hx hback => ?_⟩
          rw [List.cons_append, pieces, if_pos hc, h x back p ps hx hback]
          rfl
      | false =>
          -- The character joins the first piece, which may be that of the place.
          cases ls with
          | nil =>
              exact ⟨[], c :: u, fun x back p ps hx hback =>
                pieces_cons_of_free isSeparator c _ _ _ hc (h x back p ps hx hback)⟩
          | cons l ls =>
              exact ⟨(c :: l) :: ls, u, fun x back p ps hx hback =>
                pieces_cons_of_free isSeparator c _ _ _ hc (h x back p ps hx hback)⟩

/-- A piece holds characters of the text, and no separator. -/
theorem mem_pieces (cs p : List Char) (hp : p ∈ pieces isSeparator cs) (c : Char) (hc : c ∈ p) :
    c ∈ cs ∧ isSeparator c = false := by
  induction cs generalizing p with
  | nil =>
      rw [pieces, List.mem_singleton] at hp
      rw [hp] at hc
      exact absurd hc List.not_mem_nil
  | cons d cs ih =>
      cases hd : isSeparator d with
      | true =>
          rw [pieces, if_pos hd, List.mem_cons] at hp
          rcases hp with rfl | hp
          · exact absurd hc List.not_mem_nil
          · exact ⟨List.mem_cons_of_mem d (ih p hp hc).1, (ih p hp hc).2⟩
      | false =>
          -- A character that separates nothing goes to the first piece behind it.
          rcases exists_pieces isSeparator cs with ⟨q, qs, hq⟩
          rw [pieces_cons_of_free isSeparator d cs q qs hd hq, List.mem_cons] at hp
          rw [hq] at ih
          rcases hp with rfl | hp
          · rcases List.mem_cons.mp hc with rfl | hc
            · exact ⟨List.mem_cons_self .., hd⟩
            · have hmem := ih q (List.mem_cons_self ..) hc
              exact ⟨List.mem_cons_of_mem d hmem.1, hmem.2⟩
          · have hmem := ih p (List.mem_cons_of_mem q hp) hc
            exact ⟨List.mem_cons_of_mem d hmem.1, hmem.2⟩

-- A text without a line feed, as what separates lines sees it.
theorem beq_lineFeed (cs : List Char) (h : '\n' ∉ cs) (c : Char) (hc : c ∈ cs) :
    (c == '\n') = false := by
  rw [beq_eq_false_iff_ne]
  rintro rfl
  exact h hc

/-- A text without a line feed is one line. -/
theorem lines_of_free (cs : List Char) (h : '\n' ∉ cs) : lines cs = [cs] :=
  pieces_of_free _ cs (beq_lineFeed cs h)

/-- Lines that were ended by line feeds are found again, and an empty one behind them. -/
theorem lines_flatMap (ls : List (List Char)) (h : ∀ l, l ∈ ls → '\n' ∉ l) :
    lines (ls.flatMap (· ++ ['\n'])) = ls ++ [[]] := by
  induction ls with
  | nil => rfl
  | cons l ls ih =>
      have hl := lines_of_free l (h l (List.mem_cons_self ..))
      have hrest := ih (fun l' hl' => h l' (List.mem_cons_of_mem l hl'))
      rw [lines] at hl hrest
      rw [List.flatMap_cons, List.append_assoc, List.singleton_append, lines,
        pieces_append _ l '\n' _ rfl, hl, hrest]
      rfl

/-- A text without blanks is one word. -/
theorem words_of_free (cs : List Char) (hne : cs ≠ []) (h : ∀ c, c ∈ cs → isBlank c = false) :
    words cs = [cs] := by
  rw [words, pieces_of_free isBlank cs h, List.filter_cons_of_pos]
  · rfl
  · cases cs with
    | nil => exact absurd rfl hne
    | cons c cs => rfl

/-- A blank cuts a text in two. -/
theorem words_append (cs : List Char) (c : Char) (rest : List Char) (hc : isBlank c = true) :
    words (cs ++ c :: rest) = words cs ++ words rest := by
  rw [words, pieces_append isBlank cs c rest hc, List.filter_append]
  rfl

/-- Blanks in front of a text are not in its words. -/
theorem words_indented (gap rest : List Char) (h : ∀ c, c ∈ gap → isBlank c = true) :
    words (gap ++ rest) = words rest := by
  induction gap with
  | nil => rfl
  | cons c gap ih =>
      have hcut := words_append [] c (gap ++ rest) (h c List.mem_cons_self)
      rw [List.nil_append, ih (fun d hd => h d (List.mem_cons_of_mem c hd))] at hcut
      exact hcut

/-- A gap cuts a text in two, whatever blanks it is made of. -/
theorem words_gap (cs gap rest : List Char) (hne : gap ≠ [])
    (h : ∀ c, c ∈ gap → isBlank c = true) :
    words (cs ++ (gap ++ rest)) = words cs ++ words rest := by
  cases gap with
  | nil => exact absurd rfl hne
  | cons c gap =>
      rw [List.cons_append, words_append cs c _ (h c List.mem_cons_self),
        words_indented gap rest (fun d hd => h d (List.mem_cons_of_mem c hd))]

/-- Blanks behind a text are not in its words. -/
theorem words_trailing (cs gap : List Char) (h : ∀ c, c ∈ gap → isBlank c = true) :
    words (cs ++ gap) = words cs := by
  by_cases hne : gap = []
  · rw [hne, List.append_nil]
  · have hcut := words_gap cs gap [] hne h
    rwa [List.append_nil, show words [] = [] from rfl, List.append_nil] at hcut

/-- Padding, and the blank that ends a column, add no words. -/
theorem words_padRight (width : Nat) (s : String) (rest : List Char) :
    words ((padRight width s).toList ++ ' ' :: rest) = words s.toList ++ words rest := by
  have hpadding : ∀ c, c ∈ List.replicate (width - s.length) ' ' → isBlank c = true := by
    intro c hc
    rw [(List.mem_replicate.mp hc).2]
    rfl
  rw [words_append _ ' ' rest rfl, padRight, String.toList_append, String.toList_ofList,
    words_trailing s.toList _ hpadding]

/-- A word is not empty, and it holds characters of the text that are no blanks. -/
theorem mem_words (cs w : List Char) (hw : w ∈ words cs) :
    w ≠ [] ∧ ∀ c, c ∈ w → c ∈ cs ∧ isBlank c = false := by
  rw [words, List.mem_filter] at hw
  refine ⟨fun hnil => ?_, fun c hc => mem_pieces isBlank cs w hw.1 c hc⟩
  rw [hnil] at hw
  exact absurd hw.2 Bool.false_ne_true

/-- A character that is no separator is in some piece. -/
theorem mem_pieces_of_mem (cs : List Char) (c : Char) (hc : c ∈ cs)
    (hfree : isSeparator c = false) : ∃ p, p ∈ pieces isSeparator cs ∧ c ∈ p := by
  induction cs with
  | nil => exact absurd hc List.not_mem_nil
  | cons d cs ih =>
      cases hd : isSeparator d with
      | true =>
          -- A separator is not the character, which is behind it then.
          rcases List.mem_cons.mp hc with rfl | hmem
          · exact absurd (hd.symm.trans hfree) Bool.noConfusion
          · rcases ih hmem with ⟨p, hp, hcp⟩
            rw [pieces, if_pos hd]
            exact ⟨p, List.mem_cons_of_mem _ hp, hcp⟩
      | false =>
          rcases exists_pieces isSeparator cs with ⟨q, qs, hq⟩
          rw [pieces_cons_of_free isSeparator d cs q qs hd hq]
          rcases List.mem_cons.mp hc with rfl | hmem
          · exact ⟨_, List.mem_cons_self .., List.mem_cons_self ..⟩
          · rcases ih hmem with ⟨p, hp, hcp⟩
            rw [hq, List.mem_cons] at hp
            rcases hp with rfl | hp
            · exact ⟨_, List.mem_cons_self .., List.mem_cons_of_mem d hcp⟩
            · exact ⟨p, List.mem_cons_of_mem _ hp, hcp⟩

/-- A character that is no blank is in some word. -/
theorem mem_words_of_mem (cs : List Char) (c : Char) (hc : c ∈ cs) (hfree : isBlank c = false) :
    ∃ w, w ∈ words cs ∧ c ∈ w := by
  rcases mem_pieces_of_mem isBlank cs c hc hfree with ⟨p, hp, hcp⟩
  refine ⟨p, List.mem_filter.mpr ⟨hp, ?_⟩, hcp⟩
  cases p with
  | nil => exact absurd hcp List.not_mem_nil
  | cons d p => rfl

end Text

end Microcode
