import Microcode.Proofs.Json.Layout
import Microcode.Proofs.Json.Tokens
/-!
# JSON Read Back

What is laid out as a JSON value is read as that value.

The reader of a value is given more text than the value takes, and fuel. `ReadBack` says that it
stops at the end of the value if what stands there is an end and if the fuel is as much as two
calls for each character. It holds of all values by induction on their parts, so the readers of
items and of members are followed with the property known of every part.

## Main definitions

* `Json.ReadBack`: Every layout of a value is read as the value.

## Theorems

* `ends_gap`, `skipBlanks_gap`: Blanks in front of a token.
* `laidOut_head`: A value begins with neither a blank nor a closing bracket.
* `readValue_scalar`: Values without parts are read back.
* `readItems_laidOut`, `readMembers_laidOut`: The parts of an array or an object are read back.
* `readBack`: All values are read back.
* `parse?_laidOut`: The same for a whole text, with blanks around it.
* `parse?_compact`, `parse?_pretty`: What is printed is read back.
-/

namespace Microcode

namespace Json

/-- Every layout of a value is read as the value, in front of anything that may stand there. -/
def ReadBack (j : Json) : Prop :=
  ∀ (text rest : List Char) (fuel : Nat), LaidOut j text → Ends rest →
    2 * text.length ≤ fuel + 1 → readValue fuel (text ++ rest) = some (j, rest)

/-- Blanks and what closes or separates parts may stand behind a value. -/
theorem ends_gap (gap rest : List Char) (c : Char) (hgap : Blanks gap)
    (hc : c = ',' ∨ c = ']' ∨ c = '\x7d') : Ends (gap ++ c :: rest) := by
  intro d hd
  cases gap with
  | nil =>
      obtain rfl : c = d := Option.some.inj hd
      exact Or.inr hc
  | cons b gap =>
      obtain rfl : b = d := Option.some.inj hd
      exact Or.inl (hgap b (List.mem_cons_self ..))

theorem skipBlanks_gap (gap rest : List Char) (c : Char) (hgap : Blanks gap)
    (hc : isJsonBlank c = false) : skipBlanks (gap ++ c :: rest) = c :: rest := by
  rw [skipBlanks, List.dropWhile_append_of_pos hgap, List.dropWhile_cons_of_neg]
  rw [hc]
  exact Bool.false_ne_true

/-- What is printed for a number begins with a digit. -/
theorem exists_digit (n : Nat) : ∃ d ds, Nat.toDigits 10 n = d :: ds ∧ d.isDigit = true := by
  cases hcons : Nat.toDigits 10 n with
  | nil => exact absurd hcons Nat.toDigits_ne_nil
  | cons d ds =>
      refine ⟨d, ds, rfl, Nat.isDigit_of_mem_toDigits (b := 10) (n := n) (by omega) (by omega) ?_⟩
      rw [hcons]
      exact List.mem_cons_self ..

/-- A digit is neither a blank nor one of the characters that other values begin or end with. -/
theorem ne_of_isDigit (d c : Char) (hd : d.isDigit = true) (hc : c.isDigit = false) : d ≠ c := by
  rintro rfl
  exact Bool.false_ne_true (hc.symm.trans hd)

theorem isJsonBlank_digit (d : Char) (hd : d.isDigit = true) : isJsonBlank d = false := by
  simp only [isJsonBlank, Bool.or_eq_false_iff, beq_eq_false_iff_ne]
  exact ⟨⟨⟨ne_of_isDigit d _ hd (by decide), ne_of_isDigit d _ hd (by decide)⟩,
    ne_of_isDigit d _ hd (by decide)⟩, ne_of_isDigit d _ hd (by decide)⟩

/-- A value begins with a character that is neither a blank nor a closing bracket. -/
theorem laidOut_head (j : Json) (text : List Char) (h : LaidOut j text) :
    ∃ c cs, text = c :: cs ∧ isJsonBlank c = false ∧ c ≠ ']' := by
  cases h with
  | noItems gap _ => exact ⟨'[', _, rfl, rfl, by decide⟩
  | items items text _ => exact ⟨'[', _, rfl, rfl, by decide⟩
  | noMembers gap _ => exact ⟨'\x7b', _, rfl, rfl, by decide⟩
  | members members text _ => exact ⟨'\x7b', _, rfl, rfl, by decide⟩
  | scalar _ h =>
      cases j with
      | natural n =>
          obtain ⟨d, ds, hcons, hd⟩ := exists_digit n
          exact ⟨d, ds, hcons, isJsonBlank_digit d hd, ne_of_isDigit d _ hd (by decide)⟩
      | array items => exact h.elim
      | object members => exact h.elim
      | null => exact ⟨'n', _, rfl, rfl, by decide⟩
      | bool b => cases b <;> exact ⟨_, _, rfl, rfl, by decide⟩
      | otherNumber => exact ⟨'-', _, rfl, rfl, by decide⟩
      | string s => exact ⟨'"', _, rfl, rfl, by decide⟩
      | otherString => exact ⟨'"', _, rfl, rfl, by decide⟩

theorem readValue_digit (fuel : Nat) (d : Char) (cs : List Char) (hd : d.isDigit = true) :
    readValue (fuel + 1) (d :: cs) = readNumber (d :: cs) := by
  rw [readValue]
  -- The other ways of the reader begin with letters, quotation marks and brackets.
  all_goals
    intro rest hcons
    cases hcons
    exact absurd hd (by decide)

theorem readValue_scalar (j : Json) (rest : List Char) (fuel : Nat) (h : j.IsScalar)
    (hrest : Ends rest) : readValue (fuel + 1) (scalar j ++ rest) = some (j, rest) := by
  cases j with
  | array items => exact h.elim
  | object members => exact h.elim
  | null => rfl
  | bool b => cases b <;> rfl
  | natural n =>
      obtain ⟨d, ds, hcons, hd⟩ := exists_digit n
      rw [scalar, hcons, List.cons_append, readValue_digit fuel d _ hd, ← List.cons_append, ← hcons,
        readNumber_digits n rest hrest]
  | otherNumber => exact readNumber_negative rest hrest
  | string s =>
      change readText _ = _
      rw [readText]
      change (readString ((s.toList.flatMap escape ++ ['"']) ++ rest)).map _ = _
      rw [List.append_assoc, List.singleton_append, readString_quote]
      rfl
  | otherString => rfl

-- The reader of items finds a value behind the blanks.
theorem skipBlanks_laidOut (j : Json) (gap text rest : List Char) (hgap : Blanks gap)
    (h : LaidOut j text) : skipBlanks (gap ++ (text ++ rest)) = text ++ rest := by
  obtain ⟨c, cs, rfl, hc, _⟩ := laidOut_head j text h
  rw [List.cons_append, skipBlanks_gap gap _ c hgap hc]

/-- The reader of items reads the items that were laid out. -/
theorem readItems_laidOut (items : List Json) (hitems : ∀ j ∈ items, ReadBack j)
    (done : List Json) (text rest : List Char) (fuel : Nat) (h : LaidOutItems items text)
    (hfuel : 2 * text.length ≤ fuel) :
    readItems fuel done (skipBlanks (text ++ rest)) =
      some (.array (done.reverse ++ items), rest) := by
  induction items generalizing done text fuel with
  | nil => cases h
  | cons j items ih =>
      have hj := hitems j (List.mem_cons_self ..)
      cases h with
      | last _ text before after hb ht ha =>
          simp only [List.length_append, List.length_cons, List.length_nil] at hfuel
          obtain ⟨fuel, rfl⟩ := Nat.exists_eq_add_one.mpr (show 0 < fuel by omega)
          simp only [List.append_assoc, List.cons_append, List.nil_append]
          rw [skipBlanks_laidOut j before text _ hb ht, readItems,
            hj text _ fuel ht (ends_gap after rest ']' ha (by decide)) (by omega)]
          simp only [skipBlanks_gap after rest ']' ha rfl, List.reverse_cons]
      | next _ _ text more before after hb ht ha hmore =>
          simp only [List.length_append, List.length_cons] at hfuel
          obtain ⟨fuel, rfl⟩ := Nat.exists_eq_add_one.mpr (show 0 < fuel by omega)
          simp only [List.append_assoc, List.cons_append]
          rw [skipBlanks_laidOut j before text _ hb ht, readItems,
            hj text _ fuel ht (ends_gap after _ ',' ha (by decide)) (by omega)]
          simp only [skipBlanks_gap after _ ',' ha rfl]
          rw [ih (fun i hi => hitems i (List.mem_cons_of_mem _ hi)) (j :: done) more fuel hmore
            (by omega), List.reverse_cons, List.append_assoc, List.singleton_append]

/-- A key is a string, whether or not it denotes a text. -/
theorem exists_readString_key (k : Option String) :
    ∃ body, key k = '"' :: body ∧ ∀ rest, readString (body ++ rest) = some (k, rest) := by
  cases k with
  | none => exact ⟨_, rfl, readString_half⟩
  | some s =>
      refine ⟨_, rfl, fun rest => ?_⟩
      rw [List.append_assoc, List.singleton_append, readString_quote]

-- The front of a member: its key, the colon and the value.
theorem readMembers_front (k : Option String) (j : Json) (hj : ReadBack j)
    (done : List (Option String × Json)) (before behind between text after rest : List Char)
    (c : Char) (fuel : Nat) (hb : Blanks before) (hk : Blanks behind) (hv : Blanks between)
    (ht : LaidOut j text) (ha : Blanks after) (hc : c = ',' ∨ c = '\x7d')
    (hfuel : 2 * text.length ≤ fuel + 1) :
    readMembers (fuel + 1) done (skipBlanks (before ++ (key k ++ (behind ++ ':' ::
        (between ++ (text ++ (after ++ c :: rest))))))) =
      if c = ',' then readMembers fuel ((k, j) :: done) (skipBlanks rest)
      else some (.object ((k, j) :: done).reverse, rest) := by
  obtain ⟨body, hkey, hread⟩ := exists_readString_key k
  have hends : Ends (after ++ c :: rest) :=
    ends_gap after rest c ha (hc.imp_right Or.inr)
  have hblank : isJsonBlank c = false := by rcases hc with rfl | rfl <;> rfl
  rw [hkey, List.cons_append, skipBlanks_gap before _ '"' hb rfl, readMembers, hread]
  simp only [skipBlanks_gap behind _ ':' hk rfl, skipBlanks_laidOut j between text _ hv ht,
    hj text _ fuel ht hends hfuel, skipBlanks_gap after rest c ha hblank]
  rcases hc with rfl | rfl
  · rfl
  · rfl

/-- The reader of members reads the members that were laid out. -/
theorem readMembers_laidOut (members : List (Option String × Json))
    (hmembers : ∀ m ∈ members, ReadBack m.2) (done : List (Option String × Json))
    (text rest : List Char) (fuel : Nat) (h : LaidOutMembers members text)
    (hfuel : 2 * text.length ≤ fuel) :
    readMembers fuel done (skipBlanks (text ++ rest)) =
      some (.object (done.reverse ++ members), rest) := by
  induction members generalizing done text fuel with
  | nil => cases h
  | cons m members ih =>
      have hm := hmembers m (List.mem_cons_self ..)
      cases h with
      | last k j text before behind between after hb hk hv ht ha =>
          simp only [List.length_append, List.length_cons, List.length_nil] at hfuel
          obtain ⟨fuel, rfl⟩ := Nat.exists_eq_add_one.mpr (show 0 < fuel by omega)
          simp only [List.append_assoc, List.cons_append, List.nil_append]
          rw [readMembers_front k j hm done before behind between text after rest '\x7d' fuel hb hk
            hv ht ha (Or.inr rfl) (by omega), if_neg (by decide), List.reverse_cons]
      | next k j _ text more before behind between after hb hk hv ht ha hmore =>
          simp only [List.length_append, List.length_cons] at hfuel
          obtain ⟨fuel, rfl⟩ := Nat.exists_eq_add_one.mpr (show 0 < fuel by omega)
          simp only [List.append_assoc, List.cons_append]
          rw [readMembers_front k j hm done before behind between text after _ ',' fuel hb hk hv ht
            ha (Or.inl rfl) (by omega), if_pos rfl,
            ih (fun i hi => hmembers i (List.mem_cons_of_mem _ hi)) _ more fuel hmore (by omega),
            List.reverse_cons, List.append_assoc, List.singleton_append]

-- Behind the opening bracket and the blanks there is an item, and not the closing bracket.
theorem items_head (items : List Json) (text rest : List Char) (h : LaidOutItems items text) :
    ∃ c cs, skipBlanks (text ++ rest) = c :: cs ∧ c ≠ ']' := by
  cases h with
  | last j text before after hb ht _ =>
      obtain ⟨c, cs, rfl, _, hc⟩ := laidOut_head j text ht
      simp only [List.append_assoc]
      rw [skipBlanks_laidOut j before _ _ hb ht]
      exact ⟨c, _, rfl, hc⟩
  | next j _ text _ before _ hb ht _ _ =>
      obtain ⟨c, cs, rfl, _, hc⟩ := laidOut_head j text ht
      simp only [List.append_assoc]
      rw [skipBlanks_laidOut j before _ _ hb ht]
      exact ⟨c, _, rfl, hc⟩

theorem members_head (members : List (Option String × Json)) (text rest : List Char)
    (h : LaidOutMembers members text) :
    ∃ c cs, skipBlanks (text ++ rest) = c :: cs ∧ c ≠ '\x7d' := by
  cases h with
  | last k _ _ before _ _ _ hb _ _ _ _ =>
      obtain ⟨body, hkey, _⟩ := exists_readString_key k
      simp only [hkey, List.append_assoc, List.cons_append]
      exact ⟨'"', _, skipBlanks_gap before _ '"' hb rfl, by decide⟩
  | next k _ _ _ _ before _ _ _ hb _ _ _ _ _ =>
      obtain ⟨body, hkey, _⟩ := exists_readString_key k
      simp only [hkey, List.append_assoc, List.cons_append]
      exact ⟨'"', _, skipBlanks_gap before _ '"' hb rfl, by decide⟩

theorem readValue_items (items : List Json) (text rest : List Char) (fuel : Nat)
    (h : LaidOutItems items text) :
    readValue (fuel + 1) ('[' :: (text ++ rest)) =
      readItems fuel [] (skipBlanks (text ++ rest)) := by
  obtain ⟨c, cs, hskip, hc⟩ := items_head items text rest h
  rw [readValue, hskip]
  split
  · rename_i heq
    exact absurd (List.cons.inj heq).1 hc
  · rfl

theorem readValue_members (members : List (Option String × Json)) (text rest : List Char)
    (fuel : Nat) (h : LaidOutMembers members text) :
    readValue (fuel + 1) ('\x7b' :: (text ++ rest)) =
      readMembers fuel [] (skipBlanks (text ++ rest)) := by
  obtain ⟨c, cs, hskip, hc⟩ := members_head members text rest h
  rw [readValue, hskip]
  split
  · rename_i heq
    exact absurd (List.cons.inj heq).1 hc
  · rfl

/-- Every layout of a value is read as the value. -/
theorem readBack (j : Json) : ReadBack j := by
  induction j using parts_induction with
  | hscalar j h =>
      intro text rest fuel ht hrest hfuel
      -- The text of a scalar has a first character, so there is fuel to look at it.
      obtain ⟨c, cs, htext, _, _⟩ := laidOut_head j text ht
      rw [htext, List.length_cons] at hfuel
      obtain ⟨fuel, rfl⟩ := Nat.exists_eq_add_one.mpr (show 0 < fuel by omega)
      cases ht with
      | scalar _ _ => exact readValue_scalar j rest fuel h hrest
      | noItems _ _ => exact h.elim
      | items _ _ _ => exact h.elim
      | noMembers _ _ => exact h.elim
      | members _ _ _ => exact h.elim
  | harray items ih =>
      intro text rest fuel ht hrest hfuel
      cases ht with
      | scalar _ h => exact h.elim
      | noItems gap hgap =>
          rw [List.length_cons] at hfuel
          obtain ⟨fuel, rfl⟩ := Nat.exists_eq_add_one.mpr (show 0 < fuel by omega)
          rw [List.cons_append, List.append_assoc, List.singleton_append, readValue,
            skipBlanks_gap gap rest ']' hgap rfl]
          rfl
      | items _ text hi =>
          -- The bracket takes one step, and what is left lasts for the items.
          rw [List.length_cons] at hfuel
          obtain ⟨fuel, rfl⟩ := Nat.exists_eq_add_one.mpr (show 0 < fuel by omega)
          rw [List.cons_append, readValue_items items text rest fuel hi]
          exact readItems_laidOut items ih [] text rest fuel hi (by omega)
  | hobject members ih =>
      intro text rest fuel ht hrest hfuel
      cases ht with
      | scalar _ h => exact h.elim
      | noMembers gap hgap =>
          rw [List.length_cons] at hfuel
          obtain ⟨fuel, rfl⟩ := Nat.exists_eq_add_one.mpr (show 0 < fuel by omega)
          rw [List.cons_append, List.append_assoc, List.singleton_append, readValue,
            skipBlanks_gap gap rest '\x7d' hgap rfl]
          rfl
      | members _ text hm =>
          rw [List.length_cons] at hfuel
          obtain ⟨fuel, rfl⟩ := Nat.exists_eq_add_one.mpr (show 0 < fuel by omega)
          rw [List.cons_append, readValue_members members text rest fuel hm]
          exact readMembers_laidOut members ih [] text rest fuel hm (by omega)

theorem skipBlanks_blanks (gap : List Char) (h : Blanks gap) : skipBlanks gap = [] := by
  rw [skipBlanks, ← List.append_nil gap, List.dropWhile_append_of_pos h]
  rfl

theorem ends_blanks (gap : List Char) (h : Blanks gap) : Ends gap := by
  intro c hc
  exact Or.inl (h c (List.mem_of_mem_head? hc))

/-- A text in which a value is laid out, with blanks in front and behind, is read as the value. -/
theorem parse?_laidOut (j : Json) (before text after : List Char) (hb : Blanks before)
    (h : LaidOut j text) (ha : Blanks after) :
    parse? (String.ofList (before ++ (text ++ after))) = some j := by
  rw [parse?, String.toList_ofList, skipBlanks_laidOut j before text after hb h,
    readBack j text after _ h (ends_blanks after ha) (by simp only [List.length_append]; omega)]
  simp only [skipBlanks_blanks after ha, if_true]

/-- A value that is printed on one line is read back. -/
theorem parse?_compact (j : Json) : parse? j.compact = some j := by
  have h := parse?_laidOut j [] _ [] blanks_nil (laidOut_compact j) blanks_nil
  rwa [List.nil_append, List.append_nil] at h

/-- A value that is printed with one item or member per line is read back. -/
theorem parse?_pretty (j : Json) : parse? j.pretty = some j := by
  have h := parse?_laidOut j [] _ [] blanks_nil (laidOut_pretty j 0) blanks_nil
  rwa [List.nil_append, List.append_nil] at h

end Json

end Microcode
