import Microcode.Json.Printer
import Microcode.Json.Parser
/-!
# JSON Layouts

The texts in which a JSON value may be laid out.

A value on one line and a value on many lines are the same tokens with other blanks between
them. `LaidOut` leaves the blanks open: it relates a value to every text that has its tokens, with
any blanks around an item, a key, a value or a comma. Both printers are instances of it, so what
the reader makes of a printed value has to be shown only once.

There is a relation for each of the three readers that call each other. The text of items, or of
members, begins with the blanks in front of the first one and ends with the closing bracket, as
the readers take it.

## Main definitions

* `Json.Blanks`: A text of blanks.
* `Json.IsScalar`: A value that is neither an array nor an object.
* `Json.LaidOut`, `Json.LaidOutItems`, `Json.LaidOutMembers`: The layouts of a value, of the items
  of an array and of the members of an object.

## Theorems

* `parts_induction`: A property of all values.
* `laidOut_compact`, `laidOut_pretty`: Both printers lay a value out.
-/

namespace Microcode

namespace Json

/-- A text of blanks. -/
def Blanks (gap : List Char) : Prop :=
  ∀ c ∈ gap, isJsonBlank c = true

/-- A value that is neither an array nor an object. -/
def IsScalar : Json → Prop
  | .array _ | .object _ => False
  | _ => True

mutual

/-- The layouts of a value. -/
inductive LaidOut : Json → List Char → Prop where
  | scalar (j : Json) (h : j.IsScalar) : LaidOut j (scalar j)
  | noItems (gap : List Char) (h : Blanks gap) : LaidOut (.array []) ('[' :: (gap ++ [']']))
  | items (items : List Json) (text : List Char) (h : LaidOutItems items text) :
      LaidOut (.array items) ('[' :: text)
  | noMembers (gap : List Char) (h : Blanks gap) :
      LaidOut (.object []) ('\x7b' :: (gap ++ ['\x7d']))
  | members (members : List (Option String × Json)) (text : List Char)
      (h : LaidOutMembers members text) : LaidOut (.object members) ('\x7b' :: text)

/-- The layouts of the items of an array, up to its closing bracket. -/
inductive LaidOutItems : List Json → List Char → Prop where
  | last (j : Json) (text before after : List Char) (hb : Blanks before) (h : LaidOut j text)
      (ha : Blanks after) : LaidOutItems [j] (before ++ (text ++ (after ++ [']'])))
  | next (j : Json) (items : List Json) (text more before after : List Char)
      (hb : Blanks before) (h : LaidOut j text) (ha : Blanks after)
      (hmore : LaidOutItems items more) :
      LaidOutItems (j :: items) (before ++ (text ++ (after ++ ',' :: more)))

/-- The layouts of the members of an object, up to its closing bracket. -/
inductive LaidOutMembers : List (Option String × Json) → List Char → Prop where
  | last (k : Option String) (j : Json) (text before behind between after : List Char)
      (hb : Blanks before) (hk : Blanks behind) (hv : Blanks between) (h : LaidOut j text)
      (ha : Blanks after) :
      LaidOutMembers [(k, j)]
        (before ++ (key k ++ (behind ++ ':' :: (between ++ (text ++ (after ++ ['\x7d']))))))
  | next (k : Option String) (j : Json) (members : List (Option String × Json))
      (text more before behind between after : List Char)
      (hb : Blanks before) (hk : Blanks behind) (hv : Blanks between) (h : LaidOut j text)
      (ha : Blanks after) (hmore : LaidOutMembers members more) :
      LaidOutMembers ((k, j) :: members)
        (before ++ (key k ++ (behind ++ ':' :: (between ++ (text ++ (after ++ ',' :: more))))))

end

/-- A property of all values: it holds of those without parts, and it holds of an array or an
    object if it holds of every part. -/
@[elab_as_elim]
theorem parts_induction {P : Json → Prop} (hscalar : ∀ j, j.IsScalar → P j)
    (harray : ∀ items : List Json, (∀ j ∈ items, P j) → P (.array items))
    (hobject : ∀ members : List (Option String × Json), (∀ m ∈ members, P m.2) →
      P (.object members)) : ∀ j, P j
  | .array items => harray items (fun j hj =>
      have := List.sizeOf_lt_of_mem hj
      parts_induction hscalar harray hobject j)
  | .object members => hobject members (fun m hm =>
      have := List.sizeOf_lt_of_mem hm
      parts_induction hscalar harray hobject m.2)
  | .null => hscalar _ trivial
  | .bool _ => hscalar _ trivial
  | .natural _ => hscalar _ trivial
  | .otherNumber => hscalar _ trivial
  | .string _ => hscalar _ trivial
  | .otherString => hscalar _ trivial
termination_by j => sizeOf j
decreasing_by
  · simp only [Json.array.sizeOf_spec]
    omega
  · have hm : sizeOf m = 1 + sizeOf m.1 + sizeOf m.2 := rfl
    simp only [Json.object.sizeOf_spec]
    omega

theorem blanks_nil : Blanks [] :=
  List.forall_mem_nil _

theorem blanks_newLine (level : Nat) : Blanks (newLine level) := by
  intro c hc
  rw [newLine, List.mem_cons] at hc
  rcases hc with rfl | hc
  · rfl
  · rw [List.eq_of_mem_replicate hc]
    rfl

theorem blanks_space : Blanks [' '] :=
  List.forall_mem_singleton.mpr rfl

theorem laidOut_compactItems (items : List Json) (hne : items ≠ [])
    (h : ∀ j ∈ items, LaidOut j (compactChars j)) :
    LaidOutItems items (compactItems items ++ [']']) := by
  induction items with
  | nil => exact absurd rfl hne
  | cons j items ih =>
      have hj := h j (List.mem_cons_self ..)
      cases items with
      | nil => exact .last j _ [] [] blanks_nil hj blanks_nil
      | cons next items =>
          have hmore := ih (List.cons_ne_nil _ _) (fun i hi => h i (List.mem_cons_of_mem _ hi))
          rw [compactItems, List.append_assoc, List.cons_append]
          · exact .next j _ _ _ [] [] blanks_nil hj blanks_nil hmore
          · exact List.cons_ne_nil _ _

theorem laidOut_compactMembers (members : List (Option String × Json)) (hne : members ≠ [])
    (h : ∀ m ∈ members, LaidOut m.2 (compactChars m.2)) :
    LaidOutMembers members (compactMembers members ++ ['\x7d']) := by
  induction members with
  | nil => exact absurd rfl hne
  | cons m members ih =>
      have hm := h m (List.mem_cons_self ..)
      cases members with
      | nil =>
          rw [compactMembers, List.append_assoc, List.cons_append]
          exact .last m.1 m.2 _ [] [] [] [] blanks_nil blanks_nil blanks_nil hm blanks_nil
      | cons next members =>
          have hmore := ih (List.cons_ne_nil _ _) (fun i hi => h i (List.mem_cons_of_mem _ hi))
          rw [compactMembers, List.append_assoc, List.cons_append, List.append_assoc,
            List.cons_append]
          · exact .next m.1 m.2 _ _ _ [] [] [] [] blanks_nil blanks_nil blanks_nil hm blanks_nil
              hmore
          · exact List.cons_ne_nil _ _

theorem laidOut_prettyItems (level : Nat) (items : List Json) (hne : items ≠ [])
    (h : ∀ j ∈ items, LaidOut j (prettyChars (level + 1) j)) :
    LaidOutItems items (prettyItems (level + 1) items ++ (newLine level ++ [']'])) := by
  induction items with
  | nil => exact absurd rfl hne
  | cons j items ih =>
      have hj := h j (List.mem_cons_self ..)
      cases items with
      | nil =>
          rw [prettyItems, List.append_assoc]
          exact .last j _ _ _ (blanks_newLine _) hj (blanks_newLine level)
      | cons next items =>
          have hmore := ih (List.cons_ne_nil _ _) (fun i hi => h i (List.mem_cons_of_mem _ hi))
          rw [prettyItems, List.append_assoc, List.append_assoc, List.cons_append]
          · exact .next j _ _ _ _ [] (blanks_newLine _) hj blanks_nil hmore
          · exact List.cons_ne_nil _ _

theorem laidOut_prettyMembers (level : Nat) (members : List (Option String × Json))
    (hne : members ≠ []) (h : ∀ m ∈ members, LaidOut m.2 (prettyChars (level + 1) m.2)) :
    LaidOutMembers members (prettyMembers (level + 1) members ++ (newLine level ++ ['\x7d'])) := by
  induction members with
  | nil => exact absurd rfl hne
  | cons m members ih =>
      have hm := h m (List.mem_cons_self ..)
      cases members with
      | nil =>
          rw [prettyMembers]
          simp only [List.append_assoc, List.cons_append]
          exact .last m.1 m.2 _ _ [] [' '] _ (blanks_newLine _) blanks_nil blanks_space hm
            (blanks_newLine level)
      | cons next members =>
          have hmore := ih (List.cons_ne_nil _ _) (fun i hi => h i (List.mem_cons_of_mem _ hi))
          rw [prettyMembers]
          · simp only [List.append_assoc, List.cons_append]
            exact .next m.1 m.2 _ _ _ _ [] [' '] [] (blanks_newLine _) blanks_nil blanks_space hm
              blanks_nil hmore
          · exact List.cons_ne_nil _ _

/-- A value on one line is laid out. -/
theorem laidOut_compact (j : Json) : LaidOut j (compactChars j) := by
  induction j using parts_induction with
  | hscalar j h =>
      have hj : compactChars j = scalar j := by
        cases j <;> first | rfl | exact h.elim
      rw [hj]
      exact .scalar j h
  | harray items ih =>
      cases items with
      | nil => exact .noItems [] blanks_nil
      | cons j items => exact .items _ _ (laidOut_compactItems _ (List.cons_ne_nil _ _) ih)
  | hobject members ih =>
      cases members with
      | nil => exact .noMembers [] blanks_nil
      | cons m members => exact .members _ _ (laidOut_compactMembers _ (List.cons_ne_nil _ _) ih)

/-- A value with one item or member per line is laid out, whatever its level. -/
theorem laidOut_pretty (j : Json) (level : Nat) : LaidOut j (prettyChars level j) := by
  induction j using parts_induction generalizing level with
  | hscalar j h =>
      have hj : prettyChars level j = scalar j := by
        cases j <;> first | rfl | exact h.elim
      rw [hj]
      exact .scalar j h
  | harray items ih =>
      cases items with
      | nil => exact .noItems [] blanks_nil
      | cons j items =>
          rw [prettyChars, List.append_assoc]
          · exact .items _ _ (laidOut_prettyItems level _ (List.cons_ne_nil _ _)
              (fun i hi => ih i hi (level + 1)))
          · exact List.cons_ne_nil _ _
  | hobject members ih =>
      cases members with
      | nil => exact .noMembers [] blanks_nil
      | cons m members =>
          rw [prettyChars, List.append_assoc]
          · exact .members _ _ (laidOut_prettyMembers level _ (List.cons_ne_nil _ _)
              (fun i hi => ih i hi (level + 1)))
          · exact List.cons_ne_nil _ _

end Json

end Microcode
