import Microcode.Json.Basic
/-!
# JSON Records

Typed data, restored from the JSON values that stand for it.

A type that can be saved has a function that makes a JSON value of it and a function that reads one.
`Restores` is the law between the two. It passes from a type to lists, pairs and optional values
of it, and `members?_record` finds the members of a record, so that the law for a structure is put
together from the laws for its fields.

## Main definitions

* `Json.Restores`: What is made of a value is read as that value.

## Theorems

* `restores_byte`, `restores_count`: The law for bytes and counts.
* `Restores.nullable`, `Restores.items`, `Restores.pair`: The law for optional values, lists and
  pairs.
* `members?_record`: The members of a record are found by their names.
-/

namespace Microcode

namespace Json

/-- What is made of a value is read as that value. -/
def Restores {α : Type} (write : α → Json) (read : Json → Option α) : Prop :=
  ∀ a, read (write a) = some a

variable {α β : Type}

/-- A byte is read as it was written. -/
theorem restores_byte : Restores byte byte? := by
  intro b
  rw [byte, byte?, natural?, Option.bind_some, if_pos b.toNat_lt, UInt8.ofNat_toNat]

/-- A count is read as it was written. -/
theorem restores_count : Restores (fun n : UInt64 => natural n.toNat) count? := by
  intro n
  rw [count?, natural?, Option.bind_some, if_pos n.toNat_lt, UInt64.ofNat_toNat]

/-- An optional value is restored if the value itself is never written as `null`. -/
theorem Restores.nullable {write : α → Json} {read : Json → Option α} (h : Restores write read)
    (hnull : ∀ a, write a ≠ null) : Restores (nullable write) (nullable? read) := by
  intro a
  cases a with
  | none => rfl
  | some a =>
      rw [Json.nullable, nullable?]
      · rw [h a, Option.map_some]
      · exact hnull a

/-- A list is read item by item. -/
theorem mapM_eq_some (f : α → Option β) (g : α → β) (as : List α)
    (h : ∀ a ∈ as, f a = some (g a)) : as.mapM f = some (as.map g) := by
  induction as with
  | nil => rfl
  | cons a as ih =>
      rw [List.mapM_cons, h a (List.mem_cons_self ..),
        ih (fun a ha => h a (List.mem_cons_of_mem _ ha))]
      rfl

/-- Every item is read or none is. -/
theorem length_of_mapM (f : α → Option β) (as : List α) (bs : List β)
    (h : as.mapM f = some bs) : as.length = bs.length := by
  induction as generalizing bs with
  | nil =>
      cases h
      rfl
  | cons a as ih =>
      simp only [List.mapM_cons, Option.bind_eq_bind, Option.bind_eq_some_iff, Option.pure_def,
        Option.some.injEq] at h
      obtain ⟨b, _, rest, hrest, rfl⟩ := h
      rw [List.length_cons, List.length_cons, ih rest hrest]

/-- A list is restored if its items are. -/
theorem Restores.items {write : α → Json} {read : Json → Option α} (h : Restores write read)
    (as : List α) : items? read (array (as.map write)) = some as := by
  rw [items?, List.mapM_map, mapM_eq_some (read ∘ write) id as (fun a _ => h a), List.map_id]

/-- A pair is restored if its halves are. -/
theorem Restores.pair {write : α → Json} {read : Json → Option α} {write' : β → Json}
    {read' : Json → Option β} (h : Restores write read) (h' : Restores write' read') :
    Restores (fun p : α × β => array [write p.1, write' p.2]) (pair? read read') := by
  intro p
  rw [pair?, h p.1, h' p.2]
  rfl

/-- A name that occurs once gives one value. -/
theorem valuesOf_record (members : List (String × Json)) (hnames : (members.map Prod.fst).Nodup)
    (m : String × Json) (hm : m ∈ members) :
    valuesOf m.1 (members.map (fun member => (some member.1, member.2))) = [m.2] := by
  induction members with
  | nil => cases hm
  | cons first members ih =>
      rw [List.map_cons, List.nodup_cons] at hnames
      rw [valuesOf, List.map_cons, List.filter_cons]
      rcases List.mem_cons.mp hm with rfl | hm
      · -- No later member has the name of the first one.
        have hnone : (members.map (fun member => (some member.1, member.2))).filter
            (fun member => member.1 == some m.1) = [] := by
          simp only [List.filter_eq_nil_iff, List.mem_map, forall_exists_index, and_imp,
            beq_iff_eq]
          rintro _ other hother rfl hname
          exact hnames.1 (Option.some.inj hname ▸ List.mem_map_of_mem hother)
        rw [if_pos (beq_self_eq_true _), hnone]
        rfl
      · have hne : ¬ (some first.1 == some m.1) = true := by
          rw [beq_iff_eq, Option.some.injEq]
          exact fun hname => hnames.1 (hname ▸ List.mem_map_of_mem hm)
        rw [if_neg hne]
        exact ih hnames.2 hm

/-- The members of a record are found by their names. -/
theorem members?_record (names : List String) (values : List Json)
    (hlength : names.length = values.length) (hnames : names.Nodup) :
    (record (names.zip values)).members? names = some (values.map some) := by
  have hfst : (names.zip values).map Prod.fst = names := List.map_fst_zip (Nat.le_of_eq hlength)
  have hsnd : (names.zip values).map Prod.snd = values :=
    List.map_snd_zip (Nat.le_of_eq hlength.symm)
  generalize names.zip values = members at hfst hsnd
  subst hfst hsnd
  have htexts : (members.map (fun member => (some member.1, member.2))).all
      (fun member => member.1.isSome) = true := by
    rw [List.all_map]
    exact List.all_eq_true.mpr (fun _ _ => rfl)
  rw [record, members?, if_pos htexts, List.mapM_map, List.map_map]
  refine mapM_eq_some _ _ members (fun m hm => ?_)
  simp only [Function.comp_apply, valuesOf_record members hnames m hm]

end Json

end Microcode
