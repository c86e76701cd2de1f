import Mathlib.Data.List.Nodup
/-!
# Lookups

What is found in a list by its key.

Labels, letters and paths are looked up in lists of entries, and names are tried against lists of
candidates. The first entry that agrees is taken. So what is found is an entry of the list, and
nothing is found only under a key that no entry has. It depends on the order of the list which
entry is found, but not where no two candidates have the same key.

## Theorems

* `mem_of_lookup_eq_some`: What is found is an entry.
* `lookup_eq_none_iff_not_mem`: Nothing is found under the keys that occur nowhere.
* `find?_eq_some_iff_of_nodup`: The first of some candidates of which at most one will do.
-/

namespace Microcode

section Entries

variable {κ β : Type} [BEq κ] [LawfulBEq κ] (entries : List (κ × β)) (key : κ)

/-- What is found under a key is an entry with that key. -/
theorem mem_of_lookup_eq_some (value : β) (h : entries.lookup key = some value) :
    (key, value) ∈ entries := by
  rcases List.lookup_eq_some_iff.mp h with ⟨before, after, hsplit, _⟩
  rw [hsplit]
  exact List.mem_append_right _ List.mem_cons_self

/-- Nothing is found exactly under the keys that no entry has. -/
theorem lookup_eq_none_iff_not_mem :
    entries.lookup key = none ↔ key ∉ entries.map Prod.fst := by
  rw [List.lookup_eq_none_iff]
  constructor
  · intro h hmem
    rcases List.mem_map.mp hmem with ⟨entry, hentry, rfl⟩
    exact bne_iff_ne.mp (h entry hentry) rfl
  · intro h entry hentry
    refine bne_iff_ne.mpr (fun hkey => h ?_)
    rw [hkey]
    exact List.mem_map_of_mem hentry

end Entries

/-- The first candidate of which a key agrees, where no two candidates have the same key. -/
theorem find?_eq_some_iff_of_nodup {α β : Type} (candidates : List α) (key : α → β)
    (p : α → Bool) (k : β) (hp : ∀ a, p a = true ↔ key a = k)
    (hkeys : (candidates.map key).Nodup) (a : α) :
    candidates.find? p = some a ↔ a ∈ candidates ∧ key a = k := by
  constructor
  · intro h
    exact ⟨List.mem_of_find?_eq_some h, (hp a).mp (List.find?_some h)⟩
  · rintro ⟨hmem, hkey⟩
    induction candidates with
    | nil => cases hmem
    | cons first rest ih =>
        rw [List.map_cons, List.nodup_cons] at hkeys
        rcases List.mem_cons.mp hmem with rfl | hrest
        · rw [List.find?_cons_of_pos ((hp a).mpr hkey)]
        · -- The key is that of a later candidate, so it cannot be that of the first one as well.
          have hfirst : ¬ p first = true := by
            rw [hp first, ← hkey]
            exact fun hc => hkeys.1 (hc ▸ List.mem_map_of_mem hrest)
          rw [List.find?_cons_of_neg hfirst]
          exact ih hkeys.2 hrest

end Microcode
