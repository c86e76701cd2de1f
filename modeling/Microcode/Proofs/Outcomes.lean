/-!
# Outcomes

Computations that succeed or report an error, taken apart.

A computation in parts succeeds if all of its parts do, and then there are the values in between.
Stating success as an equation with such values lets a proof follow the computation without
opening it, and a run of many steps is followed by induction in the same way.

Two computations can also be compared part by part. If each part of the one gives what the part of
the other gives, up to a translation of errors and values, then so do the whole computations.

## Main definitions

* `translate`: An outcome with its error and its value translated.

## Theorems

* `mapError_ok`, `mapError_error`: Reporting an error in other words.
* `bind_eq_ok_iff`, `mapError_eq_ok_iff`, `map_eq_ok_iff`: Success of a computation in parts.
* `foldlM_preserves`: What every step preserves, a run preserves.
* `translate_bind`, `translate_foldlM`: Computations that are translated part by part.
* `eq_ok_iff_of_translate`, `exists_error_of_translate`: Outcomes with the same translation.
-/

namespace Microcode

variable {ε ε' α β : Type}

theorem mapError_ok (f : ε → ε') (a : α) : (Except.ok a).mapError f = .ok a :=
  rfl

theorem mapError_error (f : ε → ε') (e : ε) :
    (Except.error e : Except ε α).mapError f = .error (f e) :=
  rfl

/-- A computation in two parts succeeds if both parts do. -/
theorem bind_eq_ok_iff (x : Except ε α) (f : α → Except ε β) (b : β) :
    (x >>= f) = .ok b ↔ ∃ a, x = .ok a ∧ f a = .ok b := by
  cases x with
  | error e =>
      constructor
      · intro h
        cases h
      · rintro ⟨a, ha, _⟩
        cases ha
  | ok a =>
      constructor
      · intro h
        exact ⟨a, rfl, h⟩
      · rintro ⟨a', ha, h⟩
        cases ha
        exact h

/-- Reporting an error in other words does not change whether there is one. -/
theorem mapError_eq_ok_iff (x : Except ε α) (f : ε → ε') (a : α) :
    x.mapError f = .ok a ↔ x = .ok a := by
  cases x with
  | error e => simp only [mapError_error, reduceCtorEq]
  | ok b => rw [mapError_ok, Except.ok.injEq, Except.ok.injEq]

/-- A mapped outcome is a success exactly if the outcome is. -/
theorem map_eq_ok_iff (x : Except ε α) (f : α → β) (b : β) :
    x.map f = .ok b ↔ ∃ a, x = .ok a ∧ f a = b := by
  cases x with
  | error e => simp only [Except.map, reduceCtorEq, false_and, exists_false]
  | ok a => simp only [Except.map, Except.ok.injEq, exists_eq_left']

/-- What every step preserves, a run preserves. -/
theorem foldlM_preserves (P : α → Prop) (f : α → β → Except ε α)
    (hstep : ∀ a x b, P a → f a x = .ok b → P b) (xs : List β) (a b : α) (ha : P a)
    (h : xs.foldlM f a = .ok b) : P b := by
  induction xs generalizing a with
  | nil =>
      cases h
      exact ha
  | cons x xs ih =>
      rw [List.foldlM_cons, bind_eq_ok_iff] at h
      rcases h with ⟨c, hc, hrest⟩
      exact ih c (hstep a x c ha hc) hrest

variable {α' β' γ γ' : Type}

/-- An outcome with its error and its value translated. -/
def translate (φ : ε → ε') (ψ : α → α') : Except ε α → Except ε' α'
  | .ok a => .ok (ψ a)
  | .error e => .error (φ e)

/-- A computation in two parts is translated part by part. -/
theorem translate_bind (φ : ε → ε') (ψ : α → α') (χ : β → β') (x : Except ε α)
    (f : α → Except ε β) (f' : α' → Except ε' β')
    (hf : ∀ a, f' (ψ a) = translate φ χ (f a)) :
    (translate φ ψ x >>= f') = translate φ χ (x >>= f) := by
  cases x with
  | error e => rfl
  | ok a => exact hf a

/-- A run is translated step by step. -/
theorem translate_foldlM (φ : ε → ε') (ψ : α → α') (θ : γ → γ') (f : α → γ → Except ε α)
    (f' : α' → γ' → Except ε' α') (hf : ∀ a x, f' (ψ a) (θ x) = translate φ ψ (f a x))
    (xs : List γ) (a : α) :
    (xs.map θ).foldlM f' (ψ a) = translate φ ψ (xs.foldlM f a) := by
  induction xs generalizing a with
  | nil => rfl
  | cons x xs ih =>
      rw [List.map_cons, List.foldlM_cons, List.foldlM_cons, hf]
      exact translate_bind φ ψ ψ (f a x) _ _ ih

/-- Outcomes that are one outcome but for the errors succeed with the same value, if they do. -/
theorem eq_ok_iff_of_translate (φ φ' : ε → ε') (x y : Except ε α)
    (h : translate φ id x = translate φ' id y) (a : α) : x = .ok a ↔ y = .ok a := by
  cases x with
  | ok b =>
      cases y with
      | ok b' =>
          have heq : b = b' := Except.ok.inj h
          rw [heq]
      | error e => exact nomatch h
  | error e =>
      cases y with
      | ok b => exact nomatch h
      | error e' => simp only [reduceCtorEq]

theorem exists_error_of_translate (φ φ' : ε → ε') (x y : Except ε α)
    (h : translate φ id x = translate φ' id y) (e : ε) (hx : x = .error e) :
    ∃ e', y = .error e' ∧ φ e = φ' e' := by
  rw [hx] at h
  cases y with
  | ok b => exact nomatch h
  | error e' => exact ⟨e', rfl, Except.error.inj h⟩

end Microcode
