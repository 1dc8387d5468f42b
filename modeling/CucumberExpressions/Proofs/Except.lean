import Mathlib.Data.List.Forall2

/-!
# Results that may be errors

When a computation succeeds, and where its error comes from otherwise: from one of its steps, whose
steps before have all succeeded.

## Main results

* `bind_eq_ok_iff`, `bind_eq_error_iff` — two steps after one another
* `mapM_eq_ok_iff`, `mapM_eq_error_iff` — the same step for each item of a list
* `foldlM_eq_ok_of_simulates` — two starting points from which every step does the same
* `mapError_eq_error_iff`, `mapError_eq_ok_iff` — a step whose errors are put in other words
-/

namespace CucumberExpressions

variable {ε ε' α β : Type} {error : ε}

/-- Two steps succeed if the first one does, and the second one on what has come of it. -/
theorem bind_eq_ok_iff {result : Except ε α} {f : α → Except ε β} {b : β} :
    result >>= f = .ok b ↔ ∃ a, result = .ok a ∧ f a = .ok b := by
  constructor
  · intro h
    cases result with
    | ok a => exact ⟨a, rfl, h⟩
    | error e => cases h
  · rintro ⟨a, rfl, h⟩
    exact h

/-- The error of two steps is that of the first one, or that of the second one if there is none. -/
theorem bind_eq_error_iff {result : Except ε α} {f : α → Except ε β} :
    result >>= f = .error error ↔
      result = .error error ∨ ∃ a, result = .ok a ∧ f a = .error error := by
  constructor
  · intro h
    cases result with
    | ok a => exact .inr ⟨a, rfl, h⟩
    | error _ =>
      cases h
      exact .inl rfl
  · rintro (rfl | ⟨a, rfl, h⟩)
    · rfl
    · exact h

theorem mapError_eq_error_iff {result : Except ε' α} {f : ε' → ε} :
    result.mapError f = .error error ↔ ∃ e, result = .error e ∧ f e = error := by
  constructor
  · intro h
    cases result with
    | ok a => cases h
    | error e => exact ⟨e, rfl, Except.error.inj h⟩
  · rintro ⟨e, rfl, rfl⟩
    rfl

theorem mapError_eq_ok_iff {result : Except ε' α} {f : ε' → ε} {a : α} :
    result.mapError f = .ok a ↔ result = .ok a := by
  constructor
  · intro h
    cases result with
    | ok b =>
      cases h
      rfl
    | error e => cases h
  · rintro rfl
    rfl

/-- A list is gone through to its end if there is no error. -/
theorem mapM_eq_ok_iff {f : α → Except ε β} {list : List α} {results : List β} :
    list.mapM f = .ok results ↔ List.Forall₂ (fun a b => f a = .ok b) list results := by
  induction list generalizing results with
  | nil => cases results <;> simp [pure, Except.pure]
  | cons x list ih =>
    rw [List.mapM_cons, bind_eq_ok_iff]
    constructor
    · rintro ⟨b, hx, hlist⟩
      obtain ⟨rest, hrest, ⟨⟩⟩ := bind_eq_ok_iff.mp hlist
      exact .cons hx (ih.mp hrest)
    · intro h
      cases h with
      | cons hx hlist => exact ⟨_, hx, bind_eq_ok_iff.mpr ⟨_, ih.mpr hlist, rfl⟩⟩

/-- If every step does the same to `b` and to `g b`, so does going through a list. -/
theorem foldlM_eq_ok_of_simulates {f : β → α → Except ε β} {g : β → β}
    (h : ∀ {b b' a}, f b a = .ok b' → f (g b) a = .ok (g b')) {list : List α} {b b' : β}
    (hlist : list.foldlM f b = .ok b') : list.foldlM f (g b) = .ok (g b') := by
  induction list generalizing b with
  | nil =>
    cases hlist
    rfl
  | cons a list ih =>
    rw [List.foldlM_cons] at hlist ⊢
    obtain ⟨next, hnext, hlist⟩ := bind_eq_ok_iff.mp hlist
    exact bind_eq_ok_iff.mpr ⟨g next, h hnext, ih hlist⟩

/-- A list is gone through up to the first error. -/
theorem mapM_eq_error_iff {f : α → Except ε β} {list : List α} :
    list.mapM f = .error error ↔
      ∃ before a after, list = before ++ a :: after ∧ (∀ x ∈ before, ∃ b, f x = .ok b) ∧
        f a = .error error := by
  induction list with
  | nil => simp [pure, Except.pure]
  | cons x list ih =>
    -- The first error comes from the head, or it is the first one in the list after it.
    rw [List.mapM_cons, bind_eq_error_iff]
    constructor
    · rintro (hx | ⟨b, hx, hlist⟩)
      · exact ⟨[], x, list, rfl, by simp, hx⟩
      · rcases bind_eq_error_iff.mp hlist with hlist | ⟨_, _, ⟨⟩⟩
        obtain ⟨before, a, after, rfl, hbefore, ha⟩ := ih.mp hlist
        exact ⟨x :: before, a, after, rfl, by simpa using ⟨⟨b, hx⟩, hbefore⟩, ha⟩
    · rintro ⟨before, a, after, hlist, hbefore, ha⟩
      cases before with
      | nil =>
        cases hlist
        exact .inl ha
      | cons y before =>
        cases hlist
        obtain ⟨b, hb⟩ := hbefore x List.mem_cons_self
        refine .inr ⟨b, hb, bind_eq_error_iff.mpr (.inl (ih.mpr ?_))⟩
        exact ⟨before, a, after, rfl, fun z hz => hbefore z (List.mem_cons_of_mem _ hz), ha⟩

end CucumberExpressions
