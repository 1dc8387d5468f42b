import CucumberExpressions.Proofs.Scanner.History
import Mathlib.Order.Bounds.Defs

/-!
# Which expressions have tokens

An escape character introduces an escape unless it is escaped itself, so escape characters in a row
go in pairs. An expression has tokens exactly if every escape in it is that of a special character;
otherwise its error is about the first escape that is not.

## Main definitions

* `IsIntroducer` — whether an escape character stands at a position, and is not escaped itself
* `IsBadEscape` — whether it introduces an escape, but not that of a special character

## Main results

* `isBadEscape_written_append` — bad escapes are found only after the atoms at the front of a text
* `tokenize_accepts_or_reports_first` — an expression has tokens if it is made of atoms only, and
  otherwise an error about its first bad escape
-/

namespace CucumberExpressions

open Atom

/-- Whether an escape character stands at a position of a text, and is not escaped itself. -/
def IsIntroducer (cs : List Char) : Nat → Prop
  | 0 => cs[0]? = some escapeCharacter
  | p + 1 => cs[p + 1]? = some escapeCharacter ∧ ¬ IsIntroducer cs p

/-- Whether an escape is introduced at a position of a text, but not that of a special character. -/
def IsBadEscape (cs : List Char) (p : Nat) : Prop :=
  IsIntroducer cs p ∧ ¬ ∃ c, cs[p + 1]? = some c ∧ isSpecial c = true

variable {cs : List Char} {atoms : List Atom} {p : Nat}

/-! ### Escapes after atoms -/

/-- The escape character of an atom introduces an escape, its other character does not. -/
theorem isIntroducer_source_append_of_lt (a : Atom) (h : p < a.width) :
    IsIntroducer (a.source ++ cs) p ↔ p = 0 ∧ a.isEscaped = true := by
  cases a with
  | plain c hc =>
    obtain rfl : p = 0 := Nat.lt_one_iff.mp h
    simp [IsIntroducer, source, isEscaped, hc]
  | escaped c hc =>
    have hp : p = 0 ∨ p = 1 := by
      simp only [width] at h
      omega
    rcases hp with rfl | rfl <;> simp [IsIntroducer, source, isEscaped]

/-- What an atom before a text does to it: offsets behind the atom are moved by its width. -/
theorem isIntroducer_source_append (a : Atom) (cs : List Char) (p : Nat) :
    IsIntroducer (a.source ++ cs) (a.width + p) ↔ IsIntroducer cs p := by
  -- No escape is introduced by the last character of an atom, so the count starts anew after it.
  induction p with
  | zero =>
    cases a with
    | plain c hc => simp [IsIntroducer, source, width, hc]
    | escaped c hc => simp [IsIntroducer, source, width]
  | succ p ih =>
    have hget : (a.source ++ cs)[a.width + p + 1]? = cs[p + 1]? := by
      rw [← length_source, Nat.add_assoc, List.getElem?_append_right (Nat.le_add_right _ _),
        Nat.add_sub_cancel_left]
    rw [← Nat.add_assoc, IsIntroducer, IsIntroducer, hget, ih]

/-- An atom is no bad escape, so a bad escape stands after it. -/
theorem isBadEscape_source_append (a : Atom) (cs : List Char) (p : Nat) :
    IsBadEscape (a.source ++ cs) p ↔ ∃ q, p = a.width + q ∧ IsBadEscape cs q := by
  have hafter : ∀ q, IsBadEscape (a.source ++ cs) (a.width + q) ↔ IsBadEscape cs q := by
    intro q
    rw [IsBadEscape, IsBadEscape, isIntroducer_source_append, ← length_source, Nat.add_assoc,
      List.getElem?_append_right (Nat.le_add_right _ _), Nat.add_sub_cancel_left]
  constructor
  · intro hbad
    by_cases hlt : p < a.width
    · -- Inside the atom only an escape can be introduced, and this one is not bad.
      obtain ⟨rfl, hescaped⟩ := (isIntroducer_source_append_of_lt a hlt).mp hbad.1
      cases a with
      | plain => cases hescaped
      | escaped c hc => exact absurd ⟨c, rfl, hc⟩ hbad.2
    · obtain ⟨q, rfl⟩ := Nat.exists_eq_add_of_le (Nat.not_lt.mp hlt)
      exact ⟨q, rfl, (hafter q).mp hbad⟩
  · rintro ⟨q, rfl, hbad⟩
    exact (hafter q).mpr hbad

/-- Bad escapes are found only after the atoms at the front of a text. -/
theorem isBadEscape_written_append (atoms : List Atom) (cs : List Char) (p : Nat) :
    IsBadEscape (Atom.written atoms ++ cs) p ↔
      ∃ q, p = totalWidth atoms + q ∧ IsBadEscape cs q := by
  induction atoms generalizing p with
  | nil => simp
  | cons a atoms ih =>
    rw [written_cons, List.append_assoc, isBadEscape_source_append, totalWidth_cons]
    constructor
    · rintro ⟨q, rfl, hbad⟩
      obtain ⟨r, rfl, hrest⟩ := (ih q).mp hbad
      exact ⟨r, (Nat.add_assoc ..).symm, hrest⟩
    · rintro ⟨r, rfl, hbad⟩
      exact ⟨totalWidth atoms + r, Nat.add_assoc .., (ih _).mpr ⟨r, rfl, hbad⟩⟩

/-- If what comes after the atoms starts with a bad escape, this is the first one. -/
theorem isLeast_isBadEscape_written_append (h : IsBadEscape cs 0) :
    IsLeast {p | IsBadEscape (Atom.written atoms ++ cs) p} (totalWidth atoms) := by
  refine ⟨(isBadEscape_written_append atoms cs _).mpr ⟨0, rfl, h⟩, ?_⟩
  intro p hp
  obtain ⟨q, rfl, -⟩ := (isBadEscape_written_append atoms cs p).mp hp
  exact Nat.le_add_right _ _

/-! ### Acceptance -/

/-- **Acceptance.** An expression has tokens exactly if it is made of atoms only. Otherwise it has a
first bad escape, and its error is that the escape character is the last character of the
expression, or else it names the character after it. -/
theorem tokenize_accepts_or_reports_first (expression : String) :
    ((∃ tokens, tokenize expression = .ok tokens) ↔
      ∃ atoms, expression.toList = Atom.written atoms) ∧
    ((¬ ∃ tokens, tokenize expression = .ok tokens) →
      ∃ p, IsLeast {p | IsBadEscape expression.toList p} p ∧
        (p + 1 = expression.length ∧
            tokenize expression = .error ⟨expression, p, .escapedEndOfLine⟩ ∨
          ∃ c index, expression.toList[p + 1]? = some c ∧
            tokenize expression =
              .error ⟨expression, index, .cannotEscape (String.singleton c)⟩)) := by
  refine ⟨⟨?_, ?_⟩, fun hnot => ?_⟩
  · rintro ⟨tokens, htokens⟩
    obtain ⟨atoms, hatoms, -⟩ := tokenize_eq_ok_iff.mp htokens
    exact ⟨atoms, hatoms⟩
  · rintro ⟨atoms, hatoms⟩
    exact ⟨_, tokenize_of_written hatoms⟩
  obtain ⟨atoms, rest, hatoms, hstops⟩ := exists_written_append expression.toList
  refine ⟨totalWidth atoms, ?_⟩
  cases hstops with
  | finished =>
    rw [List.append_nil] at hatoms
    exact absurd ⟨_, tokenize_of_written hatoms⟩ hnot
  | dangling =>
    have hlength : totalWidth atoms + 1 = expression.length := by
      rw [← String.length_toList, hatoms]
      simp
    have hbad : IsBadEscape [escapeCharacter] 0 := ⟨rfl, by simp⟩
    refine ⟨?_, Or.inl ⟨hlength, ?_⟩⟩
    · rw [hatoms]
      exact isLeast_isBadEscape_written_append hbad
    · rw [tokenize_of_dangling hatoms, ExpressionError.atEndOfLine, ← hlength]
      simp
  | @invalid c rest hc =>
    have hbad : IsBadEscape (escapeCharacter :: c :: rest) 0 := ⟨rfl, by simp [hc]⟩
    refine ⟨?_, Or.inr ⟨c, _, ?_, tokenize_of_invalid hatoms hc⟩⟩
    · rw [hatoms]
      exact isLeast_isBadEscape_written_append hbad
    · rw [hatoms, ← length_written, List.getElem?_append_right (Nat.le_add_right _ _),
        Nat.add_sub_cancel_left]
      rfl

/-- The first two escape characters are a pair, so the third one is the first bad escape. -/
theorem isLeast_isBadEscape_of_pair :
    IsLeast {p | IsBadEscape "(\\\\\\a".toList p} 3 := by
  have herror : tokenize "(\\\\\\a" = .error ⟨"(\\\\\\a", 3, .cannotEscape "a"⟩ := by
    decide +kernel
  have hnot : ¬ ∃ tokens, tokenize "(\\\\\\a" = .ok tokens := by
    rintro ⟨tokens, htokens⟩
    cases herror.symm.trans htokens
  obtain ⟨p, hleast, ⟨-, hend⟩ | ⟨c, index, hc, hchar⟩⟩ :=
    (tokenize_accepts_or_reports_first "(\\\\\\a").2 hnot
  · cases herror.symm.trans hend
  · have hsingleton : String.singleton 'a' = String.singleton c := by
      injection herror.symm.trans hchar with h
      injection h with _ _ hproblem
      exact Problem.cannotEscape.inj hproblem
    obtain rfl : 'a' = c := by simpa using congrArg String.toList hsingleton
    match p, hc with
    | 3, _ => exact hleast

end CucumberExpressions
