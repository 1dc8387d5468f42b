import CucumberExpressions.Token
import Mathlib.Tactic.Basic

/-!
# Which characters have a meaning of their own

Blank characters separate words, five reserved characters structure an expression, and the escape
character takes the meaning from the one after it. All of them are special, and exactly the special
characters can be escaped. A character that is not special is text wherever it stands.

## Main definitions

* `reservedCharacters` — the six reserved characters
* `isSpecial` — whether a character is blank or reserved
* `Kind.merges` — whether neighbouring tokens of given kinds would be one token

## Main results

* `isEscapable_eq_isSpecial` — exactly the special characters can be escaped
* `Kind.ofChar_cases` — an unescaped character is blank, the symbol of its kind, or text
* `Kind.ofChar_eq_text_iff` — apart from the escape character, text is what is not special
-/

namespace CucumberExpressions

/-- The characters that structure an expression, and the escape character. -/
def reservedCharacters : List Char := ['\\', '/', '\x7b', '\x7d', '(', ')']

/-- Whether `c` has a meaning of its own: it is blank or reserved. -/
def isSpecial (c : Char) : Bool := Text.isBlank c || reservedCharacters.contains c

namespace Kind

/-- Whether neighbouring tokens of these kinds would be one token: only texts and blanks run on. -/
def merges (kind kind' : Kind) : Bool := kind = kind' && kind.isRun

variable {kind kind' : Kind} {c d : Char}

theorem mem_all (kind : Kind) : kind ∈ all := by
  cases kind <;> decide

/-- Kinds are told apart by their names. -/
theorem name_injective : Function.Injective name := by
  intro first second h
  cases first <;> cases second <;> first | rfl | exact absurd h (by decide)

/-- Neighbouring tokens stay apart unless both are text or both are blank. -/
theorem merges_eq_false_iff :
    kind.merges kind' = false ↔
      ¬ (kind = text ∧ kind' = text) ∧ ¬ (kind = whiteSpace ∧ kind' = whiteSpace) := by
  cases kind <;> cases kind' <;> decide

/-- Only tokens of one kind run on. -/
theorem eq_of_merges (h : kind.merges kind' = true) : kind = kind' := by
  rw [merges, Bool.and_eq_true, decide_eq_true_eq] at h
  exact h.1

theorem isRun_of_merges (h : kind.merges kind' = true) : kind.isRun = true := by
  rw [merges, Bool.and_eq_true] at h
  exact h.2

theorem isSentinel_of_symbol?_eq_some (h : kind.symbol? = some c) : kind.isSentinel = false := by
  cases kind <;> first | rfl | cases h

theorem isRun_of_symbol?_eq_some (h : kind.symbol? = some c) : kind.isRun = false := by
  cases kind <;> first | rfl | cases h

theorem isBlank_of_symbol?_eq_some (h : kind.symbol? = some c) : Text.isBlank c = false := by
  cases kind <;> cases h <;> decide

/-- Kinds are told apart by their symbols. -/
theorem symbol?_injective (h : kind.symbol? = some c) (h' : kind'.symbol? = some c) :
    kind = kind' := by
  cases kind <;> cases h <;> cases kind' <;> first | rfl | cases h'

/-- The structural characters are the reserved ones without the escape character. -/
theorem exists_symbol?_eq_some_iff :
    (∃ kind : Kind, kind.symbol? = some c) ↔
      c ∈ reservedCharacters ∧ c ≠ escapeCharacter := by
  constructor
  · rintro ⟨kind, h⟩
    cases kind <;> cases h <;> decide
  · rintro ⟨hmem, hne⟩
    simp only [reservedCharacters, List.mem_cons, List.not_mem_nil, or_false] at hmem
    rcases hmem with rfl | rfl | rfl | rfl | rfl | rfl
    · exact absurd rfl hne
    · exact ⟨alternation, rfl⟩
    · exact ⟨beginParameter, rfl⟩
    · exact ⟨endParameter, rfl⟩
    · exact ⟨beginOptional, rfl⟩
    · exact ⟨endOptional, rfl⟩

/-- An unescaped character is blank, the symbol of its kind, or text. -/
theorem ofChar_cases (c : Char) :
    Text.isBlank c = true ∧ ofChar c = whiteSpace ∨
      Text.isBlank c = false ∧ (ofChar c).symbol? = some c ∨
        Text.isBlank c = false ∧ (∀ kind : Kind, kind.symbol? ≠ some c) ∧ ofChar c = text := by
  unfold ofChar
  split
  case isTrue hblank => exact Or.inl ⟨hblank, rfl⟩
  case isFalse hblank =>
    have hblank' : Text.isBlank c = false := by simpa using hblank
    cases hfind : all.find? fun kind => kind.symbol? = some c with
    | none =>
      refine Or.inr (Or.inr ⟨hblank', ?_, rfl⟩)
      intro kind
      simpa using List.find?_eq_none.mp hfind kind kind.mem_all
    | some kind =>
      have hsymbol : kind.symbol? = some c := by simpa using List.find?_some hfind
      exact Or.inr (Or.inl ⟨hblank', hsymbol⟩)

/-- No character is a sentinel. -/
theorem isSentinel_ofChar (c : Char) : (ofChar c).isSentinel = false := by
  rcases ofChar_cases c with ⟨-, h⟩ | ⟨-, h⟩ | ⟨-, -, h⟩
  · rw [h]; rfl
  · exact isSentinel_of_symbol?_eq_some h
  · rw [h]; rfl

/-- The blank characters are white space. -/
theorem ofChar_eq_whiteSpace_iff : ofChar c = whiteSpace ↔ Text.isBlank c = true := by
  rcases ofChar_cases c with ⟨hblank, h⟩ | ⟨hblank, h⟩ | ⟨hblank, -, h⟩
  · simp [hblank, h]
  · have hne : ofChar c ≠ whiteSpace := by
      intro heq
      rw [heq] at h
      cases h
    simp [hblank, hne]
  · simp [hblank, h]

/-- A symbol is the only character of its kind. -/
theorem ofChar_eq_iff_of_symbol?_eq_some (h : kind.symbol? = some d) :
    ofChar c = kind ↔ c = d := by
  constructor
  · rintro rfl
    rcases ofChar_cases c with ⟨-, hkind⟩ | ⟨-, hsymbol⟩ | ⟨-, -, hkind⟩
    · rw [hkind] at h
      cases h
    · exact Option.some_inj.mp (hsymbol.symm.trans h)
    · rw [hkind] at h
      cases h
  · rintro rfl
    rcases ofChar_cases c with ⟨hblank, -⟩ | ⟨-, hsymbol⟩ | ⟨-, hnone, -⟩
    · rw [isBlank_of_symbol?_eq_some h] at hblank
      cases hblank
    · exact symbol?_injective hsymbol h
    · exact absurd h (hnone kind)

/-- Apart from the escape character, text is what is not special. -/
theorem ofChar_eq_text_iff (hne : c ≠ escapeCharacter) :
    ofChar c = text ↔ isSpecial c = false := by
  rcases ofChar_cases c with ⟨hblank, h⟩ | ⟨hblank, h⟩ | ⟨hblank, hnone, h⟩
  · simp [isSpecial, hblank, h]
  · have hmem := (exists_symbol?_eq_some_iff.mp ⟨_, h⟩).1
    have hkind : ofChar c ≠ text := by
      intro heq
      rw [heq] at h
      cases h
    simp [isSpecial, hmem, hkind]
  · have hmem : c ∉ reservedCharacters := fun hmem =>
      let ⟨kind, hkind⟩ := exists_symbol?_eq_some_iff.mpr ⟨hmem, hne⟩
      hnone kind hkind
    simp [isSpecial, hblank, hmem, h]

end Kind

/-- Exactly the special characters can be escaped. -/
theorem isEscapable_eq_isSpecial (c : Char) : isEscapable c = isSpecial c := by
  have hany : Kind.all.any (fun kind => kind.symbol? = some c) = true ↔
      c ∈ reservedCharacters ∧ c ≠ escapeCharacter := by
    rw [← Kind.exists_symbol?_eq_some_iff, List.any_eq_true]
    simp [Kind.mem_all]
  -- The escape character has no kind of its own, so it is the only reserved one left out there.
  have hescape : escapeCharacter ∈ reservedCharacters := by decide
  rw [Bool.eq_iff_iff, isEscapable, isSpecial, Bool.or_eq_true, Bool.or_eq_true, Bool.or_eq_true,
    hany, decide_eq_true_iff, List.contains_iff_mem, or_assoc]
  by_cases hc : c = escapeCharacter
  · simp [hc, hescape]
  · simp [hc]

end CucumberExpressions
