import CucumberExpressions.Proofs.Kind
import Mathlib.Algebra.Ring.Nat
import Mathlib.Data.List.Basic

/-!
# Atoms of an expression

An expression is read from left to right in atoms. An atom is a character that stands for itself, or
a special character together with the escape character before it. The reading goes on to the end of
the expression, unless it meets an escape character that has nothing to escape.

## Main definitions

* `Atom` — a character of an expression, as it is written there
* `Atom.written` — the text that a list of atoms is written as
* `Atom.read` — the atoms at the front of a text, and the text after them
* `Atom.Stops` — the texts at whose front there is no atom

## Main results

* `Atom.written_read` — what has been read was written there
* `Atom.read_written_append` — reading a written list of atoms gives this list
* `Atom.stops_read` — the reading goes on as long as there are atoms
-/

namespace CucumberExpressions

/-- A character of an expression, as it is written there: it stands for itself, or it is special and
an escape character stands before it. -/
inductive Atom
  | plain (c : Char) (ne_escape : c ≠ escapeCharacter)
  | escaped (c : Char) (special : isSpecial c = true)
  deriving DecidableEq

namespace Atom

/-- The character, without the escape character. -/
def char : Atom → Char
  | plain c _ | escaped c _ => c

/-- Whether there is an escape character before the character. -/
def isEscaped : Atom → Bool
  | plain .. => false
  | escaped .. => true

/-- The kind of token that the character belongs to: an escaped character is text. -/
def kind : Atom → Kind
  | plain c _ => Kind.ofChar c
  | escaped .. => .text

/-- The number of characters of the expression. -/
def width : Atom → Nat
  | plain .. => 1
  | escaped .. => 2

/-- The characters of the expression. -/
def source : Atom → List Char
  | plain c _ => [c]
  | escaped c _ => [escapeCharacter, c]

theorem length_source (a : Atom) : a.source.length = a.width := by
  cases a <;> rfl

/-- An atom is one character wide, and one more if it is escaped. -/
theorem width_eq (a : Atom) : a.width = 1 + a.isEscaped.toNat := by
  cases a <;> rfl

theorem toNat_isEscaped (a : Atom) : a.isEscaped.toNat = if a.isEscaped = true then 1 else 0 := by
  cases a <;> rfl

/-- The kinds of the sentinels are not those of any character. -/
theorem isSentinel_kind (a : Atom) : a.kind.isSentinel = false := by
  cases a with
  | plain c _ => exact Kind.isSentinel_ofChar c
  | escaped => rfl

theorem isEscaped_eq_false_of_kind_ne_text {a : Atom} (h : a.kind ≠ .text) :
    a.isEscaped = false := by
  cases a with
  | plain => rfl
  | escaped => exact absurd rfl h

/-- A character of a text is escaped exactly if it is special. -/
theorem isEscaped_eq_isSpecial_of_kind_eq_text {a : Atom} (h : a.kind = .text) :
    a.isEscaped = isSpecial a.char := by
  cases a with
  | plain c hne => exact ((Kind.ofChar_eq_text_iff hne).mp h).symm
  | escaped c hspecial => exact hspecial.symm

/-! ### Characters of a kind -/

/-- An atom is text, blank, or the symbol of its kind. -/
theorem kind_cases (a : Atom) :
    a.kind = .text ∨ a.kind = .whiteSpace ∧ Text.isBlank a.char = true ∨
      a.kind.symbol? = some a.char := by
  cases a with
  | plain c _ =>
    rcases Kind.ofChar_cases c with ⟨hblank, hkind⟩ | ⟨-, hsymbol⟩ | ⟨-, -, hkind⟩
    · exact Or.inr (Or.inl ⟨hkind, hblank⟩)
    · exact Or.inr (Or.inr hsymbol)
    · exact Or.inl hkind
  | escaped => exact Or.inl rfl

/-- Only blank characters are white space. -/
theorem isBlank_char_of_kind_eq_whiteSpace {a : Atom} (h : a.kind = .whiteSpace) :
    Text.isBlank a.char = true := by
  rcases a.kind_cases with hkind | ⟨-, hblank⟩ | hsymbol
  · cases h.symm.trans hkind
  · exact hblank
  · rw [h] at hsymbol
    cases hsymbol

/-- Every character can stand in a text, if need be with an escape character before it. -/
theorem exists_text (c : Char) : ∃ a : Atom, a.char = c ∧ a.kind = .text := by
  by_cases hspecial : isSpecial c = true
  · exact ⟨escaped c hspecial, rfl, rfl⟩
  · -- The escape character is special itself, so this one is not it and can stand for itself.
    have hne : c ≠ escapeCharacter := by
      rintro rfl
      exact hspecial (by decide)
    exact ⟨plain c hne, rfl, (Kind.ofChar_eq_text_iff hne).mpr (by simpa using hspecial)⟩

theorem exists_whiteSpace {c : Char} (h : Text.isBlank c = true) :
    ∃ a : Atom, a.char = c ∧ a.kind = .whiteSpace := by
  have hne : c ≠ escapeCharacter := by
    rintro rfl
    exact absurd h (by decide)
  exact ⟨plain c hne, rfl, Kind.ofChar_eq_whiteSpace_iff.mpr h⟩

theorem exists_of_symbol?_eq_some {kind : Kind} {c : Char} (h : kind.symbol? = some c) :
    ∃ a : Atom, a.char = c ∧ a.kind = kind :=
  ⟨plain c (Kind.exists_symbol?_eq_some_iff.mp ⟨kind, h⟩).2, rfl,
    (Kind.ofChar_eq_iff_of_symbol?_eq_some h).mpr rfl⟩

/-! ### Lists of atoms -/

variable {atoms : List Atom} {cs : List Char}

/-- The text that a list of atoms is written as. -/
def written (atoms : List Atom) : List Char := atoms.flatMap source

/-- The number of characters that a list of atoms is written with. -/
def totalWidth (atoms : List Atom) : Nat := (atoms.map width).sum

@[simp] theorem written_nil : written [] = [] := rfl

@[simp] theorem written_cons (a : Atom) (atoms : List Atom) :
    written (a :: atoms) = a.source ++ written atoms := rfl

@[simp] theorem written_append (atoms atoms' : List Atom) :
    written (atoms ++ atoms') = written atoms ++ written atoms' :=
  List.flatMap_append

@[simp] theorem totalWidth_nil : totalWidth [] = 0 := rfl

@[simp] theorem totalWidth_cons (a : Atom) (atoms : List Atom) :
    totalWidth (a :: atoms) = a.width + totalWidth atoms := by
  simp [totalWidth]

@[simp] theorem totalWidth_append (atoms atoms' : List Atom) :
    totalWidth (atoms ++ atoms') = totalWidth atoms + totalWidth atoms' := by
  simp [totalWidth]

@[simp] theorem length_written (atoms : List Atom) :
    (written atoms).length = totalWidth atoms := by
  induction atoms with
  | nil => rfl
  | cons a atoms ih => simp [length_source, ih]

theorem written_flatten (runs : List (List Atom)) :
    written runs.flatten = runs.flatMap written := by
  induction runs with
  | nil => rfl
  | cons run runs ih => rw [List.flatten_cons, written_append, ih, List.flatMap_cons]

theorem totalWidth_flatten (runs : List (List Atom)) :
    totalWidth runs.flatten = (runs.map totalWidth).sum := by
  induction runs with
  | nil => rfl
  | cons run runs ih => rw [List.flatten_cons, totalWidth_append, ih, List.map_cons, List.sum_cons]

/-- Atoms are as wide as there are characters, and escape characters before them. -/
theorem totalWidth_eq (atoms : List Atom) :
    totalWidth atoms = atoms.length + atoms.countP isEscaped := by
  induction atoms with
  | nil => rfl
  | cons a atoms ih =>
    rw [totalWidth_cons, ih, width_eq, List.length_cons, List.countP_cons]
    cases a.isEscaped <;> simp <;> omega

/-! ### Reading -/

/-- The atoms at the front of a text, and the text after them. -/
def read : List Char → List Atom × List Char
  | [] => ([], [])
  | c :: rest =>
    if hc : c = escapeCharacter then
      match rest with
      | [] => ([], [c])
      | d :: rest' =>
        if hd : isSpecial d then
          (escaped d hd :: (read rest').1, (read rest').2)
        else
          ([], c :: d :: rest')
    else
      (plain c hc :: (read rest).1, (read rest).2)

/-- The texts at whose front there is no atom: nothing is left, or the escape character is the last
one, or it stands before a character that is not special. -/
inductive Stops : List Char → Prop
  | finished : Stops []
  | dangling : Stops [escapeCharacter]
  | invalid {c : Char} (rest : List Char) (h : isSpecial c = false) :
    Stops (escapeCharacter :: c :: rest)

/-- Nothing is lost when atoms are read off a text. -/
theorem written_read (cs : List Char) : written (read cs).1 ++ (read cs).2 = cs := by
  fun_induction read cs with
  | case1 => rfl
  | case2 => rfl
  | case3 d rest hd ih => simpa [source] using ih
  | case4 d rest hd => rfl
  | case5 c rest hc ih => simpa [source] using ih

/-- The reading goes on as long as there are atoms. -/
theorem stops_read (cs : List Char) : Stops (read cs).2 := by
  fun_induction read cs with
  | case1 => exact .finished
  | case2 => exact .dangling
  | case3 d rest hd ih => exact ih
  | case4 d rest hd => exact .invalid rest (by simpa using hd)
  | case5 c rest hc ih => exact ih

/-- Every text is a written list of atoms, with a text after it at whose front there is no atom. -/
theorem exists_written_append (cs : List Char) :
    ∃ atoms rest, cs = written atoms ++ rest ∧ Stops rest :=
  ⟨(read cs).1, (read cs).2, (written_read cs).symm, stops_read cs⟩

/-- An atom at the front of a text is read first. -/
theorem read_source_append (a : Atom) (cs : List Char) :
    read (a.source ++ cs) = (a :: (read cs).1, (read cs).2) := by
  cases a with
  | plain c hc =>
    rw [source, List.singleton_append, read.eq_def]
    simp [hc]
  | escaped c hc => simp [source, read, hc]

/-- Reading a written list of atoms gives this list. -/
theorem read_written_append (atoms : List Atom) (cs : List Char) :
    read (written atoms ++ cs) = (atoms ++ (read cs).1, (read cs).2) := by
  induction atoms with
  | nil => rfl
  | cons a atoms ih =>
    rw [written_cons, List.append_assoc, read_source_append, ih]
    rfl

/-- Atoms that are written are read back. -/
theorem read_written (atoms : List Atom) : read (written atoms) = (atoms, []) := by
  simpa [read] using read_written_append atoms []

end Atom

end CucumberExpressions
