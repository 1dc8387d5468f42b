import CucumberExpressions.Text.Utf16
import Mathlib.Tactic.Basic

/-!
# UTF-16 code units and columns

What the columns of a line count: the code units of the characters before an offset. Columns tell
all offsets of a line apart, and the code units between the columns of two neighbouring offsets are
those of the character between them.

## Main definitions

* `Text.codeUnits`, `Text.utf16` — the UTF-16 code units of a character and of a text

## Main results

* `Text.length_utf16` — a text has as many code units as its length in UTF-16 says
* `Text.utf16Column_inj` — the columns of a line tell its offsets apart
* `Text.codeUnits_between` — the code units of one character are between its two columns
-/

namespace CucumberExpressions.Text

variable {c : Char} {text : List Char} {i j : Nat}

/-- The UTF-16 code units of a character: its code point, or, for a code point above U+FFFF, two
surrogates that hold the upper and the lower ten bits of what it exceeds U+FFFF by. -/
def codeUnits (c : Char) : List UInt16 :=
  if c.toNat < 0x10000 then
    [.ofNat c.toNat]
  else
    [.ofNat (0xD800 + (c.toNat - 0x10000) / 0x400), .ofNat (0xDC00 + (c.toNat - 0x10000) % 0x400)]

example : codeUnits '🥒' = [0xD83E, 0xDD52] := by decide

/-- The UTF-16 code units of a text. -/
def utf16 (text : List Char) : List UInt16 := text.flatMap codeUnits

theorem length_codeUnits (c : Char) : (codeUnits c).length = utf16Units c := by
  rw [codeUnits, utf16Units]
  split <;> rfl

/-- The characters above U+FFFF have two code units. -/
theorem length_codeUnits_eq_two_iff : (codeUnits c).length = 2 ↔ 0xFFFF < c.toNat := by
  rw [length_codeUnits, utf16Units]
  split <;> omega

theorem utf16_append (a b : List Char) : utf16 (a ++ b) = utf16 a ++ utf16 b :=
  List.flatMap_append

theorem utf16_cons (c : Char) (text : List Char) : utf16 (c :: text) = codeUnits c ++ utf16 text :=
  List.flatMap_cons

/-- A text has as many code units as its length in UTF-16 says. -/
theorem length_utf16 (text : List Char) : (utf16 text).length = utf16Length text := by
  induction text with
  | nil => rfl
  | cons c text ih =>
    rw [utf16_cons, List.length_append, length_codeUnits, ih]
    rfl

/-- The lengths of two texts add up. -/
theorem utf16Length_append (a b : List Char) :
    utf16Length (a ++ b) = utf16Length a + utf16Length b := by
  simp only [← length_utf16, utf16_append, List.length_append]

theorem utf16Units_pos (c : Char) : 0 < utf16Units c := by
  rw [utf16Units]
  split <;> decide

/-! ### Columns -/

/-- The column of an offset is the length of what stands before it. -/
theorem utf16Column_natCast (text : List Char) (i : Nat) :
    utf16Column text i = utf16Length (text.take i) := by
  rw [utf16Column, takeInt, if_pos (Int.natCast_nonneg i), Int.toNat_natCast]

theorem utf16Column_le (text : List Char) (i : Nat) : utf16Column text i ≤ utf16Length text := by
  have h := utf16Length_append (text.take i) (text.drop i)
  rw [List.take_append_drop] at h
  rw [utf16Column_natCast]
  omega

/-- A character takes the columns from the one before it to the one after it. -/
theorem utf16Column_succ (h : text[i]? = some c) :
    utf16Column text ((i + 1 : Nat) : Int) = utf16Column text i + utf16Units c := by
  rw [utf16Column_natCast, utf16Column_natCast, List.take_add_one, h, utf16Length_append]
  rfl

/-- Columns do not fall along a line. -/
theorem utf16Column_mono (text : List Char) (h : i ≤ j) :
    utf16Column text i ≤ utf16Column text j := by
  have hle := utf16Column_le (text.take j) i
  rwa [utf16Column_natCast, List.take_take, Nat.min_eq_left h, ← utf16Column_natCast,
    ← utf16Column_natCast] at hle

/-- Columns rise from each offset to the next one. -/
theorem utf16Column_lt (h : i < j) (hj : j ≤ text.length) :
    utf16Column text i < utf16Column text j := by
  have hi := List.getElem?_eq_getElem (Nat.lt_of_lt_of_le h hj)
  calc utf16Column text i
      < utf16Column text i + utf16Units text[i] := Nat.lt_add_of_pos_right (utf16Units_pos _)
    _ = utf16Column text ((i + 1 : Nat) : Int) := (utf16Column_succ hi).symm
    _ ≤ utf16Column text j := utf16Column_mono text h

/-- The columns of a line tell its offsets apart. -/
theorem utf16Column_inj (hi : i ≤ text.length) (hj : j ≤ text.length)
    (h : utf16Column text i = utf16Column text j) : i = j := by
  rcases Nat.lt_trichotomy i j with hlt | heq | hlt
  · exact absurd h (Nat.ne_of_lt (utf16Column_lt hlt hj))
  · exact heq
  · exact absurd h.symm (Nat.ne_of_lt (utf16Column_lt hlt hi))

/-- As many code units as the column of an offset says are those of what stands before it. -/
theorem take_utf16Column (text : List Char) (i : Nat) :
    (utf16 text).take (utf16Column text i) = utf16 (text.take i) := by
  have h := utf16_append (text.take i) (text.drop i)
  rw [List.take_append_drop] at h
  rw [h, utf16Column_natCast, ← length_utf16, List.take_left]

/-- The code units of one character are between its two columns. -/
theorem codeUnits_between (h : text[i]? = some c) :
    ((utf16 text).take (utf16Column text ((i + 1 : Nat) : Int))).drop (utf16Column text i) =
      codeUnits c := by
  rw [take_utf16Column, List.take_add_one, h, utf16_append, utf16Column_natCast, ← length_utf16,
    List.drop_left, Option.toList_some, utf16_cons]
  exact List.append_nil _

end CucumberExpressions.Text
