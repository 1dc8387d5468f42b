import CucumberExpressions.Text.CodePoint

/-!
# Columns in UTF-16 code units

Editors count the columns of a line in UTF-16 code units: a character above U+FFFF takes two of
them and every other character one. There is no column behind a lone surrogate.

## Main definitions

* `Text.utf16Length` — the number of UTF-16 code units of a text
* `Text.takeInt` — the characters before a position that may also be counted from the end
* `Text.utf16Column` — the column of an offset in a line of characters
* `Text.encodedColumn` — the column of an offset in a line of code points
-/

namespace CucumberExpressions.Text

/-- The number of UTF-16 code units of one character. -/
def utf16Units (c : Char) : Nat := if c.toNat < 0x10000 then 1 else 2

/-- The number of UTF-16 code units of a text. -/
def utf16Length (text : List Char) : Nat := (text.map utf16Units).foldr (· + ·) 0

/-- What stands in `text` before position `index`. A negative position is counted from the end of
the text; positions outside the text stand for its nearer end. -/
def takeInt {α : Type} (text : List α) (index : Int) : List α :=
  if 0 ≤ index then text.take index.toNat else text.take (text.length - (-index).toNat)

/-- The column, in UTF-16 code units, of the character offset `index` of `line`. -/
def utf16Column (line : List Char) (index : Int) : Nat := utf16Length (takeInt line index)

/-- The column, in UTF-16 code units, of the offset `index` of `line`, if what stands before it can
be encoded. -/
def encodedColumn (line : List CodePoint) (index : Int) : Except LoneSurrogate Nat := do
  return utf16Length (← CodePoint.encodable (takeInt line index))

end CucumberExpressions.Text
