import CucumberExpressions.Text.CodeRange

/-!
# Blank characters

The characters that separate words: the white space of Unicode together with the four information
separators U+001C to U+001F. A text is blank when it has at least one character and all of them
are blank.

## Main definitions

* `Text.isBlank` — whether a character is blank
* `Text.isBlankText` — whether a text is nonempty and has blank characters only
* `Text.trimStart` — a text from its first character that is not blank
-/

namespace CucumberExpressions.Text

/-- The code points of the blank characters, as closed ranges. -/
def blankRanges : List CodeRange :=
  [⟨0x09, 0x0D⟩, ⟨0x1C, 0x20⟩, ⟨0x85, 0x85⟩, ⟨0xA0, 0xA0⟩, ⟨0x1680, 0x1680⟩, ⟨0x2000, 0x200A⟩,
    ⟨0x2028, 0x2029⟩, ⟨0x202F, 0x202F⟩, ⟨0x205F, 0x205F⟩, ⟨0x3000, 0x3000⟩]

/-- Whether `c` is a blank character. -/
def isBlank (c : Char) : Bool := inRanges blankRanges c

/-- Whether `text` is nonempty and consists of blank characters. -/
def isBlankText (text : List Char) : Bool :=
  !text.isEmpty && text.all isBlank

/-- `text` without the blank characters at its start. -/
def trimStart (text : List Char) : List Char :=
  text.dropWhile isBlank

end CucumberExpressions.Text
