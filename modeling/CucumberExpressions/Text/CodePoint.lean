/-!
# Code points

A text that comes from outside is a sequence of code points. Most of them are characters; the
others are surrogates. Two surrogates in their order are one character above U+FFFF in UTF-16, but a
surrogate that stands alone is none, and a text with one in it cannot be encoded.

## Main definitions

* `CodePoint` — a character, or a surrogate that stands alone
* `CodePoint.toChar` — a character of the same class
* `CodePoint.encodable` — the characters of a text, if it can be encoded
-/

namespace CucumberExpressions

/-- A character, or a surrogate that stands alone. Surrogates are counted from U+D800. -/
inductive CodePoint
  | char (c : Char)
  | surrogate (n : Fin 0x800)
  deriving DecidableEq, Repr

/-- The first lone surrogate of a text, and the offset at which it stands. -/
structure LoneSurrogate where
  surrogate : Fin 0x800
  position : Nat
  deriving DecidableEq, Repr

namespace CodePoint

/-- A character of the same class. A surrogate is not blank, ends no line and has no meaning in an
expression, and so it is with the character that takes its place here. -/
def toChar : CodePoint → Char
  | char c => c
  | surrogate _ => '\ufffd'

/-- The characters of a text that can be encoded. The offsets are counted from `position` on. -/
def encodableFrom (position : Nat) : List CodePoint → Except LoneSurrogate (List Char)
  | [] => return []
  | char c :: rest => return c :: (← encodableFrom (position + 1) rest)
  | surrogate n :: _ => throw ⟨n, position⟩

/-- The characters of a text, if it can be encoded. -/
def encodable (text : List CodePoint) : Except LoneSurrogate (List Char) := encodableFrom 0 text

end CodePoint

end CucumberExpressions
