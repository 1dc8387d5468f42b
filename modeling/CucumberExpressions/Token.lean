import CucumberExpressions.Text.Blank

/-!
# Tokens of an expression

An expression such as `I have {int} cucumber(s)` is read as a sequence of tokens. Runs of plain
text and runs of blank characters make one token each, every reserved character makes a token of
its own, and two empty sentinels mark the start and the end of the line. A backslash takes the
meaning from the reserved or blank character after it, which then counts as text.

## Main definitions

* `Kind` — the nine kinds of tokens
* `Kind.ofChar` — the kind of an unescaped character
* `isEscapable` — the characters that may follow a backslash
* `Kind.splits` — whether a token ends between two neighbouring characters of given kinds
* `Token` — a kind, a text and the stretch of the expression it was read from
-/

namespace CucumberExpressions

/-- The kinds of tokens. -/
inductive Kind
  | startOfLine | endOfLine
  | whiteSpace | text
  | beginOptional | endOptional | beginParameter | endParameter | alternation
  deriving DecidableEq, Repr

namespace Kind

/-- All kinds, in their fixed order. -/
def all : List Kind :=
  [startOfLine, endOfLine, whiteSpace, text, beginOptional, endOptional, beginParameter,
    endParameter, alternation]

/-- The name of a kind in dumps and reports. -/
def name : Kind → String
  | startOfLine => "START_OF_LINE"
  | endOfLine => "END_OF_LINE"
  | whiteSpace => "WHITE_SPACE"
  | text => "TEXT"
  | beginOptional => "BEGIN_OPTIONAL"
  | endOptional => "END_OPTIONAL"
  | beginParameter => "BEGIN_PARAMETER"
  | endParameter => "END_PARAMETER"
  | alternation => "ALTERNATION"

/-- The kind with a given name. -/
def ofName? (name : String) : Option Kind := all.find? fun kind => kind.name = name

/-- The place of a kind in the fixed order, from 1 on. -/
def ordinal : Kind → Nat
  | startOfLine => 1
  | endOfLine => 2
  | whiteSpace => 3
  | text => 4
  | beginOptional => 5
  | endOptional => 6
  | beginParameter => 7
  | endParameter => 8
  | alternation => 9

/-- The reserved character of a structural kind. -/
def symbol? : Kind → Option Char
  | beginOptional => some '('
  | endOptional => some ')'
  | beginParameter => some '\x7b'
  | endParameter => some '\x7d'
  | alternation => some '/'
  | _ => none

/-- What a structural kind is used for. -/
def purpose? : Kind → Option String
  | beginOptional | endOptional => some "optional text"
  | beginParameter | endParameter => some "a parameter"
  | alternation => some "alternation"
  | _ => none

/-- Whether a kind marks an end of the line. -/
def isSentinel : Kind → Bool
  | startOfLine | endOfLine => true
  | _ => false

/-- Whether a token of this kind may have several characters. -/
def isRun : Kind → Bool
  | whiteSpace | text => true
  | _ => false

/-- The kind of an unescaped character. -/
def ofChar (c : Char) : Kind :=
  if Text.isBlank c then whiteSpace
  else (all.find? fun kind => kind.symbol? = some c).getD text

/-- Whether a token ends between a character of kind `previous` and one of kind `current`: only
two blank or two text characters belong to one token. The start of the line holds no character,
so nothing ends there. -/
def splits (previous current : Kind) : Bool :=
  previous ≠ startOfLine && (current ≠ previous || !current.isRun)

end Kind

/-- The character that takes the meaning from the one after it. -/
def escapeCharacter : Char := '\\'

/-- Whether `c` may follow the escape character: it is blank, reserved, or the escape character. -/
def isEscapable (c : Char) : Bool :=
  Text.isBlank c || c = escapeCharacter || Kind.all.any fun kind => kind.symbol? = some c

/-- The kind of a whole text: that of its character if there is only one, white space if all are
blank, and text otherwise. -/
def Kind.ofText (text : List Char) : Kind :=
  match text with
  | [c] => Kind.ofChar c
  | _ => if Text.isBlankText text then .whiteSpace else .text

/-- Whether a whole text may follow the escape character. -/
def isEscapableText (text : List Char) : Bool :=
  match text with
  | [c] => isEscapable c
  | _ => Text.isBlankText text

/-- A token. Its stretch of the expression can be longer than its text, because the stretch of a
text token includes the escape characters that were dropped from the text. It is given by the
offsets of its first character and after its last one. -/
structure Token where
  kind : Kind
  text : String
  start : Int
  stop : Int
  deriving DecidableEq, Repr

end CucumberExpressions
