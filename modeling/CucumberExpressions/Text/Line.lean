/-!
# Lines of a text

A text is cut into lines at ten single characters and at the pair of a carriage return and a line
feed, which counts as one break. A break at the very end of the text opens no further line. Some
formats know fewer breaks: they first turn the spellings of a break into a line feed.

## Main definitions

* `Text.isLineBreak` — the ten characters that end a line
* `Text.splitLinesBy` — the lines of a text whose members stand for characters
* `Text.splitLines` — the lines of a text, without their breaks
* `Text.joinBreakPairs` — every carriage return and line feed pair becomes a line feed
* `Text.unifyBreaks` — also every other carriage return becomes a line feed
-/

namespace CucumberExpressions.Text

/-- The characters that end a line. -/
def lineBreaks : List Char :=
  ['\n', '\x0b', '\x0c', '\r', '\x1c', '\x1d', '\x1e', '\u0085', '\u2028', '\u2029']

/-- Whether `c` ends a line. -/
def isLineBreak (c : Char) : Bool := lineBreaks.contains c

/-- The lines of a text, without their breaks, where each member of the text stands for a character.
A break at the end opens no further line. -/
def splitLinesBy {α : Type} (char : α → Char) : List α → List (List α)
  | [] => []
  | [c] => if isLineBreak (char c) then [[]] else [[c]]
  | c :: d :: rest =>
    if char c = '\r' ∧ char d = '\n' then
      [] :: splitLinesBy char rest
    else if isLineBreak (char c) then
      [] :: splitLinesBy char (d :: rest)
    else
      match splitLinesBy char (d :: rest) with
      | [] => [[c]]
      | line :: lines => (c :: line) :: lines

/-- The lines of a text, without their breaks. -/
def splitLines (text : List Char) : List (List Char) := splitLinesBy id text

/-- Each pair of a carriage return and a line feed becomes one line feed. -/
def joinBreakPairs : List Char → List Char
  | [] => []
  | '\r' :: '\n' :: rest => '\n' :: joinBreakPairs rest
  | c :: rest => c :: joinBreakPairs rest

/-- Each carriage return becomes a line feed, and one that is followed by a line feed is dropped. -/
def unifyBreaks : List Char → List Char
  | [] => []
  | '\r' :: '\n' :: rest => '\n' :: unifyBreaks rest
  | c :: rest => (if c = '\r' then '\n' else c) :: unifyBreaks rest

end CucumberExpressions.Text
