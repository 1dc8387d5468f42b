import CucumberExpressions.Text.Blank
import CucumberExpressions.Text.Line

/-!
# Lists of expressions

A text file lists expressions one on each line. Blank lines and lines whose first character that is
not blank is a number sign are skipped; every other line is an expression as it stands, with its
blank characters.

## Main definitions

* `ExpressionList.isSkipped` — whether a line is blank or a comment
* `ExpressionList.ofText` — the expressions of a document
* `ExpressionList.ofBytes?` — the expressions of a file
-/

namespace CucumberExpressions.ExpressionList

/-- Whether a line holds no expression: it is blank, or a comment. -/
def isSkipped (line : List Char) : Bool :=
  match Text.trimStart line with
  | [] => true
  | c :: _ => c = '#'

/-- The expressions among the lines of `text`, in order. -/
def ofText (text : List Char) : List String :=
  ((Text.splitLines text).filter fun line => !isSkipped line).map String.ofList

/-- The expressions of a file with the given content, if the content is text in UTF-8. The
spellings of a line break are unified first. -/
def ofBytes? (content : ByteArray) : Option (List String) :=
  (String.fromUTF8? content).map fun text => ofText (Text.unifyBreaks text.toList)

end CucumberExpressions.ExpressionList
