import CucumberExpressions.ExpressionList
import CucumberExpressions.Scanner
import CucumberExpressions.Text.Utf16

/-!
# Diagnostics of a document

An editor shows the errors of a list of expressions where they are. A diagnostic names the line,
counted from 0, and the columns, in UTF-16 code units, of the character to blame. There are no
diagnostics at all if the columns of one error cannot be told.

## Main definitions

* `Position` — a line and a column
* `Diagnostic` — a stretch of a line and what is wrong there
* `Diagnostic.ofSource` — the diagnostics of a document, one at most for each line
* `Diagnostic.ofDocument` — the diagnostics of a document without lone surrogates
-/

namespace CucumberExpressions

/-- A place in a document. Lines and columns are counted from 0, columns in UTF-16 code units. -/
structure Position where
  line : Nat
  character : Nat
  deriving DecidableEq, Repr

/-- What is wrong with a stretch of a document, how severe it is, by number (1 is an error), and who
has found it. -/
structure Diagnostic where
  start : Position
  stop : Position
  message : String
  severity : Nat := 1
  source : String := "cukexp"
  deriving DecidableEq, Repr

namespace Diagnostic

/-- What stands behind the first escape character that has nothing to escape. -/
def rejected? : List CodePoint → Option CodePoint
  | [] => none
  | [_] => none
  | c :: d :: rest =>
    if c.toChar = escapeCharacter then
      if isEscapable d.toChar then rejected? rest else some d
    else
      rejected? (d :: rest)

/-- The message of the error of a line. A surrogate is named as such, and not by the character that
takes its place. -/
def messageOf (line : List CodePoint) (error : ExpressionError) : String :=
  match rejected? line with
  | some (.surrogate n) => error.problem.summary (Text.quotedSurrogate n)
  | _ => error.message

/-- The diagnostic of the line with the given number, if it holds an expression with an error. It
covers what stands at the place of the error. -/
def ofLine (number : Nat) (line : List CodePoint) : Except LoneSurrogate (Option Diagnostic) :=
  let characters := line.map CodePoint.toChar
  if ExpressionList.isSkipped characters then
    return none
  else
    match tokenize (String.ofList characters) with
    | .ok _ => return none
    | .error error => do
      let start ← Text.encodedColumn line error.index
      let stop ← Text.encodedColumn line (error.index + 1)
      return some
        { start := ⟨number, start⟩, stop := ⟨number, stop⟩, message := messageOf line error }

/-- The diagnostics of lines that are numbered from `number` on. -/
def ofLines (number : Nat) : List (List CodePoint) → Except LoneSurrogate (List Diagnostic)
  | [] => return []
  | line :: lines => do
    let found ← ofLine number line
    return found.toList ++ (← ofLines (number + 1) lines)

/-- The diagnostics of a document, in the order of its lines. -/
def ofSource (source : List CodePoint) : Except LoneSurrogate (List Diagnostic) :=
  ofLines 0 (Text.splitLinesBy CodePoint.toChar source)

/-- The diagnostics of a document of characters. -/
def ofDocument (text : List Char) : List Diagnostic :=
  (ofSource (text.map .char)).toOption.getD []

end Diagnostic

end CucumberExpressions
