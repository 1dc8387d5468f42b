import CucumberExpressions.Text.Quoted

/-!
# Errors in expressions

What can be wrong with an expression, and how it is reported: the column, the expression with a
caret under the place, the problem and a way to solve it.

## Main definitions

* `Problem` — what is wrong
* `ExpressionError` — a problem at a place of an expression
* `ExpressionError.message` — the problem in one line
* `ExpressionError.report` — the full report
-/

namespace CucumberExpressions

/-- What is wrong with an expression: it is invalid for no stated reason, or an escape character
stands before something that needs no escape, or at the end. -/
inductive Problem
  | invalid
  | cannotEscape (character : String)
  | escapedEndOfLine
  deriving DecidableEq, Repr

namespace Problem

/-- The problem in words. -/
def description : Problem → String
  | invalid => "This Cucumber Expression is invalid"
  | cannotEscape _ =>
    "Only the characters '\x7b', '\x7d', '(', ')', '\\', '/' and whitespace can be escaped"
  | escapedEndOfLine => "The end of line can not be escaped"

/-- A way to solve the problem. -/
def solution : Problem → String
  | invalid => ""
  | cannotEscape _ => "If you did mean to use an '\\' you can use '\\\\' to escape it"
  | escapedEndOfLine => "You can use '\\\\' to escape the '\\'"

/-- The problem in one line. A character that is to blame is named, and stands there as `shown`. -/
def summary (problem : Problem) (shown : String) : String :=
  match problem with
  | cannotEscape _ => "cannot escape " ++ shown ++ ": " ++ problem.description
  | problem => problem.description

end Problem

/-- A problem at a place of an expression. The place is given by its offset. -/
structure ExpressionError where
  expression : String
  index : Int
  problem : Problem
  deriving DecidableEq, Repr

namespace ExpressionError

/-- The error of an expression whose last character is an escape character without a meaning. It
points at that character. -/
def atEndOfLine (expression : String) : ExpressionError :=
  ⟨expression, (expression.length : Int) - 1, .escapedEndOfLine⟩

/-- The place, counted from 1. -/
def column (error : ExpressionError) : Int := error.index + 1

/-- The problem in one line; where a character is to blame, it is named. -/
def message (error : ExpressionError) : String :=
  match error.problem with
  | .cannotEscape character => error.problem.summary (Text.quoted character)
  | problem => problem.description

/-- The full report: the column, the expression, a caret under the place, the problem and its
solution. -/
def report (error : ExpressionError) : String :=
  "This Cucumber Expression has a problem at column " ++ toString error.column ++ ":\n\n" ++
    error.expression ++ "\n" ++
    "".pushn ' ' error.index.toNat ++ "^\n" ++
    error.problem.description ++ ".\n" ++
    error.problem.solution

end ExpressionError

end CucumberExpressions
