import CucumberExpressions.Json
import CucumberExpressions.Options
import CucumberExpressions.Scanner
import CucumberExpressions.Token.Dump

/-!
# Reports

A report goes through a list of expressions and says of each one which tokens it has or what is
wrong with it. In the text format the tokens go to the output and the errors to the error output;
in the JSON format everything goes to the output as one document. Before each expression a line is
logged, whoever may look at the log.

## Main definitions

* `Record` — the result for one expression
* `Message` — what a run tells beside its output
* `Report` — what a run writes and tells, and its status
* `Options.step` — the report after one more expression
* `Options.report` — the report that the options ask for
-/

namespace CucumberExpressions

/-- The result for one expression: the tokens to show, or what is wrong. -/
inductive Record
  | accepted (expression : String) (tokens : List Token)
  | failed (error : ExpressionError)
  deriving DecidableEq, Repr

namespace Record

/-- The result for `expression`, with or without the sentinels. -/
def ofExpression (sentinels : Bool) (expression : String) : Record :=
  match tokenize expression with
  | .ok tokens => .accepted expression (Token.visible sentinels tokens)
  | .error error => .failed error

/-- Whether the expression is wrong. -/
def isFailed : Record → Bool
  | .accepted _ _ => false
  | .failed _ => true

end Record

/-- A token as a JSON record. -/
def Token.toJson (token : Token) : Json :=
  .object [("type", .string token.kind.name), ("text", .string token.text),
    ("start", .number token.start), ("end", .number token.stop)]

/-- A result as a JSON record. -/
def Record.toJson : Record → Json
  | .accepted expression tokens =>
    .object [("expression", .string expression), ("tokens", .array (tokens.map Token.toJson))]
  | .failed error =>
    .object [("expression", .string error.expression), ("error", .string error.message),
      ("index", .number error.index)]

/-- What a run tells beside its output: that it goes on to an expression, which is for the log, and
what is wrong with one. -/
inductive Message
  | logged (expression : String)
  | error (error : ExpressionError)
  deriving DecidableEq, Repr

namespace Message

/-- Whether a message is about an error. -/
def isError : Message → Bool
  | logged _ => false
  | error _ => true

/-- The text of a message. -/
def text : Message → String
  | logged expression => "DEBUG:cukexp.cli:tokenizing " ++ Text.quoted expression ++ "\n"
  | error cause => cause.report ++ "\n"

end Message

/-- What a run writes and tells. Its status is 1 if an expression is wrong, and 0 otherwise. -/
structure Report where
  status : Nat
  output : String
  messages : List Message
  deriving DecidableEq, Repr

namespace Report

/-- What a run writes to the error output. -/
def errorOutput (report : Report) : String :=
  String.join ((report.messages.filter Message.isError).map Message.text)

/-- What goes to the error output if the log is shown there, too. -/
def loggedErrorOutput (report : Report) : String :=
  String.join (report.messages.map Message.text)

end Report

/-- A report in the making. The JSON format keeps its records for the end. -/
structure Progress where
  status : Nat := 0
  output : String := ""
  messages : List Message := []
  records : List Record := []
  deriving DecidableEq, Repr

/-- The report in the making after one more message. -/
def Progress.tell (progress : Progress) (message : Message) : Progress :=
  { progress with messages := progress.messages ++ [message] }

namespace Options

/-- The results for the expressions, in their order. -/
def records (options : Options) : List Record :=
  options.expressions.map (Record.ofExpression options.sentinels)

/-- The format of the report. -/
def reportFormat (options : Options) : Format := options.format.getD .text

/-- The report after one more expression. The text format writes and tells at once; the JSON format
keeps the result. -/
def step (options : Options) (progress : Progress) (expression : String) : Progress :=
  let progress := progress.tell (.logged expression)
  match tokenize expression with
  | .ok tokens =>
    let shown := Token.visible options.sentinels tokens
    match options.reportFormat with
    | .text =>
      { progress with output := progress.output ++ (expression ++ "\n" ++ Token.dump shown) }
    | .json => { progress with records := progress.records ++ [.accepted expression shown] }
  | .error error =>
    let progress := { progress with status := 1 }
    match options.reportFormat with
    | .text => progress.tell (.error error)
    | .json => { progress with records := progress.records ++ [.failed error] }

/-- The finished report. In the JSON format the results go to the output now. -/
def finish (options : Options) (progress : Progress) : Report where
  status := progress.status
  output :=
    match options.reportFormat with
    | .text => progress.output
    | .json =>
      progress.output ++ ((Json.array (progress.records.map Record.toJson)).render ++ "\n")
  messages := progress.messages

/-- The report on the expressions, which are gone through one by one. -/
def report (options : Options) : Report :=
  options.finish (options.expressions.foldl options.step {})

end Options

end CucumberExpressions
