/-!
# Options

What a run of the program is asked to do.

## Main definitions

* `Format` — the two formats of a report
* `Options` — the expressions and how to report on them
-/

namespace CucumberExpressions

/-- The formats of a report. -/
inductive Format
  | text | json
  deriving DecidableEq, Repr

namespace Format

/-- The name of a format. -/
def name : Format → String
  | text => "text"
  | json => "json"

/-- The format with a given name. -/
def ofName? (name : String) : Option Format :=
  [text, json].find? fun format => format.name = name

end Format

/-- What a run of the program is asked to do: which expressions to read, in which format to report
on them (text if there is none), whether to show the sentinels, and whether to show the log. -/
structure Options where
  expressions : List String
  format : Option Format
  sentinels : Bool
  verbose : Bool
  deriving DecidableEq, Repr

end CucumberExpressions
