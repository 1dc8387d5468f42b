import CucumberExpressions.CommandLine.Flag
import CucumberExpressions.Text.Quoted

/-!
# Usage

The help text of the program, and what can be wrong with a command line.

## Main definitions

* `CommandLine.helpText` — the help text
* `CommandLine.UsageError` — what can be wrong with a command line
* `CommandLine.UsageError.report` — the usage lines and the error
-/

namespace CucumberExpressions.CommandLine

/-- The usage lines. -/
def usageLines : String :=
  "usage: cukexp [-h] [-f FILE] [--format \x7btext,json\x7d] [--no-sentinels]\n" ++
  "              [--config FILE] [-v]\n" ++
  "              [EXPRESSION ...]\n"

/-- The help text. -/
def helpText : String :=
  usageLines ++
  "\n" ++
  "Tokenize Cucumber Expressions\n" ++
  "\n" ++
  "positional arguments:\n" ++
  "  EXPRESSION            Expression to tokenize\n" ++
  "\n" ++
  "options:\n" ++
  "  -h, --help            show this help message and exit\n" ++
  "  -f FILE, --file FILE  Read expressions from FILE, one per line (repeatable)\n" ++
  "  --format \x7btext,json\x7d  Output format (default: text)\n" ++
  "  --no-sentinels        Omit START_OF_LINE and END_OF_LINE tokens\n" ++
  "  --config FILE         Config file (default: auto-discover cukexp.toml)\n" ++
  "  -v, --verbose         Log progress to stderr\n"

/-- What can be wrong with a command line: a word abbreviates several spellings, a flag lacks its
value, a value is attached to a flag that takes none, there is no format of a name, or some words
have no meaning. -/
inductive UsageError
  | ambiguous (word : String) (spellings : List String)
  | missingValue (parameter : Parameter)
  | unusedValue (switch : Switch) (value : String)
  | unknownFormat (name : String)
  | unrecognized (words : List String)
  deriving DecidableEq, Repr

namespace UsageError

/-- The error in words. -/
def message : UsageError → String
  | ambiguous word spellings =>
    "ambiguous option: " ++ word ++ " could match " ++ String.intercalate ", " spellings
  | missingValue parameter =>
    "argument " ++ (Flag.parameter parameter).label ++ ": expected one argument"
  | unusedValue switch value =>
    "argument " ++ (Flag.switch switch).label ++ ": ignored explicit argument " ++
      Text.quoted value
  | unknownFormat name =>
    "argument " ++ (Flag.parameter .format).label ++ ": invalid choice: " ++ Text.quoted name ++
      " (choose from 'text', 'json')"
  | unrecognized words => "unrecognized arguments: " ++ String.intercalate " " words

/-- The usage lines and the error. -/
def report (error : UsageError) : String :=
  usageLines ++ "cukexp: error: " ++ error.message ++ "\n"

end UsageError

end CucumberExpressions.CommandLine
