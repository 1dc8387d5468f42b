/-!
# Flags of the command line

A flag has one or two spellings: a short one, of a dash and a letter, and a long one that starts
with two dashes. Some flags take a value.

## Main definitions

* `CommandLine.Switch`, `CommandLine.Parameter` — the flags without and with a value
* `CommandLine.Flag` — the six flags
* `CommandLine.Flag.spellings` — how a flag can be written
* `CommandLine.spelledFlags` — all spellings, in the order in which they are declared
-/

namespace CucumberExpressions.CommandLine

/-- The flags without a value: they show the help text, leave the sentinels out, or log every
expression. -/
inductive Switch
  | help
  | noSentinels
  | verbose
  deriving DecidableEq, Repr

/-- The flags with a value: they name a file with expressions, choose the format of the report, or
name the settings file. -/
inductive Parameter
  | file
  | format
  | config
  deriving DecidableEq, Repr

/-- The flags of the command line. -/
inductive Flag
  | switch (switch : Switch)
  | parameter (parameter : Parameter)
  deriving DecidableEq, Repr

namespace Flag

/-- All flags, in the order in which they are declared. -/
def all : List Flag :=
  [.switch .help, .parameter .file, .parameter .format, .switch .noSentinels, .parameter .config,
    .switch .verbose]

/-- The spellings of a flag, the short one first. -/
def spellings : Flag → List String
  | .switch .help => ["-h", "--help"]
  | .parameter .file => ["-f", "--file"]
  | .parameter .format => ["--format"]
  | .switch .noSentinels => ["--no-sentinels"]
  | .parameter .config => ["--config"]
  | .switch .verbose => ["-v", "--verbose"]

/-- The name of a flag in error messages: its spellings, separated by slashes. -/
def label (flag : Flag) : String := String.intercalate "/" flag.spellings

end Flag

/-- All spellings with their flags, in the order in which they are declared. -/
def spelledFlags : List (String × Flag) :=
  Flag.all.flatMap fun flag => flag.spellings.map fun spelling => (spelling, flag)

/-- The flag with the given spelling. -/
def flagOf? (spelling : List Char) : Option Flag :=
  spelledFlags.lookup (String.ofList spelling)

/-- The spellings that begin with `start`, with their flags. -/
def flagsFrom (start : List Char) : List (String × Flag) :=
  spelledFlags.filter fun spelled => start.isPrefixOf spelled.1.toList

end CucumberExpressions.CommandLine
