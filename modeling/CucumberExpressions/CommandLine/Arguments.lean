import CucumberExpressions.CommandLine.Word
import CucumberExpressions.Options

/-!
# Arguments of the command line

The words of the command line are taken in order. Flags are acted on as they come. The first run of
plain words gives the expressions; the plain words of any later run are left over, like the words
that look like flags but are none. Asking for help ends the reading at once, and so does an error;
left over words are an error at the end.

A value of two dashes is dropped, as the separator is: the flag then counts as used, but it has been
given nothing.

## Main definitions

* `CommandLine.Given` — a value of a flag, or nothing
* `CommandLine.Arguments` — what a command line asks for
* `CommandLine.Exit` — why a command line is not carried out
* `CommandLine.Arguments.ofWords` — reads a command line
-/

namespace CucumberExpressions.CommandLine

/-- What a flag has been given: a value, or nothing because the value was two dashes. -/
inductive Given (α : Type)
  | nothing
  | value (value : α)
  deriving DecidableEq, Repr

namespace Given

/-- What a flag is given by a value. -/
def ofValue (value : String) : Given String :=
  if value = "--" then .nothing else .value value

/-- The value, if there is one. -/
def toOption {α : Type} : Given α → Option α
  | nothing => none
  | value a => some a

end Given

/-- What a command line asks for: the expressions among its words, and what the flags have been
given. The flag for files with expressions may be used more than once; of the other flags with a
value the last use counts. -/
structure Arguments where
  expressions : List String := []
  files : List (Given String) := []
  format : Option (Given Format) := none
  noSentinels : Bool := false
  config : Option (Given String) := none
  verbose : Bool := false
  deriving DecidableEq, Repr

/-- Why a command line is not carried out: it asks for the help text, or it is wrong. -/
inductive Exit
  | help
  | usage (error : UsageError)
  deriving DecidableEq, Repr

namespace Exit

/-- The exit status. -/
def status : Exit → Nat
  | help => 0
  | usage _ => 2

/-- What goes to the output. -/
def output : Exit → String
  | help => helpText
  | usage _ => ""

/-- What goes to the error output. -/
def errorOutput : Exit → String
  | help => ""
  | usage error => error.report

end Exit

/-! ### Flags -/

namespace Arguments

/-- The arguments after a flag without a value. -/
def raise (arguments : Arguments) : Switch → Except Exit Arguments
  | .help => .error .help
  | .noSentinels => .ok { arguments with noSentinels := true }
  | .verbose => .ok { arguments with verbose := true }

/-- The format with a given name, if a flag is given one. -/
def formatOf : Given String → Except Exit (Given Format)
  | .nothing => .ok .nothing
  | .value name =>
    match Format.ofName? name with
    | some format => .ok (.value format)
    | none => .error (.usage (.unknownFormat name))

/-- The arguments after a flag with what it is given. -/
def give (arguments : Arguments) (parameter : Parameter) (given : Given String) :
    Except Exit Arguments :=
  match parameter with
  | .file => .ok { arguments with files := arguments.files ++ [given] }
  | .config => .ok { arguments with config := some given }
  | .format => do return { arguments with format := some (← formatOf given) }

end Arguments

/-! ### Words with several flags

The letters after a short flag without a value are short flags themselves, so one word can hold
several flags, of which only the last one can take a value. -/

/-- How a word with flags ends: with a flag without a value, with a flag that takes its value from
the next word, or with a flag and its value. -/
inductive Ending
  | complete
  | awaiting (parameter : Parameter)
  | given (parameter : Parameter) (value : List Char)
  deriving DecidableEq, Repr

/-- The flags in one word: those without a value, in order, and how the word ends. -/
structure Cluster where
  raised : List Switch
  ending : Ending
  deriving DecidableEq, Repr

namespace Cluster

/-- A flag with nothing after it in its word. -/
def alone : Flag → Cluster
  | .switch switch => ⟨[switch], .complete⟩
  | .parameter parameter => ⟨[], .awaiting parameter⟩

/-- A short flag and what is attached to it: its value, or the letters of further flags, each with
what follows it attached. -/
def ofAttached : Flag → List Char → Except UsageError Cluster
  | .parameter parameter, value => .ok ⟨[], .given parameter value⟩
  | .switch switch, [] => .error (.unusedValue switch "")
  | .switch switch, letter :: tail => do
    match flagOf? ['-', letter] with
    | none => throw (.unusedValue switch (String.ofList (letter :: tail)))
    | some flag =>
      let cluster ← if tail.isEmpty then .ok (alone flag) else ofAttached flag tail
      return { cluster with raised := switch :: cluster.raised }

/-- A short flag, perhaps with something attached. -/
def ofShort (flag : Flag) : Option (List Char) → Except UsageError Cluster
  | none => .ok (alone flag)
  | some attached => ofAttached flag attached

/-- A long flag, perhaps with a value. -/
def ofLong : Flag → Option (List Char) → Except UsageError Cluster
  | flag, none => .ok (alone flag)
  | .parameter parameter, some value => .ok ⟨[], .given parameter value⟩
  | .switch switch, some value => .error (.unusedValue switch (String.ofList value))

end Cluster

/-! ### Taking the words in order -/

/-- Whether the first run of plain words has begun or ended. -/
inductive Stage | before | within | after
  deriving DecidableEq, Repr

/-- What has been read of a command line. A flag may wait for its value; the flags before it in its
word are not acted on before the value is there. The stage is that of the first run of plain
words. -/
structure Reading where
  arguments : Arguments := {}
  stage : Stage := .before
  awaiting : Option (List Switch × Parameter) := none
  leftOver : List String := []
  deriving DecidableEq, Repr

namespace Reading

/-- A word is left over. -/
def leave (reading : Reading) (word : String) : Reading :=
  { reading with leftOver := reading.leftOver ++ [word] }

/-- A plain word is an expression, unless the first run of plain words has ended. -/
def plain (reading : Reading) (word : String) : Reading :=
  match reading.stage with
  | .after => reading.leave word
  | _ =>
    { reading with
      arguments :=
        { reading.arguments with expressions := reading.arguments.expressions ++ [word] }
      stage := .within }

/-- The separator belongs to a run of plain words, but it is no expression. -/
def separator (reading : Reading) (word : String) : Reading :=
  match reading.stage with
  | .after => reading.leave word
  | _ => { reading with stage := .within }

/-- A flag, or a word that looks like one, ends a run of plain words. -/
def interrupt (reading : Reading) : Reading :=
  match reading.stage with
  | .before => reading
  | _ => { reading with stage := .after }

/-- The reading after flags without a value. -/
def raiseAll (reading : Reading) (switches : List Switch) : Except Exit Reading := do
  return { reading with arguments := ← switches.foldlM Arguments.raise reading.arguments }

/-- The reading after a flag with its value. -/
def give (reading : Reading) (parameter : Parameter) (value : String) : Except Exit Reading := do
  return { reading with arguments := ← reading.arguments.give parameter (.ofValue value) }

/-- The reading after a word with flags. -/
def cluster (reading : Reading) : Except UsageError Cluster → Except Exit Reading
  | .error error => .error (.usage error)
  | .ok ⟨raised, .complete⟩ => reading.interrupt.raiseAll raised
  | .ok ⟨raised, .awaiting parameter⟩ =>
    .ok { reading.interrupt with awaiting := some (raised, parameter) }
  | .ok ⟨raised, .given parameter value⟩ => do
    (← reading.interrupt.raiseAll raised).give parameter (String.ofList value)

/-- The reading after a word. -/
def step (reading : Reading) : String × Word → Except Exit Reading
  | (word, kind) =>
    match reading.awaiting, kind with
    | some (raised, parameter), .plain => do
      (← { reading with awaiting := none }.raiseAll raised).give parameter word
    | some (_, parameter), _ => .error (.usage (.missingValue parameter))
    | none, .plain => .ok (reading.plain word)
    | none, .separator => .ok (reading.separator word)
    | none, .unknown => .ok (reading.interrupt.leave word)
    | none, .short flag attached => reading.cluster (Cluster.ofShort flag attached)
    | none, .long flag value => reading.cluster (Cluster.ofLong flag value)

/-- The arguments at the end of the command line. -/
def finish (reading : Reading) : Except Exit Arguments :=
  match reading.awaiting, reading.leftOver with
  | some (_, parameter), _ => .error (.usage (.missingValue parameter))
  | none, [] => .ok reading.arguments
  | none, leftOver => .error (.usage (.unrecognized leftOver))

end Reading

/-- Reads a command line. -/
def Arguments.ofWords (words : List String) : Except Exit Arguments := do
  match readWords words with
  | .error error => throw (.usage error)
  | .ok readings => (← readings.foldlM Reading.step {}).finish

end CucumberExpressions.CommandLine
