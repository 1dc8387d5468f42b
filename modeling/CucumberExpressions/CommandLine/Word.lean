import CucumberExpressions.CommandLine.Usage
import CucumberExpressions.Text.DecimalDigit

/-!
# Words of the command line

Before anything is acted on, every word of the command line is read as a plain word, as the
separator, or as a flag. After the separator all words are plain. Before it, a word is plain unless
it begins with a dash; a dash alone, a negative number, and a word with a space are plain too, if
they are no spelling of a flag.

A long spelling can be abbreviated as long as only one spelling begins with it, and an equals sign
attaches a value to it. To a short spelling everything after its letter is attached, without an
equals sign right after the letter.

## Main definitions

* `CommandLine.Word` — how a word is read
* `CommandLine.Word.read` — reads a word that stands before the separator
* `CommandLine.readWords` — reads all words
-/

namespace CucumberExpressions.CommandLine

/-- How a word is read. It is plain if it is no flag; after the word of two dashes all words are
plain. A flag has a short spelling, to which something may be attached, and a long one, with a value
after an equals sign. Other words that look like flags are unknown. -/
inductive Word
  | plain
  | separator
  | short (flag : Flag) (attached : Option (List Char))
  | long (flag : Flag) (value : Option (List Char))
  | unknown
  deriving DecidableEq, Repr

/-- A word cut at its first equals sign: what stands before the sign, and what stands after it if
there is one. -/
def splitAtEquals (word : List Char) : List Char × Option (List Char) :=
  match word.dropWhile (· ≠ '=') with
  | [] => (word, none)
  | _ :: value => (word.takeWhile (· ≠ '='), some value)

/-- Whether a word is a dash and a number without an exponent; one line feed may follow it. -/
def isNegativeNumber (word : List Char) : Bool :=
  match (if word.getLast? = some '\n' then word.dropLast else word) with
  | '-' :: digits =>
    match digits.dropWhile Text.isDecimalDigit with
    | [] => !digits.isEmpty
    | '.' :: decimals => !decimals.isEmpty && decimals.all Text.isDecimalDigit
    | _ => false
  | _ => false

namespace Word

/-- Reads a word that begins with a dash but has no spelling of a flag. -/
def readOther (word : List Char) : Word :=
  if isNegativeNumber word || word.contains ' ' then .plain else .unknown

/-- What is attached to a short spelling by the characters after its letter. -/
def attached : List Char → Option (List Char)
  | [] => none
  | '=' :: value => some value
  | value => some value

/-- Reads a word that begins with two dashes: an exact long spelling, or the start of exactly one,
in both cases perhaps with a value. -/
def readLong (word : List Char) : Except UsageError Word :=
  let (spelling, value) := splitAtEquals word
  match flagOf? spelling with
  | some flag => .ok (.long flag value)
  | none =>
    match flagsFrom spelling with
    | [] => .ok (readOther word)
    | [(_, flag)] => .ok (.long flag value)
    | spelled => .error (.ambiguous (String.ofList word) (spelled.map Prod.fst))

/-- Reads a word that stands before the separator. -/
def read (word : List Char) : Except UsageError Word :=
  match word with
  | '-' :: '-' :: _ => readLong word
  | '-' :: letter :: tail =>
    match flagOf? ['-', letter] with
    | some flag => .ok (.short flag (attached tail))
    | none => .ok (readOther word)
  | _ => .ok .plain

end Word

/-- Reads the words of a command line. The first ambiguous word is an error, whatever the other
words are. -/
def readWords : List String → Except UsageError (List (String × Word))
  | [] => .ok []
  | word :: words =>
    if word = "--" then
      .ok ((word, .separator) :: words.map fun word => (word, .plain))
    else do
      let reading ← Word.read word.toList
      let readings ← readWords words
      return (word, reading) :: readings

end CucumberExpressions.CommandLine
