import CucumberExpressions.Text.Line
import CucumberExpressions.Toml.Scalar
import CucumberExpressions.Toml.Tree

/-!
# TOML documents

A document is a sequence of statements, one on a line: a key with a value, or a header, which opens
the table that the keys after it belong to. Values can be nested: arrays may be spread over several
lines with comments between their items, inline tables may not.

Readers of nested values and of sequences take a number that bounds the steps they may take. Each
step reads a character or is followed by one that does, so twice the length of the text is enough.

## Main definitions

* `Toml.readKey` — a key, perhaps dotted
* `Toml.readValue` — any value
* `Toml.parse` — the table of a document
* `Toml.parseBytes` — the table of a file
-/

namespace CucumberExpressions.Toml

/-- Whether `c` may stand in a bare key. -/
def isBareKeyChar (c : Char) : Bool := c.isAlphanum || c = '-' || c = '_'

/-- Skips blanks. -/
def skipBlanks (text : List Char) : List Char := text.dropWhile isBlank

/-- Skips a comment, if there is one, up to the end of its line. -/
def skipComment : List Char → Except ReadError (List Char)
  | '#' :: rest =>
    if (rest.takeWhile (· ≠ '\n')).any isControl then
      .error .malformed
    else
      .ok (rest.dropWhile (· ≠ '\n'))
  | rest => .ok rest

/-! ### Keys -/

/-- Reads one part of a key: bare, or a string of one line. -/
def readKeyPart (text : List Char) : Except ReadError (String × List Char) :=
  match text.takeWhile isBareKeyChar with
  | [] =>
    match readLineString? text with
    | some (part, rest) => .ok (String.ofList part, rest)
    | none => .error .malformed
  | part => .ok (String.ofList part, text.dropWhile isBareKeyChar)

/-- Reads the parts of a key; points separate them. The blanks around points and after the key are
skipped. -/
def readKeyParts : Nat → List Char → Except ReadError (List String × List Char)
  | 0, _ => .error .malformed
  | steps + 1, text => do
    let (part, text) ← readKeyPart text
    match skipBlanks text with
    | '.' :: text => do
      let (parts, text) ← readKeyParts steps (skipBlanks text)
      return (part :: parts, text)
    | text => return ([part], text)

/-- Reads a key and the blanks after it. -/
def readKey (text : List Char) : Except ReadError (List String × List Char) :=
  readKeyParts (text.length + 1) text

/-- Reads a key and the equals sign after it, up to the value. -/
def readKeyAndEquals (text : List Char) : Except ReadError (List String × List Char) := do
  let (key, text) ← readKey text
  match text with
  | '=' :: text => return (key, skipBlanks text)
  | _ => throw .malformed

/-! ### Values -/

/-- Skips blanks, line breaks and comments inside an array. -/
def skipInArray : Nat → List Char → Except ReadError (List Char)
  | 0, text => .ok text
  | steps + 1, text =>
    match text.dropWhile isBlankOrBreak with
    | '#' :: rest => do skipInArray steps (← skipComment ('#' :: rest))
    | text => .ok text

mutual

/-- Reads any value. -/
def readNested : Nat → List Char → Except ReadError (Value × List Char)
  | 0, _ => .error .malformed
  | steps + 1, text =>
    match text with
    | '[' :: rest => do
      let (items, rest) ← readItems steps (← skipInArray steps rest)
      return (.array items, rest)
    | '\x7b' :: rest =>
      match skipBlanks rest with
      | '\x7d' :: rest => .ok (.table [], rest)
      | rest => do
        let (entries, rest) ← readEntries steps [] rest
        return (.table entries.toTable, rest)
    | text => readScalar text

/-- Reads the items of an array up to its closing bracket. A comma may follow the last item. -/
def readItems : Nat → List Char → Except ReadError (List Value × List Char)
  | 0, _ => .error .malformed
  | steps + 1, text =>
    match text with
    | ']' :: rest => .ok ([], rest)
    | text => do
      let (item, rest) ← readNested steps text
      match ← skipInArray steps rest with
      | ']' :: rest => return ([item], rest)
      | ',' :: rest => do
        let (items, rest) ← readItems steps (← skipInArray steps rest)
        return (item :: items, rest)
      | _ => throw .malformed

/-- Reads the entries of an inline table, after those that it already has, up to its closing
brace. -/
def readEntries : Nat → Entries → List Char → Except ReadError (Entries × List Char)
  | 0, _, _ => .error .malformed
  | steps + 1, entries, text => do
    let (key, text) ← readKeyAndEquals text
    let (value, text) ← readNested steps text
    match entries.assign? 0 [] key value with
    | none => throw .malformed
    | some entries =>
      match skipBlanks text with
      | '\x7d' :: rest => return (entries, rest)
      | ',' :: rest => readEntries steps entries (skipBlanks rest)
      | _ => throw .malformed

end

/-- Reads any value. -/
def readValue (text : List Char) : Except ReadError (Value × List Char) :=
  readNested (2 * text.length + 2) text

/-! ### Statements -/

/-- A document as far as it has been read: its entries, the header that the next keys belong to, and
the number of headers so far. -/
structure Draft where
  entries : Entries := []
  header : List String := []
  headers : Nat := 0

namespace Draft

/-- The document after a header, with the change that the header makes. -/
def enter (draft : Draft) (header : List String) (entries : Option Entries) :
    Except ReadError Draft :=
  match entries with
  | some entries => .ok ⟨entries, header, draft.headers + 1⟩
  | none => .error .malformed

/-- Reads a header in double brackets, after these brackets. -/
def readArrayHeader (draft : Draft) (text : List Char) : Except ReadError (Draft × List Char) := do
  let (header, text) ← readKey (skipBlanks text)
  let draft ← draft.enter header (draft.entries.append? header)
  match text with
  | ']' :: ']' :: text => return (draft, text)
  | _ => throw .malformed

/-- Reads a header, after its bracket. -/
def readHeader (draft : Draft) (text : List Char) : Except ReadError (Draft × List Char) := do
  let (header, text) ← readKey (skipBlanks text)
  let draft ← draft.enter header (draft.entries.declare? header)
  match text with
  | ']' :: text => return (draft, text)
  | _ => throw .malformed

/-- Reads a key with its value. -/
def readAssignment (draft : Draft) (text : List Char) : Except ReadError (Draft × List Char) := do
  let (key, text) ← readKeyAndEquals text
  let (value, text) ← readValue text
  match draft.entries.assign? draft.headers draft.header key value with
  | some entries => return ({ draft with entries }, text)
  | none => throw .malformed

/-- Whether `c` may begin a key. -/
def isKeyStart (c : Char) : Bool := isBareKeyChar c || c = '\x22' || c = '\x27'

/-- Reads what stands on a line before the comment: a statement, or nothing. -/
def readStatement (draft : Draft) (text : List Char) : Except ReadError (Draft × List Char) :=
  match text with
  | [] => .ok (draft, text)
  | '\n' :: _ => .ok (draft, text)
  | '#' :: _ => .ok (draft, text)
  | '[' :: '[' :: rest => draft.readArrayHeader rest
  | '[' :: rest => draft.readHeader rest
  | c :: _ => if isKeyStart c then draft.readAssignment text else .error .malformed

/-- Reads the lines of a document. -/
def readLines : Nat → Draft → List Char → Except ReadError Draft
  | 0, _, _ => .error .malformed
  | steps + 1, draft, text => do
    let (draft, text) ← draft.readStatement (skipBlanks text)
    match ← skipComment (skipBlanks text) with
    | [] => return draft
    | '\n' :: text => readLines steps draft text
    | _ => throw .malformed

end Draft

/-- The table of a document. -/
def parse (text : List Char) : Except ReadError Table := do
  let text := Text.joinBreakPairs text
  let draft ← Draft.readLines (text.length + 1) {} text
  return draft.entries.toTable

/-- The table of a file with the given content. -/
def parseBytes (content : ByteArray) : Except ReadError Table :=
  match String.fromUTF8? content with
  | some text => parse text.toList
  | none => .error .notUtf8

end CucumberExpressions.Toml
