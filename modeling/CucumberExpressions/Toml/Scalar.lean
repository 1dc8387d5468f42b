import CucumberExpressions.Text.HexDigit
import CucumberExpressions.Toml.Value

/-!
# Scalars of a TOML document

How strings, numbers, dates and times are read off the start of a text. Every reader gives what it
has read and the rest of the text, or fails.

## Main definitions

* `Toml.ReadError` — why a document cannot be read
* `Toml.readBasic`, `Toml.readLiteral` — strings, of one line or several
* `Toml.readNumber?` — integers and floats
* `Toml.readDateTime?`, `Toml.readTime?` — dates and times
* `Toml.readScalar` — any scalar
-/

namespace CucumberExpressions.Toml

/-- Why a document cannot be read: it is no text in UTF-8, it breaks the rules of TOML, or an
integer in decimal in it has more digits than are read. -/
inductive ReadError
  | notUtf8
  | malformed
  | integerTooLong (digits : Nat)
  deriving DecidableEq, Repr

/-- Whether `c` is a blank inside a line. -/
def isBlank (c : Char) : Bool := c = ' ' || c = '\t'

/-- Whether `c` is a blank or ends a line. -/
def isBlankOrBreak (c : Char) : Bool := isBlank c || c = '\n'

/-- Whether `c` is a control character that neither a string of one line nor a comment may hold. -/
def isControl (c : Char) : Bool := (c.toNat < 0x20 && c ≠ '\t') || c.toNat = 0x7F

/-- Whether `c` is a control character that a string may not hold. -/
def isForbidden (multiline : Bool) (c : Char) : Bool :=
  isControl c && !(multiline && c = '\n')

/-! ### Strings -/

/-- The character with a code point, if there is one. -/
def charOf? (code : Nat) : Option Char :=
  if code.isValidChar then some (Char.ofNat code) else none

/-- The character that an escape of one letter stands for. -/
def escapeOf? : Char → Option Char
  | 'b' => some '\x08'
  | 't' => some '\t'
  | 'n' => some '\n'
  | 'f' => some '\x0c'
  | 'r' => some '\r'
  | '\x22' => some '\x22'
  | '\\' => some '\\'
  | _ => none

/-- Where the reader of a basic string stands: between two characters, after a backslash, or before
the hexadecimal digits of a code point, with the number of digits after the next one and the value
of those before it. A backslash and blanks may also stand before the break of the line; after it all
blanks and breaks are skipped. -/
inductive BasicState
  | plain
  | escape
  | code (left value : Nat)
  | beforeBreak
  | afterBreak
  deriving DecidableEq, Repr

/-- The text with one more character in front of what has been read. -/
def push? (c : Char) : Option (List Char × List Char) → Option (List Char × List Char) :=
  Option.map fun (text, rest) => (c :: text, rest)

/-- Reads a basic string after its opening quotes, up to and with its closing ones. -/
def readBasic (multiline : Bool) : BasicState → List Char → Option (List Char × List Char)
  | _, [] => none
  | .code left value, c :: rest =>
    match Text.hexValue? c, left with
    | none, _ => none
    | some digit, left + 1 => readBasic multiline (.code left (16 * value + digit)) rest
    | some digit, 0 =>
      match charOf? (16 * value + digit) with
      | none => none
      | some char => push? char (readBasic multiline .plain rest)
  | .escape, c :: rest =>
    match escapeOf? c with
    | some char => push? char (readBasic multiline .plain rest)
    | none =>
      if c = 'u' then readBasic multiline (.code 3 0) rest
      else if c = 'U' then readBasic multiline (.code 7 0) rest
      else if multiline && c = '\n' then readBasic multiline .afterBreak rest
      else if multiline && isBlank c then readBasic multiline .beforeBreak rest
      else none
  | .beforeBreak, c :: rest =>
    if isBlank c then readBasic multiline .beforeBreak rest
    else if c = '\n' then readBasic multiline .afterBreak rest
    else none
  | state, c :: rest =>
    if state = .afterBreak && isBlankOrBreak c then
      readBasic multiline .afterBreak rest
    else if c = '\\' then
      readBasic multiline .escape rest
    else if c = '\x22' then
      match multiline, rest with
      | false, rest => some ([], rest)
      | true, '\x22' :: '\x22' :: rest => some ([], rest)
      | true, rest => push? c (readBasic multiline .plain rest)
    else if isForbidden multiline c then
      none
    else
      push? c (readBasic multiline .plain rest)

/-- Reads a literal string after its opening apostrophes, up to and with its closing ones. -/
def readLiteral (multiline : Bool) : List Char → Option (List Char × List Char)
  | [] => none
  | c :: rest =>
    if c = '\x27' then
      match multiline, rest with
      | false, rest => some ([], rest)
      | true, '\x27' :: '\x27' :: rest => some ([], rest)
      | true, rest => push? c (readLiteral multiline rest)
    else if isForbidden multiline c then
      none
    else
      push? c (readLiteral multiline rest)

/-- Up to two quotes right after the three closing ones of a string of several lines belong to the
string. -/
def takeExtraQuotes (quote : Char) : List Char × List Char → List Char × List Char
  | (text, c :: c' :: rest) =>
    if c = quote ∧ c' = quote then (text ++ [c, c'], rest)
    else if c = quote then (text ++ [c], c' :: rest)
    else (text, c :: c' :: rest)
  | (text, [c]) => if c = quote then (text ++ [c], []) else (text, [c])
  | (text, []) => (text, [])

/-- A line feed right after the opening quotes of a string of several lines is dropped. -/
def dropFirstBreak : List Char → List Char
  | '\n' :: rest => rest
  | rest => rest

/-- Reads a string of one line. -/
def readLineString? : List Char → Option (List Char × List Char)
  | '\x22' :: rest => readBasic false .plain rest
  | '\x27' :: rest => readLiteral false rest
  | _ => none

/-- Reads a string of one line or of several. -/
def readString? : List Char → Option (List Char × List Char)
  | '\x22' :: '\x22' :: '\x22' :: rest =>
    (readBasic true .plain (dropFirstBreak rest)).map (takeExtraQuotes '\x22')
  | '\x27' :: '\x27' :: '\x27' :: rest =>
    (readLiteral true (dropFirstBreak rest)).map (takeExtraQuotes '\x27')
  | rest => readLineString? rest

/-! ### Numbers -/

/-- Digits at the start of a text. A single underscore may stand between two digits and is left
out. -/
def takeDigits (isDigit : Char → Bool) : List Char → List Char × List Char
  | c :: rest =>
    if isDigit c then
      match rest with
      | '_' :: d :: rest' =>
        if isDigit d then
          let (digits, rest) := takeDigits isDigit (d :: rest')
          (c :: digits, rest)
        else
          ([c], rest)
      | rest =>
        let (digits, rest) := takeDigits isDigit rest
        (c :: digits, rest)
    else
      ([], c :: rest)
  | [] => ([], [])

/-- The number with the given digits in a base of at most 16. -/
def numberOf (base : Nat) (digits : List Char) : Nat :=
  digits.foldl (fun n c => base * n + (Text.hexValue? c).getD 0) 0

/-- Whether `c` is a digit in a base of at most 16. -/
def isDigitOf (base : Nat) (c : Char) : Bool :=
  match Text.hexValue? c with
  | some value => value < base
  | none => false

/-- A number as it stands in a document: an integer in a base that is announced, an integer in
decimal, or a number with a fraction or an exponent. -/
inductive Number
  | based (value : Nat)
  | whole (negative : Bool) (digits : List Char)
  | float (negative : Bool) (decimal : Decimal)
  deriving DecidableEq, Repr

/-- The base that a letter after a zero announces; no digits belong to base 0. -/
def baseOf : Char → Nat
  | 'x' => 16
  | 'o' => 8
  | 'b' => 2
  | _ => 0

/-- Reads digits after a zero and the letter of their base, as in `0x1F`. -/
def readBased? : List Char → Option (Nat × List Char)
  | '0' :: letter :: rest =>
    match takeDigits (isDigitOf (baseOf letter)) rest with
    | ([], _) => none
    | (digits, rest) => some (numberOf (baseOf letter) digits, rest)
  | _ => none

/-- Reads a sign, if there is one: whether it is a minus, and the rest. -/
def takeSign : List Char → Bool × List Char
  | '+' :: rest => (false, rest)
  | '-' :: rest => (true, rest)
  | rest => (false, rest)

/-- The digits before a fraction or an exponent: a lone zero, or digits that begin with another
one. -/
def takeWhole : List Char → List Char × List Char
  | '0' :: rest => (['0'], rest)
  | rest => takeDigits Char.isDigit rest

/-- The digits of a fraction, none if there is no fraction. -/
def takeFraction : List Char → List Char × List Char
  | '.' :: rest =>
    match takeDigits Char.isDigit rest with
    | ([], _) => ([], '.' :: rest)
    | (digits, rest) => (digits, rest)
  | rest => ([], rest)

/-- An exponent, if there is one. -/
def takeExponent : List Char → Option Int × List Char
  | c :: rest =>
    if c = 'e' ∨ c = 'E' then
      let (negative, rest') := takeSign rest
      match takeDigits Char.isDigit rest' with
      | ([], _) => (none, c :: rest)
      | (digits, rest') =>
        let value : Int := numberOf 10 digits
        (some (if negative then -value else value), rest')
    else
      (none, c :: rest)
  | [] => (none, [])

/-- Reads an integer or a float in decimal. -/
def readDecimal? (text : List Char) : Option (Number × List Char) :=
  let (negative, rest) := takeSign text
  match takeWhole rest with
  | ([], _) => none
  | (whole, rest) =>
    let (fraction, rest) := takeFraction rest
    let (exponent, rest) := takeExponent rest
    if fraction.isEmpty && exponent.isNone then
      some (.whole negative whole, rest)
    else
      let decimal : Decimal :=
        ⟨numberOf 10 (whole ++ fraction), exponent.getD 0 - fraction.length⟩
      some (.float negative decimal, rest)

/-- Reads an integer or a float with digits. -/
def readNumber? (text : List Char) : Option (Number × List Char) :=
  match readBased? text with
  | some (value, rest) => some (.based value, rest)
  | none => readDecimal? text

/-- Reads an infinity or what is not a number. -/
def readSpecial? (text : List Char) : Option (Binary64 × List Char) :=
  let (negative, rest) := takeSign text
  match rest with
  | 'i' :: 'n' :: 'f' :: rest => some (.infinity negative, rest)
  | 'n' :: 'a' :: 'n' :: rest => some (.nan, rest)
  | _ => none

/-- The value of a number. -/
def Number.value : Number → Except ReadError Value
  | .based value => .ok (.integer value)
  | .whole negative digits =>
    if digits.length > longestDecimal then
      .error (.integerTooLong digits.length)
    else
      let value : Int := numberOf 10 digits
      .ok (.integer (if negative then -value else value))
  | .float negative decimal => .ok (.float (.ofDecimal negative decimal))

/-! ### Dates and times -/

/-- Reads the given number of digits as a number. -/
def readFixed? (width : Nat) (text : List Char) : Option (Nat × List Char) :=
  let digits := text.take width
  if digits.length = width && digits.all Char.isDigit then
    some (numberOf 10 digits, text.drop width)
  else
    none

/-- Reads the given number of digits as a number between two bounds. -/
def readBetween? (width least greatest : Nat) (text : List Char) : Option (Nat × List Char) :=
  match readFixed? width text with
  | some (value, rest) => if least ≤ value ∧ value ≤ greatest then some (value, rest) else none
  | none => none

/-- Reads one character. -/
def readChar? (c : Char) : List Char → Option (List Char)
  | d :: rest => if c = d then some rest else none
  | [] => none

/-- Reads a date; the calendar need not have it. -/
def readDate? (text : List Char) : Option (Date × List Char) := do
  let (year, text) ← readFixed? 4 text
  let text ← readChar? '-' text
  let (month, text) ← readBetween? 2 1 12 text
  let text ← readChar? '-' text
  let (day, text) ← readBetween? 2 1 31 text
  return (⟨year, month, day⟩, text)

/-- The millionths of a second after a point; digits beyond the sixth are dropped. -/
def takeMicros : List Char → Nat × List Char
  | '.' :: rest =>
    let digits := rest.takeWhile Char.isDigit
    if digits.isEmpty then
      (0, '.' :: rest)
    else
      let kept := digits.take 6
      (numberOf 10 kept * Nat.pow 10 (6 - kept.length), rest.dropWhile Char.isDigit)
  | rest => (0, rest)

/-- Reads a time of day. -/
def readTime? (text : List Char) : Option (Time × List Char) := do
  let (hour, text) ← readBetween? 2 0 23 text
  let text ← readChar? ':' text
  let (minute, text) ← readBetween? 2 0 59 text
  let text ← readChar? ':' text
  let (second, text) ← readBetween? 2 0 59 text
  let (micros, text) := takeMicros text
  return (⟨hour, minute, second, micros⟩, text)

/-- Reads an offset of hours and minutes. -/
def readOffset? (text : List Char) : Option (Nat × List Char) := do
  let (hours, text) ← readBetween? 2 0 23 text
  let text ← readChar? ':' text
  let (minutes, text) ← readBetween? 2 0 59 text
  return (60 * hours + minutes, text)

/-- An offset from universal time, if there is one. -/
def takeOffset (text : List Char) : Option Offset × List Char :=
  match text with
  | c :: rest =>
    if c = 'Z' ∨ c = 'z' then
      (some ⟨0⟩, rest)
    else if c = '+' ∨ c = '-' then
      match readOffset? rest with
      | some (minutes, rest) => (some ⟨if c = '-' then -(minutes : Int) else minutes⟩, rest)
      | none => (none, text)
    else
      (none, text)
  | [] => (none, [])

/-- Reads the time after a date, if there is one. -/
def takeTime (text : List Char) : Option Time × List Char :=
  match text with
  | c :: rest =>
    if c = 'T' ∨ c = 't' ∨ c = ' ' then
      match readTime? rest with
      | some (time, rest) => (some time, rest)
      | none => (none, text)
    else
      (none, text)
  | [] => (none, [])

/-- Reads a date, perhaps with a time and an offset. -/
def readDateTime? (text : List Char) : Option (Date × Value × List Char) := do
  let (date, text) ← readDate? text
  match takeTime text with
  | (none, _) => return (date, .date date, text)
  | (some time, text) =>
    let (offset, text) := takeOffset text
    return (date, .dateTime date time offset, text)

/-! ### Scalars -/

/-- Reads a date, a time or a number. -/
def readPoint (text : List Char) : Except ReadError (Value × List Char) :=
  match readDateTime? text with
  | some (date, value, rest) => if date.isValid then .ok (value, rest) else .error .malformed
  | none =>
    match readTime? text with
    | some (time, rest) => .ok (.time time, rest)
    | none =>
      match readNumber? text with
      | some (number, rest) => do return (← number.value, rest)
      | none =>
        match readSpecial? text with
        | some (value, rest) => .ok (.float value, rest)
        | none => .error .malformed

/-- Reads a string. -/
def readText (text : List Char) : Except ReadError (Value × List Char) :=
  match readString? text with
  | some (value, rest) => .ok (.string (String.ofList value), rest)
  | none => .error .malformed

/-- Reads any scalar. -/
def readScalar (text : List Char) : Except ReadError (Value × List Char) :=
  match text with
  | '\x22' :: _ => readText text
  | '\x27' :: _ => readText text
  | 't' :: 'r' :: 'u' :: 'e' :: rest => .ok (.boolean true, rest)
  | 'f' :: 'a' :: 'l' :: 's' :: 'e' :: rest => .ok (.boolean false, rest)
  | _ => readPoint text

end CucumberExpressions.Toml
