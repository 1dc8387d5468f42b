import CucumberExpressions.Text.HexDigit
import Mathlib.Algebra.Field.Rat

/-!
# The grammar of JSON

Which texts are JSON, and what they stand for. A value can be written in many ways: white space may
stand around every part, a character of a string may be written as itself or by an escape, and a
number may have a fraction and an exponent. A value is what is left when all of this does not
matter: numbers are exact, strings are sequences of characters, and the members of an object stand
in the order in which they are written, also when two of them have the same key.

An escape gives a UTF-16 code unit. A character above U+FFFF takes a pair of surrogates, and a
surrogate without its partner gives no character.

## Main definitions

* `Json.Value` — what a text stands for
* `Json.SpellsChar`, `Json.SpellsString` — the spellings of a character and of a string
* `Json.Numeral` — the spellings of a number
* `Json.Spells` — the spellings of a value
-/

namespace CucumberExpressions.Json

/-- What a JSON text stands for. -/
inductive Value
  | null
  | boolean (value : Bool)
  | number (value : ℚ)
  | string (value : String)
  | array (items : List Value)
  | object (members : List (String × Value))

/-! ### White space -/

/-- Whether a character may stand between the parts of a text. -/
def isSpace (c : Char) : Bool := c = ' ' || c = '\t' || c = '\n' || c = '\r'

/-- White space between the parts of a text, or nothing. -/
def IsSpaces (text : List Char) : Prop := ∀ c ∈ text, isSpace c = true

theorem isSpaces_nil : IsSpaces [] := fun _ h => nomatch h

/-! ### Strings -/

/-- The letters that may follow a backslash, with the characters that they give. -/
def letterEscapes : List (Char × Char) :=
  [('\x22', '\x22'), ('\\', '\\'), ('/', '/'), ('b', '\x08'), ('f', '\x0c'), ('n', '\n'),
    ('r', '\r'), ('t', '\t')]

/-- The code unit that is written by four hexadecimal digits. -/
def codeUnit? (a b c d : Char) : Option Nat := do
  return 0x1000 * (← Text.hexValue? a) + 0x100 * (← Text.hexValue? b) +
    0x10 * (← Text.hexValue? c) + (← Text.hexValue? d)

/-- The code point of a pair of surrogates, if they are a pair. -/
def pairCode? (high low : Nat) : Option Nat :=
  if (0xD800 ≤ high ∧ high < 0xDC00) ∧ 0xDC00 ≤ low ∧ low < 0xE000 then
    some (0x10000 + 0x400 * (high - 0xD800) + (low - 0xDC00))
  else none

/-- Whether a character may stand for itself in a string. -/
def isPlain (c : Char) : Bool := 0x20 ≤ c.toNat && c ≠ '\x22' && c ≠ '\\'

/-- The spellings of a character in a string: the character itself, a backslash and a letter, or its
code unit, or its two code units, in hexadecimal digits. -/
inductive SpellsChar : Char → List Char → Prop
  | plain {char : Char} (h : isPlain char = true) : SpellsChar char [char]
  | letter {char letter : Char} (h : (letter, char) ∈ letterEscapes) :
      SpellsChar char ['\\', letter]
  | unit {char a b c d : Char} (h : codeUnit? a b c d = some char.toNat) :
      SpellsChar char ['\\', 'u', a, b, c, d]
  | pair {char a b c d a' b' c' d' : Char} {high low : Nat}
      (hhigh : codeUnit? a b c d = some high) (hlow : codeUnit? a' b' c' d' = some low)
      (h : pairCode? high low = some char.toNat) :
      SpellsChar char ['\\', 'u', a, b, c, d, '\\', 'u', a', b', c', d']

/-- The spellings of a string: its characters one after another, between two quotation marks. -/
inductive SpellsString : String → List Char → Prop
  | mk {chars : List Char} {spellings : List (List Char)}
      (h : List.Forall₂ SpellsChar chars spellings) :
      SpellsString (String.ofList chars) ('\x22' :: spellings.flatten ++ ['\x22'])

/-! ### Numbers -/

/-- At least one decimal digit, and nothing else. -/
def IsDigits (text : List Char) : Prop := text ≠ [] ∧ ∀ c ∈ text, c.isDigit = true

/-- The exponent of a number: the letter that starts it, a sign, if there is one, and the digits. -/
structure Exponent where
  mark : Char
  sign? : Option Char
  digits : List Char

namespace Exponent

structure Valid (exponent : Exponent) : Prop where
  mark : exponent.mark = 'e' ∨ exponent.mark = 'E'
  sign : ∀ sign ∈ exponent.sign?, sign = '+' ∨ sign = '-'
  digits : IsDigits exponent.digits

def text (exponent : Exponent) : List Char :=
  exponent.mark :: exponent.sign?.toList ++ exponent.digits

def value (exponent : Exponent) : ℤ :=
  let size : ℤ := Nat.ofDigitChars 10 exponent.digits 0
  if exponent.sign? = some '-' then -size else size

end Exponent

/-- A number as it is written. It may have a minus sign; there is no point if there are no digits
after it. -/
structure Numeral where
  negative : Bool
  whole : List Char
  fraction : List Char
  exponent? : Option Exponent

namespace Numeral

/-- Digits are written as they should be, without a zero in front of other digits. -/
structure Valid (numeral : Numeral) : Prop where
  whole : IsDigits numeral.whole
  zero : numeral.whole.head? = some '0' → numeral.whole = ['0']
  fraction : numeral.fraction ≠ [] → IsDigits numeral.fraction
  exponent : ∀ exponent ∈ numeral.exponent?, exponent.Valid

/-- The point and the digits after it, if there are any. -/
def fractionText (fraction : List Char) : List Char :=
  if fraction = [] then [] else '.' :: fraction

def exponentText (exponent? : Option Exponent) : List Char :=
  (exponent?.map Exponent.text).getD []

def text (numeral : Numeral) : List Char :=
  (if numeral.negative then ['-'] else []) ++ numeral.whole ++ fractionText numeral.fraction ++
    exponentText numeral.exponent?

def value (numeral : Numeral) : ℚ :=
  let size : ℚ := Nat.ofDigitChars 10 (numeral.whole ++ numeral.fraction) 0
  let scale : ℤ := (numeral.exponent?.map Exponent.value).getD 0 - numeral.fraction.length
  (if numeral.negative then -size else size) * 10 ^ scale

end Numeral

/-! ### Values -/

/-- A member of an object as it is written. The texts of the key and of the value include the white
space around them. -/
structure WrittenMember where
  key : String
  value : Value
  keyText : List Char
  valueText : List Char

namespace WrittenMember

def member (written : WrittenMember) : String × Value := (written.key, written.value)

def text (written : WrittenMember) : List Char := written.keyText ++ ':' :: written.valueText

end WrittenMember

/-- The spellings of a key, with white space around it. -/
inductive SpellsKey : String → List Char → Prop
  | mk {key : String} {before text after : List Char} (hbefore : IsSpaces before)
      (h : SpellsString key text) (hafter : IsSpaces after) :
      SpellsKey key (before ++ text ++ after)

/-- The spellings of a value. Items and members have commas between them, and white space may stand
around any value. -/
inductive Spells : Value → List Char → Prop
  | null : Spells .null ['n', 'u', 'l', 'l']
  | true : Spells (.boolean .true) ['t', 'r', 'u', 'e']
  | false : Spells (.boolean .false) ['f', 'a', 'l', 's', 'e']
  | number {numeral : Numeral} (h : numeral.Valid) : Spells (.number numeral.value) numeral.text
  | string {value : String} {text : List Char} (h : SpellsString value text) :
      Spells (.string value) text
  | array {items : List (Value × List Char)} {space : List Char}
      (h : ∀ item ∈ items, Spells item.1 item.2) (hspace : IsSpaces space) :
      Spells (.array (items.map Prod.fst))
        ('[' :: [','].intercalate (items.map Prod.snd) ++ space ++ [']'])
  | object {members : List WrittenMember} {space : List Char}
      (hkey : ∀ written ∈ members, SpellsKey written.key written.keyText)
      (h : ∀ written ∈ members, Spells written.value written.valueText)
      (hspace : IsSpaces space) :
      Spells (.object (members.map WrittenMember.member))
        ('\x7b' :: [','].intercalate (members.map WrittenMember.text) ++ space ++ ['\x7d'])
  | padded {value : Value} {before text after : List Char} (hbefore : IsSpaces before)
      (h : Spells value text) (hafter : IsSpaces after) :
      Spells value (before ++ text ++ after)

/-- White space may come before a value. -/
theorem Spells.indented {value : Value} {before text : List Char} (hbefore : IsSpaces before)
    (h : Spells value text) : Spells value (before ++ text) := by
  have hpadded := Spells.padded hbefore h isSpaces_nil
  rwa [List.append_nil] at hpadded

theorem SpellsKey.indented {key : String} {before text : List Char} (hbefore : IsSpaces before)
    (h : SpellsString key text) : SpellsKey key (before ++ text) := by
  have hpadded := SpellsKey.mk hbefore h isSpaces_nil
  rwa [List.append_nil] at hpadded

end CucumberExpressions.Json
