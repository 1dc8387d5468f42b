import CucumberExpressions.Text.HexDigit
import CucumberExpressions.Text.Printable

/-!
# Quoted literals

The form in which a text is shown inside a message or a dump: between two quotes, on one line, and
so that the text can be read off it. The quote is an apostrophe, unless the text has an apostrophe
and no quotation mark; then it is a quotation mark. Inside, a backslash stands before the quote and
before a backslash, and every unprintable character is written as an escape.

## Main definitions

* `Text.quoteOf` — the quote chosen for a text
* `Text.escaped` — what stands for one character between the quotes
* `Text.quoted` — the quoted literal of a text
* `Text.quotedSurrogate` — the quoted literal of a lone surrogate
-/

namespace CucumberExpressions.Text

/-- An apostrophe, unless `text` has one and no quotation mark. -/
def quoteOf (text : List Char) : Char :=
  if text.contains '\x27' && !text.contains '\x22' then '\x22' else '\x27'

/-- What stands for `c` in a literal between two `quote`s. -/
def escaped (quote c : Char) : List Char :=
  if c = quote ∨ c = '\\' then ['\\', c]
  else if c = '\t' then ['\\', 't']
  else if c = '\n' then ['\\', 'n']
  else if c = '\r' then ['\\', 'r']
  else if isPrintable c then [c]
  else if c.toNat < 0x100 then '\\' :: 'x' :: hexDigits 2 c.toNat
  else if c.toNat < 0x10000 then '\\' :: 'u' :: hexDigits 4 c.toNat
  else '\\' :: 'U' :: hexDigits 8 c.toNat

/-- The quoted literal of `text`, character by character. -/
def quotedChars (text : List Char) : List Char :=
  quoteOf text :: text.flatMap (escaped (quoteOf text)) ++ [quoteOf text]

/-- The quoted literal of `text`. -/
def quoted (text : String) : String := String.ofList (quotedChars text.toList)

/-- The quoted literal of the lone surrogate with the given number from U+D800 on, which is not
printable either. -/
def quotedSurrogate (n : Fin 0x800) : String :=
  String.ofList ('\x27' :: '\\' :: 'u' :: hexDigits 4 (0xD800 + n) ++ ['\x27'])

end CucumberExpressions.Text
