import CucumberExpressions.Text.Quoted
import CucumberExpressions.Token

/-!
# Dumps of tokens

The text form of a list of tokens: one indented line for each token, with its kind, its quoted text
and its stretch. The sentinels can be left out.

## Main definitions

* `Token.visible` — a list of tokens with or without its sentinels
* `Token.describe` — the text form of one token
* `Token.dump` — the text form of a list of tokens
-/

namespace CucumberExpressions.Token

/-- The tokens to show: all of them, or those that are no sentinels. -/
def visible (sentinels : Bool) (tokens : List Token) : List Token :=
  if sentinels then tokens else tokens.filter fun token => !token.kind.isSentinel

/-- The text form of a token, such as `TEXT('int')@1..4`. Offsets stand in decimal, however long. -/
def describe (token : Token) : String :=
  token.kind.name ++ "(" ++ Text.quoted token.text ++ ")@" ++
    toString token.start ++ ".." ++ toString token.stop

/-- The line of a token in a dump. -/
def dumpLine (token : Token) : String := "  " ++ token.describe ++ "\n"

/-- The lines of a list of tokens. -/
def dump (tokens : List Token) : String := String.join (tokens.map dumpLine)

end CucumberExpressions.Token
