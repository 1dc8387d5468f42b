import CucumberExpressions.Text.Quoted

/-!
# JSON documents

The JSON values that reports are made of, and their indented layout: two spaces for each level, one
item on each line, no line for an empty array or object. Strings keep every character that JSON
allows in them.

## Main definitions

* `Json` — strings, integers, arrays, and objects with their members in order
* `Json.stringLiteral` — a string as JSON writes it
* `Json.render` — the indented layout of a value
-/

namespace CucumberExpressions

/-- A JSON value. -/
inductive Json
  | string (value : String)
  | number (value : Int)
  | array (items : List Json)
  | object (members : List (String × Json))
  deriving Repr

namespace Json

/-- What stands for `c` in a string literal. -/
def escaped (c : Char) : List Char :=
  if c = '\x22' ∨ c = '\\' then ['\\', c]
  else if c = '\n' then ['\\', 'n']
  else if c = '\r' then ['\\', 'r']
  else if c = '\t' then ['\\', 't']
  else if c = '\x08' then ['\\', 'b']
  else if c = '\x0c' then ['\\', 'f']
  else if c.toNat < 0x20 then '\\' :: 'u' :: Text.hexDigits 4 c.toNat
  else [c]

/-- The string literal of `text`. -/
def stringLiteral (text : List Char) : List Char :=
  '\x22' :: text.flatMap escaped ++ ['\x22']

/-- The start of a line at the given depth. -/
def lineStart (depth : Nat) : List Char := '\n' :: List.replicate (2 * depth) ' '

mutual

/-- The layout of a value whose closing bracket stands at the given depth. -/
def layout (depth : Nat) : Json → List Char
  | .string value => stringLiteral value.toList
  | .number value => (toString value).toList
  | .array [] => ['[', ']']
  | .array (item :: items) =>
    '[' :: lineStart (depth + 1) ++ layout (depth + 1) item ++ layoutItems (depth + 1) items ++
      lineStart depth ++ [']']
  | .object [] => ['\x7b', '\x7d']
  | .object (member :: members) =>
    '\x7b' :: lineStart (depth + 1) ++ layoutMember (depth + 1) member ++
      layoutMembers (depth + 1) members ++ lineStart depth ++ ['\x7d']

/-- The layout of the items after the first one. -/
def layoutItems (depth : Nat) : List Json → List Char
  | [] => []
  | item :: items => ',' :: lineStart depth ++ layout depth item ++ layoutItems depth items

/-- The layout of a member: its key and its value. -/
def layoutMember (depth : Nat) : String × Json → List Char
  | (key, value) => stringLiteral key.toList ++ ':' :: ' ' :: layout depth value

/-- The layout of the members after the first one. -/
def layoutMembers (depth : Nat) : List (String × Json) → List Char
  | [] => []
  | member :: members =>
    ',' :: lineStart depth ++ layoutMember depth member ++ layoutMembers depth members

end

/-- The indented layout of a value. -/
def render (value : Json) : String := String.ofList (value.layout 0)

end Json

end CucumberExpressions
