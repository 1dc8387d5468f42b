import CucumberExpressions.Decimal.Shortest
import CucumberExpressions.Text.Quoted
import CucumberExpressions.Toml.Date

/-!
# Values of a TOML document

The values that a TOML document can hold, and how a message shows them: floats with the fewest
digits that read back, and integers in decimal unless they are too long for it. On their own,
strings stand as they are, and dates and times in their usual text; inside arrays and tables strings
are quoted, and dates and times stand as the calls that make them.

## Main definitions

* `Toml.Value` — a value
* `Toml.longestDecimal` — the longest integer that is read or written in decimal
* `Toml.Value.show?` — a value as a message shows it
-/

namespace CucumberExpressions.Toml

/-- A value of a TOML document. The entries of a table are in the order in which they came. -/
inductive Value
  | boolean (value : Bool)
  | integer (value : Int)
  | float (value : Binary64)
  | string (value : String)
  | date (date : Date)
  | time (time : Time)
  | dateTime (date : Date) (time : Time) (offset : Option Offset)
  | array (items : List Value)
  | table (entries : List (String × Value))
  deriving Repr

/-- The entries of a table. -/
abbrev Table := List (String × Value)

/-- The greatest number of digits with which an integer is read or written in decimal. -/
def longestDecimal : Nat := 4300

/-- Floats have no exponent if their first digit stands for a power of ten from 10^-4 to 10^15;
exponents have at least two digits. -/
def floatStyle : DecimalStyle where
  plainFrom := -4
  plainBelow := 16
  exponentWidth := 2

/-- The text of a date and a time, with the offset if there is one. -/
def renderDateTime (date : Date) (time : Time) (offset : Option Offset) : String :=
  date.render ++ " " ++ time.render ++ (offset.map Offset.render).getD ""

/-- The text that makes a date and a time, with the offset if there is one. -/
def callDateTime (date : Date) (time : Time) (offset : Option Offset) : String :=
  callText "datetime" (date.arguments ++ time.arguments ++
    (offset.map fun offset => "tzinfo=" ++ offset.call).toList)

namespace Value

/-- An integer in decimal, unless it is too long. -/
def showInteger? (value : Int) : Option String :=
  if value.natAbs < Nat.pow 10 longestDecimal then some (toString value) else none

mutual

/-- A value as it is shown inside an array or a table, unless it holds an integer that is too
long. -/
def showInner? : Value → Option String
  | .boolean b => some (if b then "True" else "False")
  | .integer n => showInteger? n
  | .float x => some (x.render floatStyle)
  | .string s => some (Text.quoted s)
  | .date day => some day.call
  | .time clock => some clock.call
  | .dateTime day clock offset => some (callDateTime day clock offset)
  | .array items => do return "[" ++ String.intercalate ", " (← showItems? items) ++ "]"
  | .table entries => do
    return "\x7b" ++ String.intercalate ", " (← showEntries? entries) ++ "\x7d"

/-- The items of an array as they are shown. -/
def showItems? : List Value → Option (List String)
  | [] => some []
  | item :: items => do return (← showInner? item) :: (← showItems? items)

/-- An entry of a table as it is shown. -/
def showEntry? : String × Value → Option String
  | (key, value) => do return Text.quoted key ++ ": " ++ (← showInner? value)

/-- The entries of a table as they are shown. -/
def showEntries? : List (String × Value) → Option (List String)
  | [] => some []
  | entry :: entries => do return (← showEntry? entry) :: (← showEntries? entries)

end

/-- A value as a message shows it, unless it holds an integer that is too long. -/
def show? : Value → Option String
  | .string s => some s
  | .date day => some day.render
  | .time clock => some clock.render
  | .dateTime day clock offset => some (renderDateTime day clock offset)
  | value => value.showInner?

end Value

end CucumberExpressions.Toml
