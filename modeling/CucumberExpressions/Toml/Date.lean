/-!
# Dates and times

Calendar dates from year 1 to year 9999, times of day down to a millionth of a second, and offsets
from universal time. Each of them has its usual text, and a text that makes it when it is evaluated.

## Main definitions

* `Date`, `Time`, `Offset` — the three notions
* `Date.isValid` — whether the calendar has a date
* `Date.render`, `Time.render`, `Offset.render` — the usual texts
* `Date.call`, `Time.call`, `Offset.call` — the texts that make them
-/

namespace CucumberExpressions.Toml

/-- A date of the calendar. Months and days are counted from 1. -/
structure Date where
  year : Nat
  month : Nat
  day : Nat
  deriving DecidableEq, Repr

/-- A time of day, up to millionths of a second. -/
structure Time where
  hour : Nat
  minute : Nat
  second : Nat
  micros : Nat
  deriving DecidableEq, Repr

/-- An offset from universal time, in minutes ahead of it. -/
structure Offset where
  minutes : Int
  deriving DecidableEq, Repr

/-- `n` in decimal, with zeros in front up to the given width. -/
def padded (width n : Nat) : String :=
  let digits := toString n
  "".pushn '0' (width - digits.length) ++ digits

namespace Date

/-- Whether February of this year has 29 days. -/
def isLeapYear (year : Nat) : Bool :=
  year % 4 = 0 && (year % 100 ≠ 0 || year % 400 = 0)

/-- The number of days of a month. -/
def daysOf (year month : Nat) : Nat :=
  if month = 2 then (if isLeapYear year then 29 else 28)
  else if month = 4 ∨ month = 6 ∨ month = 9 ∨ month = 11 then 30
  else 31

/-- Whether the calendar has this date. -/
def isValid (date : Date) : Bool :=
  1 ≤ date.year && date.year ≤ 9999 && 1 ≤ date.month && date.month ≤ 12 &&
    1 ≤ date.day && date.day ≤ daysOf date.year date.month

/-- The text of a date, such as `1979-05-27`. -/
def render (date : Date) : String :=
  padded 4 date.year ++ "-" ++ padded 2 date.month ++ "-" ++ padded 2 date.day

end Date

/-- The text of a time, such as `07:32:00` or, with a fraction, `07:32:00.500000`. -/
def Time.render (time : Time) : String :=
  padded 2 time.hour ++ ":" ++ padded 2 time.minute ++ ":" ++ padded 2 time.second ++
    if time.micros = 0 then "" else "." ++ padded 6 time.micros

/-- The text of an offset, such as `+02:00`. -/
def Offset.render (offset : Offset) : String :=
  let minutes := offset.minutes.natAbs
  (if offset.minutes < 0 then "-" else "+") ++ padded 2 (minutes / 60) ++ ":" ++
    padded 2 (minutes % 60)

/-! ### Calls -/

/-- The text of a call. -/
def callText (function : String) (arguments : List String) : String :=
  "datetime." ++ function ++ "(" ++ String.intercalate ", " arguments ++ ")"

/-- The arguments that make a date. -/
def Date.arguments (date : Date) : List String :=
  [date.year, date.month, date.day].map toString

/-- The arguments that make a time. Seconds and their millionths are left out if they are zero and
nothing comes after them. -/
def Time.arguments (time : Time) : List String :=
  (if time.micros ≠ 0 then [time.hour, time.minute, time.second, time.micros]
    else if time.second ≠ 0 then [time.hour, time.minute, time.second]
    else [time.hour, time.minute]).map toString

/-- The text that makes a date, such as `datetime.date(1979, 5, 27)`. -/
def Date.call (date : Date) : String := callText "date" date.arguments

/-- The text that makes a time, such as `datetime.time(7, 32)`. -/
def Time.call (time : Time) : String := callText "time" time.arguments

/-- The arguments that make a difference of seconds, of which whole days are split off. -/
def differenceArguments (seconds : Int) : List String :=
  ([("days", seconds / 86400), ("seconds", seconds % 86400)].filter fun part => part.2 ≠ 0).map
    fun part => part.1 ++ "=" ++ toString part.2

/-- The text that makes an offset. Universal time has a name of its own. -/
def Offset.call (offset : Offset) : String :=
  if offset.minutes = 0 then "datetime.timezone.utc"
  else callText "timezone" [callText "timedelta" (differenceArguments (60 * offset.minutes))]

end CucumberExpressions.Toml
