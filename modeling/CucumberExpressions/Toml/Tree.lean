import CucumberExpressions.Toml.Value

/-!
# Tables under construction

While a document is read, its tables grow. A table can be opened by a header, by being on the way
to another table, or by a dotted key; which of these may extend it later depends on how it was
opened. A value, once given, can be neither extended nor replaced, and this holds also for the
arrays and tables that are written as values.

* A header opens a table once. It may pass through any table and through the last item of an array
  of tables.
* A dotted key may pass only through tables that were opened on the way to others or by a dotted
  key under the same header.
* A header in double brackets adds an item to an array of tables.

## Main definitions

* `Toml.Node` — a value, a table, or an array of tables
* `Toml.Entries.declare?`, `Toml.Entries.append?` — the two kinds of headers
* `Toml.Entries.assign?` — a value for a key
* `Toml.Entries.toTable` — the finished table
-/

namespace CucumberExpressions.Toml

/-- How a table was opened: on the way to another table, by a header, or by a dotted key under the
header with a number. -/
inductive Origin
  | implied
  | header
  | dotted (number : Nat)
  deriving DecidableEq, Repr

/-- An entry under construction. -/
inductive Node
  | value (value : Value)
  | table (origin : Origin) (entries : List (String × Node))
  | tables (items : List (List (String × Node)))

/-- The entries of a table under construction, in the order in which they came. -/
abbrev Entries := List (String × Node)

namespace Entries

/-- The entries with a node under a key: in the place of the former node, or at the end. -/
def put (entries : Entries) (key : String) (node : Node) : Entries :=
  match entries with
  | [] => [(key, node)]
  | entry :: rest => if entry.1 = key then (key, node) :: rest else entry :: put rest key node

/-- Changes the table that a header names. Tables on the way are opened as needed. -/
def atHeader (change : Entries → Option Entries) : List String → Entries → Option Entries
  | [], entries => change entries
  | key :: keys, entries =>
    match entries.lookup key with
    | none => do return entries.put key (.table .implied (← atHeader change keys []))
    | some (.table origin inner) => do
      return entries.put key (.table origin (← atHeader change keys inner))
    | some (.tables items) => do
      let last ← atHeader change keys (← items.getLast?)
      return entries.put key (.tables (items.dropLast ++ [last]))
    | some (.value _) => none

/-- Changes the table that the leading parts of a dotted key name. -/
def atDotted (number : Nat) (change : Entries → Option Entries) :
    List String → Entries → Option Entries
  | [], entries => change entries
  | key :: keys, entries =>
    match entries.lookup key with
    | none => do
      return entries.put key (.table (.dotted number) (← atDotted number change keys []))
    | some (.table origin inner) =>
      if origin = .implied ∨ origin = .dotted number then do
        return entries.put key (.table (.dotted number) (← atDotted number change keys inner))
      else
        none
    | some _ => none

/-- Opens a table by a header that ends in `key`. -/
def open? (key : String) (entries : Entries) : Option Entries :=
  match entries.lookup key with
  | none => some (entries.put key (.table .header []))
  | some (.table .implied inner) => some (entries.put key (.table .header inner))
  | some _ => none

/-- Adds an item to the array of tables under `key`. -/
def extend? (key : String) (entries : Entries) : Option Entries :=
  match entries.lookup key with
  | none => some (entries.put key (.tables [[]]))
  | some (.tables items) => some (entries.put key (.tables (items ++ [[]])))
  | some _ => none

/-- Gives a value to a key that has none. -/
def set? (key : String) (value : Value) (entries : Entries) : Option Entries :=
  match entries.lookup key with
  | none => some (entries.put key (.value value))
  | some _ => none

/-- The leading parts of a dotted key and its last part. -/
def splitKey? (key : List String) : Option (List String × String) :=
  key.getLast?.map fun last => (key.dropLast, last)

/-- Opens the table that a header names. -/
def declare? (header : List String) (entries : Entries) : Option Entries := do
  let (parents, last) ← splitKey? header
  atHeader (open? last) parents entries

/-- Adds an item to the array of tables that a header in double brackets names. -/
def append? (header : List String) (entries : Entries) : Option Entries := do
  let (parents, last) ← splitKey? header
  atHeader (extend? last) parents entries

/-- Gives a value to a dotted key under the header with the given number. -/
def assign? (number : Nat) (header key : List String) (value : Value) (entries : Entries) :
    Option Entries := do
  let (parents, last) ← splitKey? key
  atHeader (atDotted number (set? last value) parents) header entries

mutual

/-- The value of a finished node. -/
def toValue : Node → Value
  | .value value => value
  | .table _ entries => .table (toTable entries)
  | .tables items => .array (toItems items)

/-- The finished table. -/
def toTable : Entries → Table
  | [] => []
  | entry :: entries => toEntry entry :: toTable entries

/-- A finished entry. -/
def toEntry : String × Node → String × Value
  | (key, node) => (key, toValue node)

/-- The finished items of an array of tables. -/
def toItems : List Entries → List Value
  | [] => []
  | entries :: items => .table (toTable entries) :: toItems items

end

end Entries

end CucumberExpressions.Toml
