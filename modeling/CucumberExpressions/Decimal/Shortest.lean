import CucumberExpressions.Decimal.Binary64

/-!
# The shortest decimal that reads back

A floating point number is written with as few digits as still single it out among all floating
point numbers. The reals that round to it form an interval, whose ends belong to it when the
mantissa is even. The decimals with a given power of ten form a grid. The coarsest grid with a
point in the interval gives the fewest digits; of its points the nearest is taken, and of two at
the same distance the even one. Only the two grid points around the number need to be looked at,
because if any point of the grid lies in the interval, one of them does.

## Main definitions

* `Binary64.Interval` — the reals that round to a floating point number
* `Binary64.onGrid?` — the nearest point of a grid that reads back
* `Binary64.shortest` — the shortest decimal that reads back
* `DecimalStyle` — how a decimal is laid out
* `Binary64.render` — the text of a floating point number
-/

namespace CucumberExpressions

namespace Binary64

open Decimal

/-- The reals that round to a positive floating point number, between a lower and an upper end,
which belong to them or not. All three are in units of `2 ^ exponent`. -/
structure Interval where
  lower : Nat
  value : Nat
  upper : Nat
  closed : Bool
  exponent : Int
  deriving DecidableEq, Repr

/-- The interval around `mantissa * 2 ^ exponent`. The neighbour below is twice as near at the
least mantissa of an exponent, unless the exponent is the least one. -/
def interval (mantissa : Nat) (exponent : Int) : Interval where
  lower :=
    if mantissa = Nat.pow 2 52 ∧ exponent > leastExponent then 4 * mantissa - 1
    else 4 * mantissa - 2
  value := 4 * mantissa
  upper := 4 * mantissa + 2
  closed := mantissa % 2 = 0
  exponent := exponent - 2

/-- Whether `num / den` lies in the interval, where both are given in its unit. -/
def Interval.contains (i : Interval) (num den : Nat) : Bool :=
  if i.closed then
    i.lower * den ≤ num && num ≤ i.upper * den
  else
    i.lower * den < num && num < i.upper * den

/-- The distance of `a` and `b`. -/
def distance (a b : Nat) : Nat := (a - b) + (b - a)

/-- The point of the grid of `10 ^ power` that is nearest to the value of the interval and lies in
it. -/
def onGrid? (i : Interval) (power : Int) : Option Decimal :=
  let (tenAbove, tenBelow) := fractionPower 10 power
  let (twoAbove, twoBelow) := fractionPower 2 i.exponent
  let step := tenAbove * twoBelow
  let unit := tenBelow * twoAbove
  let below := i.value * unit / step
  let reads (point : Nat) : Bool := i.contains (point * step) unit
  let far (point : Nat) : Nat := distance (point * step) (i.value * unit)
  match reads below, reads (below + 1) with
  | false, false => none
  | true, false => some ⟨below, power⟩
  | false, true => some ⟨below + 1, power⟩
  | true, true =>
    if far below < far (below + 1) then some ⟨below, power⟩
    else if far (below + 1) < far below then some ⟨below + 1, power⟩
    else some ⟨below + below % 2, power⟩

/-- The powers of ten of the grids that are tried, the coarsest first. No floating point number
needs a finer one. -/
def gridPowers : List Int := (List.range 655).map fun (n : Nat) => (310 : Int) - n

/-- The shortest decimal that reads back as the positive number `mantissa * 2 ^ exponent`. -/
def shortest (mantissa : Nat) (exponent : Int) : Decimal :=
  (gridPowers.findSome? (onGrid? (interval mantissa exponent))).getD ⟨0, 0⟩

end Binary64

/-! ### Layout -/

/-- How a decimal is laid out. No exponent is written if the first digit has a power of ten from
`plainFrom` on and below `plainBelow`; an exponent has at least so many digits. -/
structure DecimalStyle where
  plainFrom : Int
  plainBelow : Int
  exponentWidth : Nat
  deriving DecidableEq, Repr

namespace DecimalStyle

/-- Digits with a point before the one with index `place`, where zeros are added as needed on both
sides. -/
def placePoint (digits : List Char) (place : Int) : List Char :=
  if place ≤ 0 then
    '0' :: '.' :: List.replicate (-place).toNat '0' ++ digits
  else
    let whole := digits.take place.toNat
    let decimals := digits.drop place.toNat
    whole ++ List.replicate (place.toNat - whole.length) '0' ++
      '.' :: (if decimals.isEmpty then ['0'] else decimals)

/-- An exponent with its sign. -/
def exponentChars (style : DecimalStyle) (exponent : Int) : List Char :=
  let digits := Nat.toDigits 10 exponent.natAbs
  (if exponent < 0 then '-' else '+') ::
    List.replicate (style.exponentWidth - digits.length) '0' ++ digits

/-- The layout of a decimal. -/
def layout (style : DecimalStyle) (decimal : Decimal) : List Char :=
  let digits := Nat.toDigits 10 decimal.digits
  let first : Int := decimal.exponent + digits.length - 1
  if style.plainFrom ≤ first ∧ first < style.plainBelow then
    placePoint digits (first + 1)
  else
    let mantissa :=
      match digits with
      | digit :: decimals@(_ :: _) => digit :: '.' :: decimals
      | digits => digits
    mantissa ++ 'e' :: style.exponentChars first

end DecimalStyle

/-- The text of a floating point number. -/
def Binary64.render (style : DecimalStyle) : Binary64 → String
  | nan => "nan"
  | infinity negative => if negative then "-inf" else "inf"
  | finite negative mantissa exponent =>
    let decimal := if mantissa = 0 then ⟨0, 0⟩ else shortest mantissa exponent
    (if negative then "-" else "") ++ String.ofList (style.layout decimal)

end CucumberExpressions
