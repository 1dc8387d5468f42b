/-!
# Binary floating point numbers

The numbers that 64 bits can hold, as exact values: a mantissa below 2^53 times a power of two
between 2^-1074 and 2^971, with a sign, or an infinity, or no number at all. A decimal is rounded
to the nearest of them; of two at the same distance the one with the even mantissa is taken.

## Main definitions

* `Decimal` — a natural number times a power of ten
* `Binary64` — a floating point number
* `Binary64.ofDecimal` — the floating point number nearest to a decimal
-/

namespace CucumberExpressions

/-- The number `digits * 10 ^ exponent`. -/
structure Decimal where
  digits : Nat
  exponent : Int
  deriving DecidableEq, Repr

/-- A floating point number of 64 bits. If it is finite, it is `mantissa * 2 ^ exponent` with a
sign. -/
inductive Binary64
  | nan
  | infinity (negative : Bool)
  | finite (negative : Bool) (mantissa : Nat) (exponent : Int)
  deriving DecidableEq, Repr

namespace Decimal

/-- `num / den` rounded to the nearest integer, a half to the even one. -/
def roundToEven (num den : Nat) : Nat :=
  let floor := num / den
  let excess := 2 * (num % den)
  if excess < den then floor
  else if den < excess then floor + 1
  else floor + floor % 2

/-- The factors of `base ^ exponent` above and below a fraction bar. -/
def fractionPower (base : Nat) (exponent : Int) : Nat × Nat :=
  (base.pow exponent.toNat, base.pow (-exponent).toNat)

/-- The least exponent of a floating point number. -/
def leastExponent : Int := -1074

/-- The greatest exponent of a floating point number. -/
def greatestExponent : Int := 971

/-- The exponent `e` for which the positive number `num / den` is `m * 2 ^ e` with an `m` from 2^52
up to, but not including, 2^53; for smaller numbers the least exponent. -/
def binaryExponent (num den : Nat) : Int :=
  let guess : Int := (num.log2 : Int) - den.log2 - 53
  let (above, below) := fractionPower 2 guess
  let exponent := if num * below < Nat.pow 2 53 * (den * above) then guess else guess + 1
  max exponent leastExponent

/-- The number of decimal digits of `n`, for a positive `n`. -/
def digitCount (n : Nat) : Nat := (Nat.toDigits 10 n).length

end Decimal

namespace Binary64

open Decimal

/-- The floating point number nearest to the positive number `num / den`. -/
def ofFraction (negative : Bool) (num den : Nat) : Binary64 :=
  let exponent := binaryExponent num den
  let (above, below) := fractionPower 2 exponent
  let mantissa := roundToEven (num * below) (den * above)
  let (mantissa, exponent) :=
    if mantissa = Nat.pow 2 53 then (Nat.pow 2 52, exponent + 1) else (mantissa, exponent)
  if exponent > greatestExponent then
    .infinity negative
  else
    .finite negative mantissa exponent

/-- The floating point number nearest to a decimal. Decimals from 10^310 on are beyond all
floating point numbers, and those below 10^-330 are nearest to zero. -/
def ofDecimal (negative : Bool) (decimal : Decimal) : Binary64 :=
  let magnitude := (digitCount decimal.digits : Int) + decimal.exponent
  if decimal.digits = 0 ∨ magnitude < -330 then
    .finite negative 0 leastExponent
  else if magnitude > 310 then
    .infinity negative
  else
    let (above, below) := fractionPower 10 decimal.exponent
    ofFraction negative (decimal.digits * above) below

end Binary64

end CucumberExpressions
