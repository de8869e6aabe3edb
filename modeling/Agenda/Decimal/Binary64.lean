/-!
# Binary floating-point numbers

Numbers with a significand of 53 bits, the format in which fractions in settings are kept. A
finite number is an exact integer times a power of two, so all arithmetic below is on natural
numbers.

- `Binary64.ofDecimal`: the number nearest to a decimal one; of two that are equally near, the one
  whose significand is even.
- `Binary64.toWhole`: the nearest whole number, halves rounded away from zero.
-/

namespace Agenda

/-- A decimal number: a sign, digits read as one whole number, and the power of ten by which they
are multiplied. -/
structure Decimal where
  /-- Whether there is a minus sign. -/
  negative : Bool
  /-- The digits. -/
  digits : Nat
  /-- The power of ten. -/
  exponent : Int
deriving DecidableEq

/-- A number of the format. -/
inductive Binary64 where
  /-- No number. -/
  | nan
  /-- Beyond all finite numbers. -/
  | infinite (negative : Bool)
  /-- `significand * 2 ^ exponent`, with a sign that zero has as well. -/
  | finite (negative : Bool) (significand : Nat) (exponent : Int)
deriving DecidableEq

namespace Binary64

/-- The least exponent of a finite number. -/
def minExponent : Int := -1074

/-- The greatest exponent of a finite number. -/
def maxExponent : Int := 971

/-- The first significand that is too large. -/
def significandBound : Nat := 1 <<< 53

/-- A quotient rounded to the nearest whole number, a tie going to the even one. -/
def roundQuotient (numerator denominator : Nat) : Nat :=
  let quotient := numerator / denominator
  let twice := 2 * (numerator % denominator)
  if twice < denominator then quotient
  else if denominator < twice then quotient + 1
  else quotient + quotient % 2

/-- A positive quotient divided by `2 ^ exponent`, as numerator and denominator. -/
def scale (numerator denominator : Nat) (exponent : Int) : Nat × Nat :=
  if exponent < 0 then (numerator <<< exponent.natAbs, denominator)
  else (numerator, denominator <<< exponent.natAbs)

/-- The exponent at which a positive quotient has a significand of 53 bits, or the least one if it
would lie below. -/
def exponentFor (numerator denominator : Nat) : Int :=
  let estimate := (numerator.log2 : Int) - denominator.log2 - 53
  let scaled := scale numerator denominator estimate
  let exact := if scaled.1 / scaled.2 < significandBound then estimate else estimate + 1
  max exact minExponent

/-- The number nearest to a positive quotient. -/
def ofQuotient (negative : Bool) (numerator denominator : Nat) : Binary64 :=
  let exponent := exponentFor numerator denominator
  let scaled := scale numerator denominator exponent
  let rounded := roundQuotient scaled.1 scaled.2
  let significand := if rounded = significandBound then rounded / 2 else rounded
  let exponent := if rounded = significandBound then exponent + 1 else exponent
  if maxExponent < exponent then infinite negative else finite negative significand exponent

/-- The number nearest to a decimal one. Decimals that are far too large or too small for the
format are told by their exponent, so that no power of ten grows out of bounds. -/
def ofDecimal (decimal : Decimal) : Binary64 :=
  let negative := decimal.negative
  let digits := decimal.digits
  if digits = 0 then finite negative 0 minExponent
  else if 400 < decimal.exponent then infinite negative
  else if decimal.exponent + digits.log2 / 3 + 1 < -400 then finite negative 0 minExponent
  else if decimal.exponent < 0 then
    ofQuotient negative digits (Nat.pow 10 decimal.exponent.natAbs)
  else
    ofQuotient negative (digits * Nat.pow 10 decimal.exponent.natAbs) 1

/-- The nearest whole number, halves rounded away from zero. Numbers below zero count as zero, and
so does what is no number; what is infinite has none. -/
def toWhole : Binary64 → Option Nat
  | nan => some 0
  | infinite true => some 0
  | infinite false => none
  | finite true _ _ => some 0
  | finite false significand exponent =>
    if exponent < 0 then
      let unit := 1 <<< exponent.natAbs
      some ((2 * significand + unit) / (2 * unit))
    else some (significand <<< exponent.natAbs)

end Binary64

end Agenda
