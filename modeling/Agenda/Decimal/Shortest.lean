import Agenda.Decimal.Binary64
import Agenda.Text.Numeral

/-!
# The shortest decimal text of a number

A finite number is written with the fewest digits that read back as the same number. Of the
decimals with that many digits the nearest is taken, and of two that are equally near the larger.
Digits are laid out by position, without an exponent, and a whole number has no point.
-/

namespace Agenda.Binary64

/-- Whether a decimal `numerator / denominator` reads back as `significand * 2 ^ exponent`: it lies
between the middles towards the two neighbours, which themselves belong to the number with the even
significand. Below a significand of one bit alone the neighbour is nearer by half. -/
def readsBack (significand : Nat) (exponent : Int) (numerator denominator : Nat) : Bool :=
  let narrow := significand = significandBound / 2 ∧ minExponent < exponent
  let scaled := scale numerator denominator (exponent - 2)
  let low := (4 * significand - if narrow then 1 else 2) * scaled.2
  let high := (4 * significand + 2) * scaled.2
  if significand % 2 = 0 then low ≤ scaled.1 && scaled.1 ≤ high
  else low < scaled.1 && scaled.1 < high

/-- The number of digits before the point of a quotient of at least one, and minus the number of
zeros behind the point of a smaller one: the `k` with `10 ^ (k - 1) ≤ quotient < 10 ^ k`. -/
def magnitude (numerator denominator : Nat) : Int :=
  if denominator ≤ numerator then (Nat.toDigits 10 (numerator / denominator)).length
  else 1 - (Nat.toDigits 10 ((denominator - 1) / numerator)).length

/-- The decimal on the grid with `places` places that is nearest to a quotient among those that
read back as the number, the larger if two are equally near. -/
def onGrid? (significand : Nat) (exponent : Int) (numerator denominator : Nat) (places : Int) :
    Option Decimal :=
  let tens := Nat.pow 10 places.natAbs
  -- `numerator / denominator` in units of the grid, and the grid's unit itself.
  let inUnits : Nat × Nat :=
    if places < 0 then (numerator, denominator * tens) else (numerator * tens, denominator)
  let value (digits : Nat) : Nat × Nat :=
    if places < 0 then (digits * tens, 1) else (digits, tens)
  let fits (digits : Nat) : Bool :=
    readsBack significand exponent (value digits).1 (value digits).2
  let below := inUnits.1 / inUnits.2
  let upperIsNearer := inUnits.2 ≤ 2 * (inUnits.1 % inUnits.2)
  let digits? : Option Nat :=
    match fits below, fits (below + 1) with
    | true, true => some (if upperIsNearer then below + 1 else below)
    | true, false => some below
    | false, true => some (below + 1)
    | false, false => none
  -- Only a carry into a new digit leaves a zero at the end.
  digits?.map fun digits =>
    if digits % 10 = 0 then ⟨false, digits / 10, 1 - places⟩ else ⟨false, digits, -places⟩

/-- The shortest decimal that reads back as a positive number. Seventeen digits always do. -/
def shortest (significand : Nat) (exponent : Int) : Decimal :=
  let quotient : Nat × Nat :=
    if exponent < 0 then (significand, 1 <<< exponent.natAbs)
    else (significand <<< exponent.natAbs, 1)
  let size := magnitude quotient.1 quotient.2
  let withDigits? (n : Nat) : Option Decimal :=
    onGrid? significand exponent quotient.1 quotient.2 (n - size)
  ((List.range' 1 17).findSome? withDigits?).getD ⟨false, 0, 0⟩

/-- The digits of a decimal laid out by position. -/
def positional (decimal : Decimal) : List Char :=
  if 0 ≤ decimal.exponent then Numeral.ofNat (decimal.digits * Nat.pow 10 decimal.exponent.natAbs)
  else
    let places := decimal.exponent.natAbs
    let digits := Numeral.padded (places + 1) decimal.digits
    digits.take (digits.length - places) ++ '.' :: digits.drop (digits.length - places)

/-- The text of a number. -/
def chars : Binary64 → List Char
  | nan => ['N', 'a', 'N']
  | infinite negative => sign negative ['i', 'n', 'f']
  | finite negative 0 _ => sign negative ['0']
  | finite negative significand exponent =>
    sign negative (positional (shortest significand exponent))
where
  /-- A minus sign in front of what is negative. -/
  sign (negative : Bool) (text : List Char) : List Char :=
    if negative then '-' :: text else text

end Agenda.Binary64
