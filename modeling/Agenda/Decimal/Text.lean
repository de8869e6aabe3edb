import Agenda.Decimal.Binary64
import Agenda.Text.Numeral

/-!
# Reading a number

A number is written as an optional sign and either a name (`inf`, `infinity`, `nan` in any case)
or digits, with an optional point among them, in front of them or behind them, and an optional
exponent of ten.
-/

namespace Agenda.Binary64

/-- Digits before and behind a point as one decimal; there must be at least one digit. -/
def joinDigits? (negative : Bool) (whole fraction : List Char) (exponent : Int) :
    Option Decimal :=
  (Numeral.digits? (whole ++ fraction)).map fun digits =>
    ⟨negative, digits, exponent - fraction.length⟩

/-- The part behind the point, without it, and what follows it. -/
def fractionPart : List Char → List Char × List Char
  | '.' :: rest => rest.span Char.isDigit
  | rest => ([], rest)

/-- The exponent behind its mark; nothing stands for an exponent of zero. -/
def exponentPart? : List Char → Option Int
  | [] => some 0
  | mark :: digits => if mark = 'e' ∨ mark = 'E' then Numeral.int? digits else none

/-- The decimal that a text without a sign names. -/
def unsigned? (negative : Bool) (text : List Char) : Option Decimal := do
  let (whole, rest) := text.span Char.isDigit
  let (fraction, rest) := fractionPart rest
  joinDigits? negative whole fraction (← exponentPart? rest)

/-- The number that a text without a sign names. -/
def magnitudeOf? (negative : Bool) (text : List Char) : Option Binary64 :=
  match String.ofList (text.map Char.toLower) with
  | "inf" | "infinity" => some (infinite negative)
  | "nan" => some nan
  | _ => (unsigned? negative text).map ofDecimal

/-- The number that a text names. -/
def ofChars? : List Char → Option Binary64
  | '+' :: text => magnitudeOf? false text
  | '-' :: text => magnitudeOf? true text
  | text => magnitudeOf? false text

end Agenda.Binary64
