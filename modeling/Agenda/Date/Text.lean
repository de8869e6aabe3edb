import Agenda.Date.Basic
import Agenda.Text.Numeral

/-!
# Dates as text

A date is written as eight digits, year, month and day (`20240229`). Reading refuses every other
text for one of two reasons: it is not eight digits, or the digits name no day.
-/

namespace Agenda.Date

/-- Why a text is not a date. -/
inductive TextError where
  /-- The text is not exactly eight ASCII digits. -/
  | shape (text : String)
  /-- The eight digits name no day of the calendar. -/
  | calendar (text : String)
deriving DecidableEq

namespace TextError

/-- The refused text. -/
def text : TextError → String
  | shape text | calendar text => text

/-- The wording of the reason. -/
def message : TextError → String
  | shape text => s!"expected 8 digits (YYYYMMDD), got `{text}`"
  | calendar text => s!"`{text}` is not a valid calendar date"

end TextError

/-- The eight digits of a date. -/
def digits (date : Date) : List Char :=
  Numeral.padded 4 date.year.toNat ++ Numeral.padded 2 date.month ++ Numeral.padded 2 date.day

/-- The eight-digit text of a date. -/
def text (date : Date) : String :=
  String.ofList date.digits

/-- The text of a date with dashes, `2024-02-29`. -/
def dashedText (date : Date) : String :=
  String.ofList (Numeral.padded 4 date.year.toNat ++ '-' :: Numeral.padded 2 date.month ++
    '-' :: Numeral.padded 2 date.day)

/-- The date that eight digits name, if they name one. -/
def ofDigits? (digits : List Char) : Option Date :=
  let number (part : List Char) : Nat := Nat.ofDigitChars 10 part 0
  ofYmd? (number (digits.take 4)) (number ((digits.drop 4).take 2)) (number (digits.drop 6))

/-- Reads a date from its eight digits. -/
def ofText (text : String) : Except TextError Date :=
  let chars := text.toList
  if chars.length = 8 ∧ chars.all Char.isDigit then
    match ofDigits? chars with
    | some date => .ok date
    | none => .error (.calendar text)
  else
    .error (.shape text)

end Agenda.Date
