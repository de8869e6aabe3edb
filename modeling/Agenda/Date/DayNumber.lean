import Agenda.Date.Basic

/-!
# Day numbers

Dates counted from January 1 of the year 1, which is day 0 and a Monday. The count turns day
arithmetic into arithmetic of integers: a later day is a larger number, and adding days adds.

- `Date.dayNumber` and `Date.ofDayNumber?`: the count and its inverse, both in closed form.
- `Date.addDays?`, `Date.succ?`, `Date.daysSince`, `Date.weekday`: read off the count.
-/

namespace Agenda

/-- The number of days from January 1 of the year 1 to January 1 of the given year. -/
def daysBeforeYear (year : Int) : Int :=
  let years := year - 1
  365 * years + years / 4 - years / 100 + years / 400

/-- The number of days of a year that lie before the given month. -/
def daysBeforeMonth (year : Int) : Nat → Nat
  | 0 => 0
  | month + 1 => daysBeforeMonth year month + daysInMonth year month

/-- The year in which a day lies: whole periods of 400, 100, 4 and 1 years are taken off in
turn. The last century of 400 years and the last year of four are a day longer than the others,
so of either there are at most three to take off. -/
def yearOfDayNumber (n : Int) : Int :=
  let inFourCenturies := n % 146097
  let centuries := min (inFourCenturies / 36524) 3
  let inCentury := inFourCenturies - 36524 * centuries
  let inFourYears := inCentury % 1461
  let years := min (inFourYears / 365) 3
  400 * (n / 146097) + 100 * centuries + 4 * (inCentury / 1461) + years + 1

/-- The latest of the first `month` months of a year that does not begin after the day with the
given number within the year (counted from 0). -/
def monthOfDay (year : Int) (dayOfYear : Nat) : Nat → Nat
  | 0 => 0
  | month + 1 =>
    if daysBeforeMonth year (month + 1) ≤ dayOfYear then month + 1
    else monthOfDay year dayOfYear month

namespace Date

/-- The number of days from January 1 of the year 1 to the date. -/
def dayNumber (date : Date) : Int :=
  daysBeforeYear date.year + daysBeforeMonth date.year date.month + (date.day - 1 : Int)

/-- The date with the given number, if it lies in the years 1 to 9999. -/
def ofDayNumber? (n : Int) : Option Date :=
  let year := yearOfDayNumber n
  let dayOfYear := (n - daysBeforeYear year).toNat
  let month := monthOfDay year dayOfYear 12
  ofYmd? year month (dayOfYear - daysBeforeMonth year month + 1)

/-- The date a number of days later, unless that lies after the last date. -/
def addDays? (date : Date) (days : Nat) : Option Date :=
  ofDayNumber? (date.dayNumber + days)

/-- The following date; the last date has none. -/
def succ? (date : Date) : Option Date :=
  date.addDays? 1

/-- The number of days from an earlier date to this one; negative if that date is later. -/
def daysSince (date earlier : Date) : Int :=
  date.dayNumber - earlier.dayNumber

/-- The weekday, from 1 for Monday to 7 for Sunday. -/
def weekday (date : Date) : Nat :=
  (date.dayNumber % 7).toNat + 1

end Date

end Agenda
