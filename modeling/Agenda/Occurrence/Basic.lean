import Agenda.Date.DayNumber
import Agenda.Rule.Basic

/-!
# Occurrences

What it means that a rule, counted from an anchor day, falls on a day. Nothing here searches:
`Rule.Occurs` is the meaning of a rule, against which a search can be held.

- `Date.Anniversary`: the same day of another year.
- `Rule.OnWeekday` and `Rule.OnMonthDay`: the days that the lists of a weekly and of a monthly rule
  name, whatever the anchor.
-/

namespace Agenda

/-- The date has the month and the day of the anchor, or it is February 28 of a common year and
stands for the February 29 of the anchor. -/
def Date.Anniversary (anchor date : Date) : Prop :=
  date.month = anchor.month ∧
    (date.day = anchor.day ∨
      (anchor.month = 2 ∧ anchor.day = 29) ∧ isLeap date.year = false ∧ date.day = 28)

namespace Rule

/-- The day of a month with `length` days that an entry names: itself if it is positive, counted
from the month's end if it is negative. -/
def EntryNames (entry : Int) (length day : Nat) : Prop :=
  (entry = day ∨ entry = (day : Int) - length - 1) ∧ 1 ≤ day ∧ day ≤ length

instance (entry : Int) (length day : Nat) : Decidable (EntryNames entry length day) :=
  inferInstanceAs (Decidable (_ ∧ _))

/-- The weekday of the date is listed. -/
def OnWeekday (days : SortedSet UInt32) (date : Date) : Prop :=
  ∃ d ∈ days, d.toNat = date.weekday

/-- The month of the date is listed, or no month is, and one of the entries names its day. -/
def OnMonthDay (days : SortedSet Int32) (months : SortedSet UInt32) (date : Date) : Prop :=
  (months.isEmpty = true ∨ ∃ m ∈ months, m.toNat = date.month) ∧
    ∃ entry ∈ days, EntryNames entry.toInt date.monthLength date.day

/-- The rule, counted from the anchor, falls on the date. -/
def Occurs (anchor date : Date) : Rule → Prop
  | once => date = anchor
  | daily interval => ∃ k : Nat, date.daysSince anchor = k * interval.toNat
  | yearly => anchor.year ≤ date.year ∧ anchor.Anniversary date
  | weekly days => anchor ≤ date ∧ OnWeekday days date
  | monthly days months => anchor ≤ date ∧ OnMonthDay days months date

end Rule

end Agenda
