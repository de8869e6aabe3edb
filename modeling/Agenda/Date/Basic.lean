/-!
# Calendar dates

Dates of the proleptic Gregorian calendar in the years 1 to 9999, without a time of day.

- `isLeap`, `daysInMonth`: the calendar's two tables.
- `OnCalendar`: the triples that name a day; every `Date` carries a proof of it.
- `Date.ofYmd?`: the only way from a triple to a date, pinned down by `ofYmd?_eq_some_iff`.
- Dates are ordered by year, then month, then day.
-/

namespace Agenda

/-- Whether a year has a February 29: every fourth year, but of the full centuries only every
fourth. The calendar's tables cover the years −262143 to 262142; outside them no year is leap. -/
def isLeap (year : Int) : Bool :=
  (-262143 ≤ year && year ≤ 262142) &&
    (year % 4 == 0 && (year % 100 != 0 || year % 400 == 0))

/-- The number of days in a month of a year, and 0 for a month that does not exist. -/
def daysInMonth (year : Int) (month : Nat) : Nat :=
  match month with
  | 1 | 3 | 5 | 7 | 8 | 10 | 12 => 31
  | 4 | 6 | 9 | 11 => 30
  | 2 => if isLeap year then 29 else 28
  | _ => 0

/-- The last year that has dates. -/
def maxYear : Int := 9999

/-- A triple that names a day of the years 1 to 9999. -/
def OnCalendar (year : Int) (month day : Nat) : Prop :=
  (1 ≤ year ∧ year ≤ maxYear) ∧ (1 ≤ month ∧ month ≤ 12) ∧ 1 ≤ day ∧ day ≤ daysInMonth year month

instance (year : Int) (month day : Nat) : Decidable (OnCalendar year month day) := by
  unfold OnCalendar
  infer_instance

/-- A day of the years 1 to 9999. -/
@[ext]
structure Date where
  /-- The year, 1 to 9999. -/
  year : Int
  /-- The month, 1 to 12. -/
  month : Nat
  /-- The day of the month, 1 to the month's length. -/
  day : Nat
  /-- The three name a day of the calendar. -/
  onCalendar : OnCalendar year month day
deriving DecidableEq

namespace Date

/-- The date with the given year, month and day, if there is one. -/
def ofYmd? (year : Int) (month day : Nat) : Option Date :=
  if h : OnCalendar year month day then some ⟨year, month, day, h⟩ else none

/-- A triple gives a date exactly if it is on the calendar, and the date reads back as it. -/
theorem ofYmd?_eq_some_iff {year : Int} {month day : Nat} {date : Date} :
    ofYmd? year month day = some date ↔
      date.year = year ∧ date.month = month ∧ date.day = day := by
  unfold ofYmd?
  constructor
  · intro h
    split at h
    · cases h
      exact ⟨rfl, rfl, rfl⟩
    · cases h
  · rintro ⟨rfl, rfl, rfl⟩
    simp [date.onCalendar]

/-- A date is the one that its own year, month and day name. -/
@[simp]
theorem ofYmd?_self (date : Date) : ofYmd? date.year date.month date.day = some date :=
  ofYmd?_eq_some_iff.2 ⟨rfl, rfl, rfl⟩

/-- The last date, December 31 of the year 9999. -/
def last : Date := ⟨9999, 12, 31, by decide⟩

/-- Earlier in the calendar: by year, then month, then day. -/
protected def Lt (a b : Date) : Prop :=
  a.year < b.year ∨
    a.year = b.year ∧ (a.month < b.month ∨ a.month = b.month ∧ a.day < b.day)

instance : LT Date := ⟨Date.Lt⟩

instance : LE Date := ⟨fun a b => ¬ b < a⟩

instance (a b : Date) : Decidable (a < b) := by
  change Decidable (Date.Lt a b)
  unfold Date.Lt
  infer_instance

instance (a b : Date) : Decidable (a ≤ b) :=
  inferInstanceAs (Decidable (¬ b < a))

instance : Max Date := ⟨fun a b => if a < b then b else a⟩

/-- The number of days in the date's month. -/
def monthLength (date : Date) : Nat :=
  daysInMonth date.year date.month

/-- The same month and day in another year; February 29 becomes February 28 in a common year.
There is none in a year without dates. -/
def inYear? (date : Date) (year : Int) : Option Date :=
  let day := if date.month = 2 ∧ date.day = 29 ∧ ! isLeap year then 28 else date.day
  ofYmd? year date.month day

end Date

end Agenda
