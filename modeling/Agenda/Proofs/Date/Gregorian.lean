import Agenda.Proofs.Date.Anniversary
import Agenda.Proofs.Date.Month
import Mathlib.Tactic.IntervalCases

/-!
# The Gregorian calendar without its tables

The lengths of the months come from a table, with a test for leap years. Here the days are counted
without either, by the periods of the calendar: in years that begin with March the leap day comes
last, and the months before it take turns in the same way everywhere.

- `Gregorian.daysBefore`: the days before a month, in closed form.
- `Gregorian.HasDay`: what is then a day of a month.
- `Gregorian.daysInMonth_eq` and `Gregorian.dayNumber_eq_daysBefore`: table and count agree.
- `Date.ofYmd?_inYear?_decided`: which triples and years have a date, by either of the two.
-/

namespace Agenda

namespace Gregorian

/-- The number of days from March 1 of the year 0 to the first of a month, which is given by its
number in the count of all months. A year has 365 days, and in front of it lies a leap day for every
fourth year, but for every fourth century only; five months in a row have 153 days. -/
def daysBefore (index : Int) : Int :=
  let years := (index - 3) / 12
  let months := (index - 3) % 12
  365 * years + years / 4 - years / 100 + years / 400 + (153 * months + 2) / 5

/-- The month is one of the twelve, and the day comes before the first of the next month. -/
def HasDay (year : Int) (month day : Nat) : Prop :=
  (1 ≤ month ∧ month ≤ 12) ∧ 1 ≤ day ∧
    daysBefore (12 * year + month) + day ≤ daysBefore (12 * year + month + 1)

/-- The years that the calendar covers, which are many more than have dates. -/
def Covers (year : Int) : Prop :=
  -262143 ≤ year ∧ year ≤ 262142

theorem isLeap_iff_of_covers {year : Int} (h : Covers year) :
    isLeap year = true ↔ year % 4 = 0 ∧ (year % 100 ≠ 0 ∨ year % 400 = 0) := by
  obtain ⟨hfirst, hlast⟩ := h
  simp [isLeap]
  omega

/-- The table has the length of a month from its first to the first of the next. -/
theorem daysInMonth_eq {year : Int} (hyear : Covers year) {month : Nat}
    (hmonth : 1 ≤ month ∧ month ≤ 12) :
    (daysInMonth year month : Int) =
      daysBefore (12 * year + month + 1) - daysBefore (12 * year + month) := by
  have hleap := isLeap_iff_of_covers hyear
  obtain ⟨hfirst, hlast⟩ := hmonth
  unfold daysBefore
  by_cases htwo : month = 2
  · -- February ends with the year that is counted from March.
    subst htwo
    rw [daysInMonth_two]
    split
    next hyes =>
      have := hleap.1 hyes
      push_cast
      omega
    next hno =>
      have := mt hleap.2 hno
      push_cast
      omega
  · -- No other month does, so that the years before it and before the next month are the same.
    have hyears : (12 * year + month + 1 - 3) / 12 = (12 * year + month - 3) / 12 := by omega
    have hmonths : (12 * year + month + 1 - 3) % 12 = (12 * year + month - 3) % 12 + 1 := by omega
    have hmonth : (12 * year + month - 3) % 12 = (month + 9 : Int) % 12 := by omega
    dsimp only
    rw [hyears, hmonths, hmonth]
    generalize (12 * year + month - 3) / 12 = years
    interval_cases month <;> simp only [daysInMonth] <;> omega

/-- By the table a month has the same days as by the count. -/
theorem hasDay_iff {year : Int} (hyear : Covers year) {month day : Nat} :
    HasDay year month day ↔
      (1 ≤ month ∧ month ≤ 12) ∧ 1 ≤ day ∧ day ≤ daysInMonth year month := by
  refine and_congr_right fun hmonth => and_congr_right fun _ => ?_
  have hlength := daysInMonth_eq hyear hmonth
  omega

/-- The leap years are those in which the count has a February 29. -/
theorem isLeap_iff_hasDay (year : Int) : isLeap year = true ↔ Covers year ∧ HasDay year 2 29 := by
  by_cases hyear : Covers year
  · rw [hasDay_iff hyear, daysInMonth_two]
    cases hleap : isLeap year <;> simp [hyear]
  · have hcommon : isLeap year = false := by
      unfold Covers at hyear
      simp [isLeap]
      omega
    simp [hyear, hcommon]

/-- The days before a month of the year, added up by the table, are those of the count. -/
private theorem daysBeforeMonth_eq {year : Int} (hyear : Covers year) {month : Nat}
    (hmonth : 1 ≤ month ∧ month ≤ 12) :
    daysBeforeYear year + daysBeforeMonth year month = daysBefore (12 * year + month) - 306 := by
  obtain ⟨hfirst, hlast⟩ := hmonth
  induction month, hfirst using Nat.le_induction with
  | base =>
    unfold daysBeforeYear daysBefore
    have hzero : daysBeforeMonth year 1 = 0 := rfl
    rw [hzero]
    push_cast
    omega
  | succ month hfirst ih =>
    have hlength := daysInMonth_eq hyear (show 1 ≤ month ∧ month ≤ 12 by omega)
    have hbefore := ih (by omega)
    rw [daysBeforeMonth]
    push_cast
    rw [← add_assoc (12 * year)]
    omega

/-- The number of a date is found by the count. -/
theorem dayNumber_eq_daysBefore (date : Date) :
    date.dayNumber = daysBefore date.monthIndex + date.day - 307 := by
  obtain ⟨⟨hfirst, hlast⟩, hmonth, -⟩ := date.onCalendar
  unfold maxYear at hlast
  have hbefore := daysBeforeMonth_eq (show Covers date.year from ⟨by omega, by omega⟩) hmonth
  unfold Date.dayNumber Date.monthIndex
  omega

end Gregorian

namespace Date

/-- A date of another year has the month and the day of the first, except that February 29 becomes
February 28 in the years that the rule of the centuries leaves without one. -/
private theorem anniversary_iff_rule {anchor date : Date} :
    anchor.Anniversary date ↔ date.month = anchor.month ∧
      date.day = if anchor.IsLeapDay ∧
        (date.year % 4 ≠ 0 ∨ date.year % 100 = 0 ∧ date.year % 400 ≠ 0) then 28
      else anchor.day := by
  have hleap := isLeap_iff date.onCalendar.1
  by_cases hday : anchor.IsLeapDay
  · rw [anniversary_iff_of_isLeapDay hday, hday.1, hday.2]
    refine and_congr_right fun _ => ?_
    by_cases hyes : isLeap date.year = true
    · have hrule := hleap.1 hyes
      rw [if_pos hyes, if_neg (by omega)]
    · have hrule := mt hleap.2 hyes
      rw [if_neg hyes, if_pos ⟨hday, by omega⟩]
  · rw [anniversary_iff_of_not_isLeapDay hday, if_neg (fun h => hday h.1)]

/-- A triple has a date exactly if it is on the calendar. -/
private theorem exists_ofYmd?_iff {year : Int} {month day : Nat} :
    (∃ found, ofYmd? year month day = some found) ↔ OnCalendar year month day := by
  constructor
  · rintro ⟨found, hfound⟩
    obtain ⟨rfl, rfl, rfl⟩ := ofYmd?_eq_some_iff.1 hfound
    exact found.onCalendar
  · exact fun h => ⟨_, dif_pos h⟩

/-- The date of another year, by the rule of the centuries. -/
private theorem inYear?_eq_some_iff_rule {date other : Date} {year : Int} :
    date.inYear? year = some other ↔ (1 ≤ year ∧ year ≤ 9999) ∧ other.year = year ∧
      other.month = date.month ∧
      other.day = if (date.month = 2 ∧ date.day = 29) ∧
        (year % 4 ≠ 0 ∨ year % 100 = 0 ∧ year % 400 ≠ 0) then 28 else date.day := by
  rw [inYear?_eq_some_iff, anniversary_iff_rule]
  constructor
  · rintro ⟨rfl, hmonth, hday⟩
    exact ⟨other.onCalendar.1, rfl, hmonth, hday⟩
  · rintro ⟨-, rfl, hmonth, hday⟩
    exact ⟨rfl, hmonth, hday⟩

/-- Exactly the triples of the years 1 to 9999 whose day is one of the month's have a date, which
reads back as the triple. The length of a month is the table's, and the calendar that is counted
without the table has the same days, the leap days among them. In another year the same month and
day have a date exactly if the year has dates at all; only a February 29 becomes the 28th, in the
years that are no leap years by the rule of the centuries. -/
theorem ofYmd?_inYear?_decided (year : Int) (month day : Nat) (date other : Date) :
    (((∃ found, ofYmd? year month day = some found) ↔ (1 ≤ year ∧ year ≤ 9999) ∧
          (1 ≤ month ∧ month ≤ 12) ∧ 1 ≤ day ∧ day ≤ daysInMonth year month) ∧
        (ofYmd? year month day = some date ↔
          date.year = year ∧ date.month = month ∧ date.day = day)) ∧
      (((∃ found, ofYmd? year month day = some found) ↔
          (1 ≤ year ∧ year ≤ 9999) ∧ Gregorian.HasDay year month day) ∧
        (isLeap year = true ↔ Gregorian.Covers year ∧ Gregorian.HasDay year 2 29) ∧
        date.dayNumber = Gregorian.daysBefore date.monthIndex + date.day - 307) ∧
      (date.inYear? year = some other ↔ (1 ≤ year ∧ year ≤ 9999) ∧ other.year = year ∧
          other.month = date.month ∧
          other.day = if (date.month = 2 ∧ date.day = 29) ∧
            (year % 4 ≠ 0 ∨ year % 100 = 0 ∧ year % 400 ≠ 0) then 28 else date.day) ∧
      (date.inYear? year = none ↔ ¬ (1 ≤ year ∧ year ≤ 9999)) := by
  have hcounted : OnCalendar year month day ↔
      (1 ≤ year ∧ year ≤ 9999) ∧ Gregorian.HasDay year month day := by
    refine and_congr_right fun hyear => ?_
    unfold maxYear at hyear
    exact (Gregorian.hasDay_iff ⟨by omega, by omega⟩).symm
  refine ⟨⟨exists_ofYmd?_iff, ofYmd?_eq_some_iff⟩, ⟨?_, Gregorian.isLeap_iff_hasDay year,
    Gregorian.dayNumber_eq_daysBefore date⟩, inYear?_eq_some_iff_rule, inYear?_eq_none_iff⟩
  rw [exists_ofYmd?_iff]
  exact hcounted

/-- A full century is a leap year only every fourth time. -/
example : ofYmd? 1900 2 29 = none ∧ ∃ found, ofYmd? 2000 2 29 = some found :=
  ⟨by decide, ⟨2000, 2, 29, by decide⟩, by decide⟩

end Date

end Agenda
