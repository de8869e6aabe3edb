import Agenda.Proofs.Date.Order
import Mathlib.Tactic.IntervalCases

/-!
# The calendar day by day

The arithmetic of days goes through day numbers, which are computed in closed form. Here it is held
against the calendar as it is walked: from each day to the next by the lengths of the months.

- `Date.following?`: the next year, month and day, and `Date.walk?`: a number of such steps.
- `Date.succ?_eq_following?` and `Date.addDays?_eq_walk?`: the closed form takes the same steps.
- `Date.weekday_of_addDays?`: the weekdays go round with the days.
- `Date.day_arithmetic_consistent`: what holds of added days, counted days, weekdays and steps.
-/

namespace Agenda

/-- No month is shorter than 28 days. -/
theorem le_daysInMonth (year : Int) {month : Nat} (h : 1 ≤ month ∧ month ≤ 12) :
    28 ≤ daysInMonth year month := by
  obtain ⟨hfirst, hlast⟩ := h
  interval_cases month <;> simp only [daysInMonth] <;> (try split) <;> omega

namespace Date

/-! ## Steps -/

/-- The next day within the month, or else the first of the next month, or else January 1 of the
next year. There is none after the last year. -/
def following? (date : Date) : Option Date :=
  if date.day < daysInMonth date.year date.month then ofYmd? date.year date.month (date.day + 1)
  else if date.month < 12 then ofYmd? date.year (date.month + 1) 1
  else ofYmd? (date.year + 1) 1 1

/-- The day that a number of steps leads to. -/
def walk? (date : Date) : Nat → Option Date
  | 0 => some date
  | n + 1 => (date.walk? n).bind following?

/-- The first of the next month comes a month's length after the first of the month. -/
private theorem dayNumber_of_month {date next : Date} (hyear : next.year = date.year)
    (hmonth : next.month = date.month + 1) (hday : next.day = 1)
    (hend : date.day = daysInMonth date.year date.month) :
    next.dayNumber = date.dayNumber + 1 := by
  unfold dayNumber
  rw [hyear, hmonth, hday, hend, daysBeforeMonth]
  push_cast
  omega

/-- New Year's Day comes a year's length after the last one. -/
private theorem dayNumber_of_year {date next : Date} (hyear : next.year = date.year + 1)
    (hmonth : next.month = 1) (hday : next.day = 1) (hdecember : date.month = 12)
    (hend : date.day = 31) :
    next.dayNumber = date.dayNumber + 1 := by
  have hlength : daysBeforeMonth date.year 12 + 31 = if isLeap date.year then 366 else 365 :=
    daysBeforeMonth_thirteen date.year
  have hfirst : daysBeforeMonth (date.year + 1) 1 = 0 := rfl
  unfold dayNumber
  rw [hyear, hmonth, hday, hdecember, hend, hfirst, daysBeforeYear_succ date.onCalendar.1]
  split at hlength
  next hleap =>
    rw [if_pos hleap]
    omega
  next hcommon =>
    rw [if_neg hcommon]
    omega

/-- A step leads to the day with the next number. -/
private theorem dayNumber_of_following? {date next : Date} (h : date.following? = some next) :
    next.dayNumber = date.dayNumber + 1 := by
  obtain ⟨-, hmonths, -, hlength⟩ := date.onCalendar
  unfold following? at h
  split at h
  next =>
    obtain ⟨hyear, hmonth, hday⟩ := ofYmd?_eq_some_iff.1 h
    unfold dayNumber
    rw [hyear, hmonth, hday]
    push_cast
    omega
  next hlast =>
    have hend : date.day = daysInMonth date.year date.month := by omega
    split at h
    next =>
      obtain ⟨hyear, hmonth, hday⟩ := ofYmd?_eq_some_iff.1 h
      exact dayNumber_of_month hyear hmonth hday hend
    next hdecember =>
      obtain ⟨hyear, hmonth, hday⟩ := ofYmd?_eq_some_iff.1 h
      have htwelve : date.month = 12 := by omega
      rw [htwelve] at hend
      exact dayNumber_of_year hyear hmonth hday htwelve hend

/-- From every day but the last of the last year a step leads on. -/
private theorem exists_following? {date : Date} (h : date ≠ last) :
    ∃ next, date.following? = some next := by
  obtain ⟨hyears, hmonths, hfirst, hlength⟩ := date.onCalendar
  unfold following?
  split
  next hwithin => exact ⟨_, dif_pos ⟨hyears, hmonths, by omega, hwithin⟩⟩
  next hlast =>
    split
    next hmonth =>
      have hnext : 1 ≤ date.month + 1 ∧ date.month + 1 ≤ 12 := by omega
      have hlong := le_daysInMonth date.year hnext
      exact ⟨_, dif_pos ⟨hyears, hnext, le_refl 1, by omega⟩⟩
    next hdecember =>
      have htwelve : date.month = 12 := by omega
      have hday : date.day = 31 := by
        rw [htwelve] at hlast hlength
        exact Nat.le_antisymm hlength (Nat.not_lt.1 hlast)
      have hyear : date.year ≠ 9999 := fun hyear => h (Date.ext hyear htwelve hday)
      have hnext : 1 ≤ date.year + 1 ∧ date.year + 1 ≤ maxYear := by
        unfold maxYear at hyears ⊢
        omega
      exact ⟨_, dif_pos ⟨hnext, by decide, le_refl 1, (by decide : 1 ≤ 31)⟩⟩

/-- The following date of the closed form is that of the calendar. -/
theorem succ?_eq_following? (date : Date) : date.succ? = date.following? := by
  by_cases h : date = last
  · rw [succ?_eq_none_iff.2 h, h]
    rfl
  · obtain ⟨next, hnext⟩ := exists_following? h
    rw [hnext]
    exact succ?_eq_some_iff.2 (dayNumber_of_following? hnext)

/-- To add a number of days is to take as many steps. -/
theorem addDays?_eq_walk? (date : Date) (n : Nat) : date.addDays? n = date.walk? n := by
  induction n with
  | zero => exact addDays?_eq_some_iff.2 (Int.sub_self _)
  | succ n ih =>
    have hstep : (fun d : Date => d.addDays? 1) = following? := funext succ?_eq_following?
    rw [walk?, ← ih, ← hstep, addDays?_bind]

/-! ## The laws -/

/-- The weekdays go round with the days. -/
theorem weekday_of_addDays? {a b : Date} {n : Nat} (h : a.addDays? n = some b) :
    b.weekday = (a.weekday - 1 + n) % 7 + 1 := by
  have hdistance := addDays?_eq_some_iff.1 h
  unfold daysSince at hdistance
  unfold weekday
  omega

/-- The sign of the days since a date tells which of the two is the earlier. -/
theorem daysSince_sign (a b : Date) :
    (0 < b.daysSince a ↔ a < b) ∧ (b.daysSince a = 0 ↔ a = b) ∧ (b.daysSince a < 0 ↔ b < a) := by
  unfold daysSince
  rw [← dayNumber_lt_iff, ← dayNumber_lt_iff, ← dayNumber_inj]
  omega

/-- The arithmetic of days agrees with itself and with the calendar. A number of days leads from one
date to another exactly if that many have passed between the two, and beyond the calendar exactly
if fewer remain of it; added days add up. Counted days change their sign with the direction, add
up, and order the dates. The weekdays go round with the days. One day leads to the next year, month
and day, and any number of days to where as many steps lead. -/
theorem day_arithmetic_consistent (a b c : Date) (m n : Nat) :
    ((a.addDays? n = some b ↔ b.daysSince a = n) ∧
        (a.addDays? n = none ↔ last.daysSince a < n) ∧
        (a.addDays? m).bind (·.addDays? n) = a.addDays? (m + n)) ∧
      (a.daysSince b = -b.daysSince a ∧ c.daysSince a = c.daysSince b + b.daysSince a ∧
        (0 < b.daysSince a ↔ a < b) ∧ (b.daysSince a = 0 ↔ a = b) ∧
        (b.daysSince a < 0 ↔ b < a)) ∧
      (a.addDays? n = some b → b.weekday = (a.weekday - 1 + n) % 7 + 1) ∧
      a.succ? = a.following? ∧ a.addDays? n = a.walk? n := by
  have hbeyond : a.addDays? n = none ↔ last.daysSince a < n := by
    rw [addDays?_eq_none_iff]
    unfold daysSince
    omega
  have hback : a.daysSince b = -b.daysSince a := by
    unfold daysSince
    omega
  have hsum : c.daysSince a = c.daysSince b + b.daysSince a := by
    unfold daysSince
    omega
  exact ⟨⟨addDays?_eq_some_iff, hbeyond, addDays?_bind a m n⟩, ⟨hback, hsum, daysSince_sign a b⟩,
    weekday_of_addDays?, succ?_eq_following? a, addDays?_eq_walk? a n⟩

/-- From February 28 of the year 2000, a Monday, 366 days lead to the same day of the year after, a
Wednesday, since the century year is a leap year. -/
theorem day_arithmetic_consistent_century :
    let a : Date := ⟨2000, 2, 28, by decide⟩
    let b : Date := ⟨2001, 2, 28, by decide⟩
    a.addDays? 366 = some b ∧ b.weekday = (a.weekday - 1 + 366) % 7 + 1 ∧
      a.weekday = 1 ∧ b.weekday = 3 := by
  intro a b
  have hadd : a.addDays? 366 = some b := by decide
  obtain ⟨-, -, hweekday, -⟩ := day_arithmetic_consistent a b a 0 366
  exact ⟨hadd, hweekday hadd, by decide, by decide⟩

end Date

end Agenda
