import Agenda.Date.DayNumber.Lemmas
import Mathlib.Order.Bounds.Basic
import Mathlib.Order.MinMax

/-!
# The calendar as a linear order

Dates are linearly ordered, and their day numbers run without a gap from January 1 of the year 1
to December 31 of the year 9999.

- `Date.first_le` and `Date.le_last`: the ends of the calendar.
- `Date.exists_dayNumber_eq`: every number between those of the ends is the number of a date.
- `Date.addDays?_eq_none_iff` and `Date.addDays?_bind`: adding days fails exactly beyond the last
  date, and added days add up.
- `Date.daysSince_lt_iff` and `Date.daysSince_le_iff`: the dates' order is that of the days since any
  one of them.
- `Date.succ?_eq_some_iff` and `Date.succ?_eq_none_iff`: what the following date is.
-/

namespace Agenda

/-- No month is longer than 31 days. -/
theorem daysInMonth_le (year : Int) (month : Nat) : daysInMonth year month ≤ 31 := by
  unfold daysInMonth
  split <;> (try split) <;> omega

namespace Date

/-! ## The order -/

-- The laws are those of the day numbers. Order and decisions are the ones that dates have already,
-- so that what is proved about them also holds of what is computed.
instance : LinearOrder Date where
  le := fun a b => a ≤ b
  lt := fun a b => a < b
  max := fun a b => max a b
  le_refl a := by
    rw [← dayNumber_le_iff]
  le_trans a b c hab hbc := by
    rw [← dayNumber_le_iff] at hab hbc ⊢
    omega
  le_antisymm a b hab hba := by
    rw [← dayNumber_le_iff] at hab hba
    exact dayNumber_inj.1 (by omega)
  lt_iff_le_not_ge a b := by
    rw [← dayNumber_lt_iff, ← dayNumber_le_iff, ← dayNumber_le_iff]
    omega
  le_total a b := by
    rw [← dayNumber_le_iff, ← dayNumber_le_iff]
    omega
  max_def a b := by
    change (if a < b then b else a) = if a ≤ b then b else a
    by_cases hlt : a < b
    · have hle : a ≤ b := dayNumber_le_iff.1 (Int.le_of_lt (dayNumber_lt_iff.2 hlt))
      rw [if_pos hlt, if_pos hle]
    · rw [if_neg hlt]
      split
      next hle =>
        have hnum := dayNumber_le_iff.2 hle
        rw [← dayNumber_lt_iff] at hlt
        exact dayNumber_inj.1 (by omega)
      next => rfl
  toDecidableLE := inferInstance
  toDecidableLT := inferInstance
  toDecidableEq := inferInstance

/-! ## The ends of the calendar -/

/-- The first date, January 1 of the year 1. -/
def first : Date := ⟨1, 1, 1, by decide⟩

theorem first_le (date : Date) : first ≤ date := by
  obtain ⟨hyear, hmonth, hday⟩ := date.onCalendar
  refine not_lt.1 fun h => ?_
  rcases h with h | ⟨-, h | ⟨-, h⟩⟩ <;> simp only [first] at h <;> omega

theorem le_last (date : Date) : date ≤ last := by
  obtain ⟨hyear, hmonth, -, hday⟩ := date.onCalendar
  have hlength := daysInMonth_le date.year date.month
  unfold maxYear at hyear
  refine not_lt.1 fun h => ?_
  rcases h with h | ⟨-, h | ⟨-, h⟩⟩ <;> simp only [last] at h <;> omega

/-- A day number lies between those of the first and the last date. -/
theorem dayNumber_range (date : Date) : 0 ≤ date.dayNumber ∧ date.dayNumber ≤ 3652058 :=
  ⟨dayNumber_le_iff.2 date.first_le, dayNumber_le_iff.2 date.le_last⟩

/-! ## Every day is a date -/

/-- A year whose days are counted within the calendar is one of its years. -/
private theorem yearOfDayNumber_bounds {n : Int} (hn : 0 ≤ n ∧ n ≤ 3652058) :
    1 ≤ yearOfDayNumber n ∧ yearOfDayNumber n ≤ maxYear := by
  obtain ⟨hle, hlt⟩ := daysBeforeYear_yearOfDayNumber n
  simp only [daysBeforeYear] at hle hlt
  unfold maxYear
  omega

private theorem monthOfDay_le (year : Int) (day bound : Nat) :
    monthOfDay year day bound ≤ bound := by
  induction bound with
  | zero => exact Nat.le_refl _
  | succ bound ih =>
    unfold monthOfDay
    split
    · exact Nat.le_refl _
    · exact Nat.le_succ_of_le ih

/-- The months after the one that is computed for a day begin after the day. -/
private theorem lt_daysBeforeMonth {year : Int} {day month bound : Nat}
    (h : monthOfDay year day bound < month) (hbound : month ≤ bound) :
    day < daysBeforeMonth year month := by
  induction bound with
  | zero => omega
  | succ bound ih =>
    unfold monthOfDay at h
    split at h
    · omega
    next hgt =>
      rcases Nat.lt_or_eq_of_le hbound with hlt | rfl
      · exact ih h (Nat.le_of_lt_succ hlt)
      · omega

/-- A day of a year is a day of the month that is computed for it. -/
private theorem monthOfDay_spec {year : Int} {day : Nat}
    (hday : day < daysBeforeMonth year 13) :
    (1 ≤ monthOfDay year day 12 ∧ monthOfDay year day 12 ≤ 12) ∧
      daysBeforeMonth year (monthOfDay year day 12) ≤ day ∧
      day < daysBeforeMonth year (monthOfDay year day 12 + 1) := by
  have hle := monthOfDay_le year day 12
  have hne : monthOfDay year day 12 ≠ 0 := by
    intro h
    have hlt : day < daysBeforeMonth year 1 := lt_daysBeforeMonth (h ▸ Nat.one_pos) (by omega)
    exact absurd hlt (Nat.not_lt_zero day)
  refine ⟨⟨by omega, hle⟩, daysBeforeMonth_monthOfDay_le hne, ?_⟩
  -- The month after December does not exist, but the year's length bounds its days.
  rcases Nat.lt_or_eq_of_le hle with hlt | heq
  · exact lt_daysBeforeMonth (Nat.lt_succ_self _) hlt
  · rw [heq]
    exact hday

/-- Every number between those of the first and the last date is the number of a date. -/
theorem exists_dayNumber_eq {n : Int} (hn : 0 ≤ n ∧ n ≤ 3652058) :
    ∃ date : Date, date.dayNumber = n := by
  have hyear := yearOfDayNumber_bounds hn
  -- The day within its year is less than the year's length, so it is a day of one of its months.
  obtain ⟨hle, hlt⟩ := daysBeforeYear_yearOfDayNumber n
  rw [daysBeforeYear_succ hyear] at hlt
  have hday : (n - daysBeforeYear (yearOfDayNumber n)).toNat <
      daysBeforeMonth (yearOfDayNumber n) 13 := by
    rw [daysBeforeMonth_thirteen]
    split at hlt
    next hleap =>
      rw [if_pos hleap]
      omega
    next hcommon =>
      rw [if_neg hcommon]
      omega
  obtain ⟨hmonth, hbegin, hend⟩ := monthOfDay_spec hday
  rw [daysBeforeMonth] at hend
  have hcalendar : OnCalendar (yearOfDayNumber n)
      (monthOfDay (yearOfDayNumber n) (n - daysBeforeYear (yearOfDayNumber n)).toNat 12)
      ((n - daysBeforeYear (yearOfDayNumber n)).toNat - daysBeforeMonth (yearOfDayNumber n)
        (monthOfDay (yearOfDayNumber n) (n - daysBeforeYear (yearOfDayNumber n)).toNat 12) + 1) :=
    ⟨hyear, hmonth, by omega, by omega⟩
  exact ⟨⟨_, _, _, hcalendar⟩, ofDayNumber?_eq_some_iff.1 (dif_pos hcalendar)⟩

/-! ## Later days -/

/-- Adding days fails exactly if it leads beyond the last date. -/
theorem addDays?_eq_none_iff {date : Date} {days : Nat} :
    date.addDays? days = none ↔ last.dayNumber < date.dayNumber + days := by
  -- This is the number of the last date, and the greatest that `dayNumber_range` allows.
  change _ ↔ 3652058 < date.dayNumber + days
  constructor
  · intro hnone
    by_contra hle
    have hrange := date.dayNumber_range
    have hn : 0 ≤ date.dayNumber + days ∧ date.dayNumber + days ≤ 3652058 := by omega
    obtain ⟨later, hlater⟩ := exists_dayNumber_eq hn
    have hsome : date.addDays? days = some later := ofDayNumber?_eq_some_iff.2 hlater
    rw [hnone] at hsome
    cases hsome
  · intro hlt
    cases hadd : date.addDays? days with
    | none => rfl
    | some later =>
      have hnumber := ofDayNumber?_eq_some_iff.1 hadd
      have := later.dayNumber_range
      omega

/-- The days since any one date are ordered as the dates. -/
theorem daysSince_lt_iff (origin : Date) {a b : Date} :
    a.daysSince origin < b.daysSince origin ↔ a < b := by
  unfold daysSince
  rw [← dayNumber_lt_iff]
  omega

theorem daysSince_le_iff (origin : Date) {a b : Date} :
    a.daysSince origin ≤ b.daysSince origin ↔ a ≤ b := by
  unfold daysSince
  rw [← dayNumber_le_iff]
  omega

/-- Days may be added in two steps. -/
theorem addDays?_bind (date : Date) (m n : Nat) :
    (date.addDays? m).bind (·.addDays? n) = date.addDays? (m + n) := by
  cases hfirst : date.addDays? m with
  | none =>
    -- Beyond the last date there is no way back.
    rw [addDays?_eq_none_iff] at hfirst
    symm
    show date.addDays? (m + n) = none
    rw [addDays?_eq_none_iff]
    omega
  | some later =>
    have hnumber : later.dayNumber = date.dayNumber + m := ofDayNumber?_eq_some_iff.1 hfirst
    show ofDayNumber? (later.dayNumber + n) = ofDayNumber? (date.dayNumber + (m + n : Nat))
    rw [hnumber]
    congr 1
    omega

theorem succ?_eq_some_iff {a b : Date} : a.succ? = some b ↔ b.dayNumber = a.dayNumber + 1 := by
  simp only [succ?, addDays?_eq_some_iff, daysSince]
  omega

/-- Only the last date has no following date. -/
theorem succ?_eq_none_iff {date : Date} : date.succ? = none ↔ date = last := by
  rw [succ?, addDays?_eq_none_iff, ← dayNumber_inj]
  have := dayNumber_le_iff.2 date.le_last
  omega

end Date

end Agenda
