import Agenda.Date.DayNumber

/-!
# Laws of day numbers

The closed forms of the day count agree with the calendar.

- `Date.dayNumber_lt_iff`: a later date has the larger number.
- `Date.ofDayNumber?_eq_some_iff`: a date is found under its number and under no other.
- `Date.addDays?_eq_some_iff`: adding days and counting days are inverse to each other.
-/

namespace Agenda

/-! ## Lengths of years and months -/

/-- In the years that have dates the leap years are those of the Gregorian calendar. -/
theorem isLeap_iff {year : Int} (h : 1 ≤ year ∧ year ≤ maxYear) :
    isLeap year = true ↔ year % 4 = 0 ∧ (year % 100 ≠ 0 ∨ year % 400 = 0) := by
  unfold maxYear at h
  simp [isLeap]
  omega

/-- A year has 365 days, and a leap year one more. -/
theorem daysBeforeYear_succ {year : Int} (h : 1 ≤ year ∧ year ≤ maxYear) :
    daysBeforeYear (year + 1) = daysBeforeYear year + if isLeap year then 366 else 365 := by
  have hleap := isLeap_iff h
  simp only [daysBeforeYear]
  split
  next hyes =>
    have := hleap.1 hyes
    omega
  next hno =>
    have := mt hleap.2 hno
    omega

/-- A later year does not begin before an earlier one ends. -/
theorem daysBeforeYear_succ_le {a b : Int} (h : a < b) :
    daysBeforeYear (a + 1) ≤ daysBeforeYear b := by
  simp only [daysBeforeYear]
  omega

/-- The months of a year have as many days as the year. -/
theorem daysBeforeMonth_thirteen (year : Int) :
    daysBeforeMonth year 13 = if isLeap year then 366 else 365 := by
  simp only [daysBeforeMonth, daysInMonth]
  split <;> rfl

/-- A later month does not begin before an earlier one ends. -/
theorem daysBeforeMonth_succ_le (year : Int) {a b : Nat} (h : a < b) :
    daysBeforeMonth year (a + 1) ≤ daysBeforeMonth year b := by
  induction b with
  | zero => omega
  | succ b ih =>
    rcases Nat.lt_or_eq_of_le (Nat.le_of_lt_succ h) with hab | rfl
    · exact Nat.le_trans (ih hab) (Nat.le_add_right _ _)
    · exact Nat.le_refl _

/-! ## The year of a day -/

/-- The days before a year, by the periods of 400, 100, 4 and 1 years that lie before it. -/
private theorem daysBeforeYear_periods (a b c e : Int) (hb : 0 ≤ b ∧ b ≤ 3)
    (hc : 0 ≤ c ∧ c ≤ 24) (he : 0 ≤ e ∧ e ≤ 3) :
    daysBeforeYear (400 * a + 100 * b + 4 * c + e + 1) =
      146097 * a + 36524 * b + 1461 * c + 365 * e := by
  simp only [daysBeforeYear]
  have h4 : (400 * a + 100 * b + 4 * c + e + 1 - 1) / 4 = 100 * a + 25 * b + c := by omega
  have h100 : (400 * a + 100 * b + 4 * c + e + 1 - 1) / 100 = 4 * a + b := by omega
  have h400 : (400 * a + 100 * b + 4 * c + e + 1 - 1) / 400 = a := by omega
  rw [h4, h100, h400]
  omega

/-- A day lies in the year that is computed for it. -/
theorem daysBeforeYear_yearOfDayNumber (n : Int) :
    daysBeforeYear (yearOfDayNumber n) ≤ n ∧ n < daysBeforeYear (yearOfDayNumber n + 1) := by
  simp only [yearOfDayNumber]
  -- The periods of 400, 100, 4 and 1 years before the day. A fourth century or a fourth year is the
  -- one that is a day longer, hence the bounds of 3.
  generalize ha : n / 146097 = a
  generalize hr : n % 146097 = r
  generalize hb : min (r / 36524) 3 = b
  generalize hs : r - 36524 * b = s
  generalize hc : s / 1461 = c
  generalize ht : s % 1461 = t
  generalize he : min (t / 365) 3 = e
  have hb' : 0 ≤ b ∧ b ≤ 3 := by omega
  have hs' : 0 ≤ s ∧ (b < 3 → s < 36524) ∧ s < 36525 := by omega
  have hc' : 0 ≤ c ∧ c ≤ 24 := by omega
  have he' : 0 ≤ e ∧ e ≤ 3 := by omega
  refine ⟨by rw [daysBeforeYear_periods a b c e hb' hc' he']; omega, ?_⟩
  -- The next year is the next one of four, or the first one after the four, the century or the
  -- four centuries.
  have next (a' b' c' e' : Int)
      (hyear : 400 * a + 100 * b + 4 * c + e + 1 = 400 * a' + 100 * b' + 4 * c' + e')
      (hb : 0 ≤ b' ∧ b' ≤ 3) (hc : 0 ≤ c' ∧ c' ≤ 24) (he : 0 ≤ e' ∧ e' ≤ 3)
      (hlt : n < 146097 * a' + 36524 * b' + 1461 * c' + 365 * e') :
      n < daysBeforeYear (400 * a + 100 * b + 4 * c + e + 1 + 1) := by
    rw [hyear, daysBeforeYear_periods a' b' c' e' hb hc he]
    exact hlt
  by_cases h3 : e < 3
  · exact next a b c (e + 1) (by omega) hb' hc' (by omega) (by omega)
  · by_cases h24 : c < 24
    · exact next a b (c + 1) 0 (by omega) hb' (by omega) (by omega) (by omega)
    · by_cases hb3 : b < 3
      · exact next a (b + 1) 0 0 (by omega) (by omega) (by omega) (by omega) (by omega)
      · exact next (a + 1) 0 0 0 (by omega) (by omega) (by omega) (by omega) (by omega)

/-- The year that is computed for a day is the only one in which it lies. -/
theorem yearOfDayNumber_eq {n year : Int} (hle : daysBeforeYear year ≤ n)
    (hlt : n < daysBeforeYear (year + 1)) : yearOfDayNumber n = year := by
  have hfound := daysBeforeYear_yearOfDayNumber n
  -- Of two different years one ends before the other begins, and the day would lie in both.
  rcases Int.lt_trichotomy (yearOfDayNumber n) year with h | h | h
  · have := daysBeforeYear_succ_le h
    omega
  · exact h
  · have := daysBeforeYear_succ_le h
    omega

/-! ## The month of a day -/

/-- The month that is computed for a day does not begin after it. -/
theorem daysBeforeMonth_monthOfDay_le {year : Int} {day month : Nat}
    (h : monthOfDay year day month ≠ 0) :
    daysBeforeMonth year (monthOfDay year day month) ≤ day := by
  induction month with
  | zero => exact absurd rfl h
  | succ month ih =>
    unfold monthOfDay at h ⊢
    split
    next hle => exact hle
    next hgt =>
      rw [if_neg hgt] at h
      exact ih h

/-- The month that is computed for a day is the one in which it lies. -/
theorem monthOfDay_eq {year : Int} {day month bound : Nat} (hbound : month ≤ bound)
    (hmonth : month ≠ 0) (hle : daysBeforeMonth year month ≤ day)
    (hlt : day < daysBeforeMonth year (month + 1)) : monthOfDay year day bound = month := by
  induction bound with
  | zero => omega
  | succ bound ih =>
    unfold monthOfDay
    rcases Nat.lt_or_eq_of_le hbound with hlt' | rfl
    · have := daysBeforeMonth_succ_le year hlt'
      rw [if_neg (by omega)]
      exact ih (by omega)
    · rw [if_pos hle]

/-! ## Dates and their numbers -/

namespace Date

/-- A date lies within its month. -/
private theorem day_bounds (date : Date) :
    daysBeforeMonth date.year date.month ≤ daysBeforeMonth date.year date.month + (date.day - 1) ∧
      daysBeforeMonth date.year date.month + (date.day - 1) <
        daysBeforeMonth date.year (date.month + 1) := by
  obtain ⟨-, -, hday, hlength⟩ := date.onCalendar
  simp only [daysBeforeMonth]
  omega

/-- A date lies within its year. -/
private theorem day_lt_year (date : Date) :
    daysBeforeMonth date.year date.month + (date.day - 1) <
      if isLeap date.year then 366 else 365 := by
  obtain ⟨-, ⟨-, hmonth⟩, -, -⟩ := date.onCalendar
  have hwithin := (day_bounds date).2
  have hyear := daysBeforeMonth_succ_le date.year (Nat.lt_succ_of_le hmonth)
  rw [daysBeforeMonth_thirteen] at hyear
  omega

/-- The number of a date, by the day within its year. -/
private theorem dayNumber_eq (date : Date) :
    date.dayNumber =
      daysBeforeYear date.year + (daysBeforeMonth date.year date.month + (date.day - 1) : Nat) := by
  have hday := date.onCalendar.2.2.1
  simp only [dayNumber]
  omega

/-- The number of a date lies between those of its year's first day and of the next year's. -/
private theorem dayNumber_bounds (date : Date) :
    daysBeforeYear date.year ≤ date.dayNumber ∧
      date.dayNumber < daysBeforeYear (date.year + 1) := by
  rw [dayNumber_eq, daysBeforeYear_succ date.onCalendar.1]
  have hyear := day_lt_year date
  by_cases hleap : isLeap date.year = true
  · rw [if_pos hleap] at hyear ⊢
    omega
  · rw [if_neg hleap] at hyear ⊢
    omega

/-- A date is found under its number. -/
@[simp]
theorem ofDayNumber?_dayNumber (date : Date) : ofDayNumber? date.dayNumber = some date := by
  have hyear : yearOfDayNumber date.dayNumber = date.year :=
    yearOfDayNumber_eq (dayNumber_bounds date).1 (dayNumber_bounds date).2
  have hday : (date.dayNumber - daysBeforeYear date.year).toNat =
      daysBeforeMonth date.year date.month + (date.day - 1) := by
    rw [dayNumber_eq]
    omega
  have hmonth : monthOfDay date.year (daysBeforeMonth date.year date.month + (date.day - 1)) 12 =
      date.month := by
    have hrange := date.onCalendar.2.1
    exact monthOfDay_eq hrange.2 (by omega) (day_bounds date).1 (day_bounds date).2
  simp only [ofDayNumber?, hyear, hday, hmonth]
  refine ofYmd?_eq_some_iff.2 ⟨rfl, rfl, ?_⟩
  have := date.onCalendar.2.2.1
  omega

/-- A date is found under its number and under no other. -/
theorem ofDayNumber?_eq_some_iff {n : Int} {date : Date} :
    ofDayNumber? n = some date ↔ date.dayNumber = n := by
  refine ⟨fun h => ?_, fun h => h ▸ ofDayNumber?_dayNumber date⟩
  obtain ⟨hyear, hmonth, hday⟩ := ofYmd?_eq_some_iff.1 h
  have hyears := (daysBeforeYear_yearOfDayNumber n).1
  have hrange := date.onCalendar.2.1
  have hmonths := daysBeforeMonth_monthOfDay_le (hmonth ▸ (by omega : date.month ≠ 0))
  rw [← hmonth, ← hyear] at hmonths
  rw [← hmonth, ← hyear] at hday
  rw [dayNumber_eq, hday]
  rw [← hyear] at hyears
  omega

/-- Dates with the same number are equal. -/
theorem dayNumber_inj {a b : Date} : a.dayNumber = b.dayNumber ↔ a = b := by
  refine ⟨fun h => ?_, fun h => h ▸ rfl⟩
  have ha := ofDayNumber?_dayNumber a
  rw [h, ofDayNumber?_dayNumber] at ha
  exact (Option.some.inj ha).symm

/-- An earlier date has a smaller number. -/
private theorem dayNumber_lt_of_lt {a b : Date} (h : a < b) : a.dayNumber < b.dayNumber := by
  rcases h with hyear | ⟨hyear, hmonth | ⟨hmonth, hday⟩⟩
  · calc
      a.dayNumber < daysBeforeYear (a.year + 1) := (dayNumber_bounds a).2
      _ ≤ daysBeforeYear b.year := daysBeforeYear_succ_le hyear
      _ ≤ b.dayNumber := (dayNumber_bounds b).1
  · have ha := (day_bounds a).2
    have hmonths := daysBeforeMonth_succ_le a.year hmonth
    rw [dayNumber_eq, dayNumber_eq, ← hyear]
    omega
  · have := a.onCalendar.2.2.1
    rw [dayNumber_eq, dayNumber_eq, ← hyear, ← hmonth]
    omega

/-- A later date has the larger number. -/
theorem dayNumber_lt_iff {a b : Date} : a.dayNumber < b.dayNumber ↔ a < b := by
  refine ⟨fun h => ?_, dayNumber_lt_of_lt⟩
  -- Of two different dates one is the earlier.
  have htotal : a < b ∨ a = b ∨ b < a := by
    rcases Int.lt_trichotomy a.year b.year with hy | hy | hy
    · exact Or.inl (Or.inl hy)
    · rcases Nat.lt_trichotomy a.month b.month with hm | hm | hm
      · exact Or.inl (Or.inr ⟨hy, Or.inl hm⟩)
      · rcases Nat.lt_trichotomy a.day b.day with hd | hd | hd
        · exact Or.inl (Or.inr ⟨hy, Or.inr ⟨hm, hd⟩⟩)
        · exact Or.inr (Or.inl (Date.ext hy hm hd))
        · exact Or.inr (Or.inr (Or.inr ⟨hy.symm, Or.inr ⟨hm.symm, hd⟩⟩))
      · exact Or.inr (Or.inr (Or.inr ⟨hy.symm, Or.inl hm⟩))
    · exact Or.inr (Or.inr (Or.inl hy))
  rcases htotal with hab | rfl | hba
  · exact hab
  · omega
  · have := dayNumber_lt_of_lt hba
    omega

/-- The dates' order is the order of their numbers. -/
theorem dayNumber_le_iff {a b : Date} : a.dayNumber ≤ b.dayNumber ↔ a ≤ b := by
  change _ ↔ ¬ b < a
  rw [← dayNumber_lt_iff]
  omega

/-- Adding days to a date and counting the days since it are inverse to each other. -/
theorem addDays?_eq_some_iff {a b : Date} {days : Nat} :
    a.addDays? days = some b ↔ b.daysSince a = days := by
  simp only [addDays?, daysSince, ofDayNumber?_eq_some_iff]
  omega

end Date

end Agenda
