import Agenda.Occurrence.Basic
import Agenda.Proofs.Date.Order

/-!
# The same day of other years

Every year of the calendar has exactly one anniversary of a date.

- `Date.inYear?_eq_some_iff`: the date of a year that is computed is the anniversary.
- `Date.exists_inYear?`: there is one in every year from 1 to 9999.
- `Date.anniversary_unique`: it is the only one of its year.
- `Date.IsLeapDay`: the February 29, the only day whose anniversaries may have another day.
- `Date.Anniversary.anniversary_iff`: an anniversary of any other day has the same anniversaries.
-/

namespace Agenda

/-- Only the length of February depends on the year. -/
theorem daysInMonth_eq_of_ne_two {month : Nat} (h : month ≠ 2) (year year' : Int) :
    daysInMonth year month = daysInMonth year' month := by
  unfold daysInMonth
  split <;> first | rfl | exact absurd rfl h

theorem daysInMonth_two (year : Int) :
    daysInMonth year 2 = if isLeap year then 29 else 28 := rfl

namespace Date

theorem lt_of_year_lt {a b : Date} (h : a.year < b.year) : a < b :=
  Or.inl h

theorem year_le_of_le {a b : Date} (h : a ≤ b) : a.year ≤ b.year := by
  by_contra hlt
  exact absurd (lt_of_year_lt (by omega)) (not_lt.2 h)

/-- A common year has no February 29. -/
private theorem day_ne_of_common {date : Date} (hmonth : date.month = 2)
    (hcommon : isLeap date.year = false) : date.day ≠ 29 := by
  intro hday
  obtain ⟨-, -, -, hlength⟩ := date.onCalendar
  rw [hmonth, hday, daysInMonth_two, hcommon] at hlength
  exact absurd hlength (by decide)

/-- The date of another year is the anniversary in that year. -/
theorem inYear?_eq_some_iff {anchor date : Date} {year : Int} :
    anchor.inYear? year = some date ↔ date.year = year ∧ anchor.Anniversary date := by
  unfold inYear? Anniversary
  rw [ofYmd?_eq_some_iff]
  refine and_congr_right fun hyear => and_congr_right fun hmonth => ?_
  subst hyear
  by_cases hclamp : anchor.month = 2 ∧ anchor.day = 29 ∧ (! isLeap date.year) = true
  · -- The anchor is a February 29, which this year has not.
    rw [if_pos hclamp]
    obtain ⟨htwo, hday, hcommon⟩ := hclamp
    have hcommon' : isLeap date.year = false := by simpa using hcommon
    constructor
    · intro h
      exact Or.inr ⟨⟨htwo, hday⟩, hcommon', h⟩
    · rintro (h | h)
      · exact absurd (h.trans hday) (day_ne_of_common (hmonth.trans htwo) hcommon')
      · exact h.2.2
  · rw [if_neg hclamp]
    constructor
    · exact Or.inl
    · rintro (h | ⟨⟨htwo, hday⟩, hcommon, -⟩)
      · exact h
      · exact absurd ⟨htwo, hday, by simp [hcommon]⟩ hclamp

/-- Every year of the calendar has an anniversary. -/
theorem exists_inYear? (anchor : Date) {year : Int} (h : 1 ≤ year ∧ year ≤ maxYear) :
    ∃ date, anchor.inYear? year = some date := by
  obtain ⟨-, hmonth, hday, hlength⟩ := anchor.onCalendar
  unfold inYear?
  refine ⟨⟨year, anchor.month, _, h, hmonth, ?_, ?_⟩, dif_pos _⟩
  · split <;> omega
  · -- Only in February may the other year's month be shorter, and only the clamped day exceeds it.
    by_cases htwo : anchor.month = 2
    · rw [htwo, daysInMonth_two] at hlength
      rw [htwo, daysInMonth_two]
      cases hleap : isLeap year
      · have hle : anchor.day ≤ 29 := by
          split at hlength <;> omega
        by_cases h29 : anchor.day = 29
        · simp [h29]
        · simp [h29]
          omega
      · simp
        split at hlength <;> omega
    · rw [if_neg (fun hclamp => htwo hclamp.1), daysInMonth_eq_of_ne_two htwo year anchor.year]
      exact hlength

/-- A year without dates has no anniversary. -/
theorem inYear?_eq_none_iff {anchor : Date} {year : Int} :
    anchor.inYear? year = none ↔ ¬ (1 ≤ year ∧ year ≤ maxYear) := by
  constructor
  · intro hnone hyear
    obtain ⟨date, hdate⟩ := anchor.exists_inYear? hyear
    rw [hnone] at hdate
    cases hdate
  · intro hyear
    cases hin : anchor.inYear? year with
    | none => rfl
    | some date =>
      obtain ⟨rfl, -⟩ := inYear?_eq_some_iff.1 hin
      exact absurd date.onCalendar.1 hyear

/-- A year has one anniversary only. -/
theorem anniversary_unique {anchor a b : Date} (ha : anchor.Anniversary a)
    (hb : anchor.Anniversary b) (hyear : a.year = b.year) : a = b := by
  have hin := inYear?_eq_some_iff.2 ⟨hyear, ha⟩
  rw [inYear?_eq_some_iff.2 ⟨rfl, hb⟩] at hin
  exact (Option.some.inj hin).symm

/-- A date is its own anniversary. -/
theorem anniversary_self (date : Date) : date.Anniversary date :=
  ⟨rfl, Or.inl rfl⟩

/-! ## Leap days -/

/-- The date is a February 29. -/
def IsLeapDay (date : Date) : Prop :=
  date.month = 2 ∧ date.day = 29

instance (date : Date) : Decidable date.IsLeapDay :=
  inferInstanceAs (Decidable (_ ∧ _))

/-- An anniversary of a day that is no leap day has the month and the day of it. -/
theorem anniversary_iff_of_not_isLeapDay {anchor date : Date} (h : ¬ anchor.IsLeapDay) :
    anchor.Anniversary date ↔ date.month = anchor.month ∧ date.day = anchor.day := by
  refine and_congr_right fun _ => ⟨?_, Or.inl⟩
  rintro (hday | ⟨hleapDay, -⟩)
  · exact hday
  · exact absurd hleapDay h

/-- In a leap year the anniversary of a leap day is a leap day, in a common year it is the 28th. -/
theorem anniversary_iff_of_isLeapDay {anchor date : Date} (h : anchor.IsLeapDay) :
    anchor.Anniversary date ↔
      date.month = 2 ∧ date.day = if isLeap date.year then 29 else 28 := by
  obtain ⟨hmonth, hday⟩ := h
  unfold Anniversary
  rw [hmonth, hday]
  refine and_congr_right fun htwo => ?_
  cases hleap : isLeap date.year with
  | true => simp
  | false =>
    have hne := day_ne_of_common htwo hleap
    simp [hne]

/-- Dates of the same month and day have the same anniversaries. -/
theorem anniversary_congr {a b : Date} (h : a.month = b.month ∧ a.day = b.day) (date : Date) :
    a.Anniversary date ↔ b.Anniversary date := by
  unfold Anniversary
  rw [h.1, h.2]

/-- An anniversary of a day that is no leap day has the same anniversaries as it. -/
theorem Anniversary.anniversary_iff {anchor date : Date} (h : anchor.Anniversary date)
    (hleap : ¬ anchor.IsLeapDay) (other : Date) :
    date.Anniversary other ↔ anchor.Anniversary other :=
  anniversary_congr ((anniversary_iff_of_not_isLeapDay hleap).1 h) other

end Date

end Agenda
