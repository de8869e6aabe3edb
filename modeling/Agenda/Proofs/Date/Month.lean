import Agenda.Proofs.Date.Order

/-!
# Months counted through the years

The months of all years in one count, in which a later month has the larger number. A search month
by month moves through this count one by one.

- `Date.lt_of_monthIndex_lt` and `Date.le_iff_of_monthIndex_eq`: dates are ordered by month, then
  by day.
- `Date.ym_of_monthIndex_eq`: the count tells the months apart.
-/

namespace Agenda.Date

/-- The number of the date's month in the count of all months. -/
def monthIndex (date : Date) : Int :=
  12 * date.year + date.month

/-- Dates of the same number are of the same month. -/
theorem ym_of_monthIndex_eq {a b : Date} (h : a.monthIndex = b.monthIndex) :
    a.year = b.year ∧ a.month = b.month := by
  have ha := a.onCalendar.2.1
  have hb := b.onCalendar.2.1
  unfold monthIndex at h
  omega

/-- The count begins with January of the year 1 and ends with December of the year 9999. -/
theorem monthIndex_range (date : Date) : 13 ≤ date.monthIndex ∧ date.monthIndex ≤ 120000 := by
  obtain ⟨hyear, hmonth, -⟩ := date.onCalendar
  unfold maxYear at hyear
  unfold monthIndex
  omega

theorem lt_of_monthIndex_lt {a b : Date} (h : a.monthIndex < b.monthIndex) : a < b := by
  have ha := a.onCalendar.2.1
  have hb := b.onCalendar.2.1
  unfold monthIndex at h
  rcases Int.lt_trichotomy a.year b.year with hlt | heq | hgt
  · exact Or.inl hlt
  · exact Or.inr ⟨heq, Or.inl (by omega)⟩
  · omega

theorem monthIndex_le_of_le {a b : Date} (h : a ≤ b) : a.monthIndex ≤ b.monthIndex := by
  by_contra hlt
  exact absurd (lt_of_monthIndex_lt (Int.not_le.1 hlt)) (not_lt.2 h)

/-- Dates of one month are ordered by their days. -/
theorem le_iff_of_monthIndex_eq {a b : Date} (h : a.monthIndex = b.monthIndex) :
    a ≤ b ↔ a.day ≤ b.day := by
  obtain ⟨hyear, hmonth⟩ := ym_of_monthIndex_eq h
  rw [← not_lt, ← not_lt]
  refine not_congr ⟨?_, fun hday => Or.inr ⟨hyear.symm, Or.inr ⟨hmonth.symm, hday⟩⟩⟩
  rintro (hlt | ⟨-, hlt | ⟨-, hday⟩⟩)
  · omega
  · omega
  · exact hday

end Agenda.Date
