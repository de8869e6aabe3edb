import Agenda.Proofs.Occurrence.Next
import Agenda.Proofs.Rule.Grammar

/-!
# Gaps between the days of a month

How far apart the days can be that fit a monthly rule. A day that fits at all fits in every year of
the same length, and such a year is at most eight years away: a full century that is no leap year
keeps two leap years eight years apart. As the horizon counts the month in which it begins as a
whole, nine years are enough, and with fewer a February 29 may be missed.

- `exists_isLeap_eq`: within eight years there is a year of either length.
- `Rule.OnMonthDay.exists_later`: a rule that fits a date fits one within eight years.
- `Rule.NoneWithin.not_onMonthDay`: a rule that fits no date within nine years fits none at all.
-/

namespace Agenda

/-! ## Years alike -/

/-- Within the eight years after any year there is a leap year as well as a common one. -/
theorem exists_isLeap_eq (leap : Bool) {year : Int} (h : 0 ≤ year ∧ year + 8 ≤ maxYear) :
    ∃ later, (year < later ∧ later ≤ year + 8) ∧ isLeap later = leap := by
  unfold maxYear at h
  have hiff {later : Int} (hlater : year < later ∧ later ≤ year + 8) :
      isLeap later = true ↔ later % 4 = 0 ∧ (later % 100 ≠ 0 ∨ later % 400 = 0) :=
    isLeap_iff ⟨by omega, by unfold maxYear; omega⟩
  cases leap with
  | true =>
    -- The first multiple of four may be a full century. The second one is none then.
    by_cases hfirst : (year + 4 - year % 4) % 100 ≠ 0
    · exact ⟨year + 4 - year % 4, by omega, (hiff (by omega)).2 (by omega)⟩
    · exact ⟨year + 8 - year % 4, by omega, (hiff (by omega)).2 (by omega)⟩
  | false =>
    by_cases hfirst : (year + 1) % 4 = 0
    · refine ⟨year + 2, by omega, Bool.eq_false_iff.2 fun hleap => ?_⟩
      have hmod := (hiff (by omega)).1 hleap
      omega
    · refine ⟨year + 1, by omega, Bool.eq_false_iff.2 fun hleap => ?_⟩
      exact hfirst ((hiff (by omega)).1 hleap).1

theorem daysInMonth_congr {year year' : Int} (h : isLeap year = isLeap year') (month : Nat) :
    daysInMonth year month = daysInMonth year' month := by
  unfold daysInMonth
  rw [h]

namespace Rule

variable {days : SortedSet Int32} {months : SortedSet UInt32}

/-! ## The widest gap -/

/-- If the lists name a date, they name one in the eight years after any year. -/
theorem OnMonthDay.exists_later {date : Date} (h : OnMonthDay days months date) {year : Int}
    (hyear : 0 ≤ year ∧ year + 8 ≤ maxYear) :
    ∃ later : Date, OnMonthDay days months later ∧ year < later.year ∧ later.year ≤ year + 8 := by
  obtain ⟨year', ⟨hlt, hle⟩, hleap⟩ := exists_isLeap_eq (isLeap date.year) hyear
  have hlength := daysInMonth_congr hleap date.month
  obtain ⟨-, hmonth, hday, hday'⟩ := date.onCalendar
  have hcalendar : OnCalendar year' date.month date.day :=
    ⟨by omega, hmonth, hday, hlength ▸ hday'⟩
  obtain ⟨hlisted, entry, hentry, hnames⟩ := h
  refine ⟨⟨year', date.month, date.day, hcalendar⟩, ⟨hlisted, entry, hentry, ?_⟩, hlt, hle⟩
  change EntryNames entry.toInt (daysInMonth year' date.month) date.day
  rw [hlength]
  exact hnames

/-- If the lists name no date from `start` on within nine years, they name none at all. -/
theorem NoneWithin.not_onMonthDay {start : Date} {horizon : Horizon}
    (h : NoneWithin days months start horizon) (hyears : 9 ≤ horizon.years.toNat) (date : Date) :
    ¬ OnMonthDay days months date := by
  intro hdate
  obtain ⟨hbound, hnone⟩ := h
  obtain ⟨hstart, hmonth, -⟩ := start.onCalendar
  unfold Date.monthIndex at hbound hnone
  have hyear : 0 ≤ start.year ∧ start.year + 8 ≤ maxYear := by
    unfold maxYear
    omega
  -- Eight years after that of `start`, December is still within the nine years from its month on.
  obtain ⟨later, hlater, hlt, hle⟩ := hdate.exists_later hyear
  have hfar := hnone later hlater (Date.lt_of_year_lt hlt).le
  have hmonth' := later.onCalendar.2.1
  omega

/-- With a horizon of at least nine years the next occurrence of a monthly rule is found whenever
there is one. -/
theorem next_monthly_of_nonempty (hrange : (monthly days months).InRange) {horizon : Horizon}
    (hyears : 9 ≤ horizon.years.toNat) {anchor reference : Date}
    (h : ((monthly days months).occurrencesAfter anchor reference).Nonempty) :
    ∃ date, (monthly days months).next horizon anchor reference = .ok (some date) ∧
      IsLeast ((monthly days months).occurrencesAfter anchor reference) date := by
  have hanswer := next_answer hrange horizon anchor reference
  generalize (monthly days months).next horizon anchor reference = answer at hanswer ⊢
  cases hanswer with
  | found hleast => exact ⟨_, rfl, hleast⟩
  | nothingLeft _ hempty => exact absurd hempty h.ne_empty
  | pastLastDate _ hempty => exact absurd hempty h.ne_empty
  | exhausted hrule _ hnone =>
    cases hrule
    obtain ⟨date, ⟨-, hdate⟩, -⟩ := h
    exact absurd hdate (hnone.not_onMonthDay hyears date)

/-- With a horizon of at least nine years a search for a monthly rule is exhausted only if the rule
names no date at all. -/
theorem not_onMonthDay_of_exhausted (hrange : (monthly days months).InRange) {horizon : Horizon}
    (hyears : 9 ≤ horizon.years.toNat) {anchor reference start : Date} {rule : Rule}
    {years : UInt16}
    (h : (monthly days months).next horizon anchor reference = .error (.exhausted rule start years))
    (date : Date) : ¬ OnMonthDay days months date := by
  have hanswer := next_answer hrange horizon anchor reference
  rw [h] at hanswer
  cases hanswer with
  | exhausted hrule _ hnone =>
    cases hrule
    exact hnone.not_onMonthDay hyears date

/-- The entry -29 names the first day of a February of 29 days. Searched for from February 2 of 1896
on, this is the first day of February 1904, and the horizon of eight years ends the month before. -/
private theorem exhausted_of_lt_nine (years : Fin 9) :
    (monthly (.ofList [-29]) (.ofList [2])).next ⟨.ofNat years⟩ ⟨1896, 2, 1, by decide⟩
        ⟨1896, 2, 1, by decide⟩ =
      .error (.exhausted (monthly (.ofList [-29]) (.ofList [2])) ⟨1896, 2, 2, by decide⟩
        (.ofNat years)) := by
  revert years
  decide

/-- Nine years are the nearest horizon within which every monthly rule is found. With it or a farther
one the next occurrence is found whenever there is one, and the search is exhausted only if the rule
names no date at all. With every nearer horizon the search for some rule that a text names is
exhausted although there is an occurrence. -/
theorem next_monthly_nine_years :
    (∀ text days months, ofText text = .ok (monthly days months) →
      ∀ (horizon : Horizon) (anchor reference : Date), 9 ≤ horizon.years.toNat →
        (((monthly days months).occurrencesAfter anchor reference).Nonempty →
          ∃ date, (monthly days months).next horizon anchor reference = .ok (some date) ∧
            IsLeast ((monthly days months).occurrencesAfter anchor reference) date) ∧
        ∀ rule start years, (monthly days months).next horizon anchor reference =
            .error (.exhausted rule start years) →
          ∀ date, ¬ OnMonthDay days months date) ∧
    ∀ horizon : Horizon, horizon.years.toNat < 9 →
      ∃ text days months, ofText text = .ok (monthly days months) ∧
        ∃ anchor reference start, (monthly days months).next horizon anchor reference =
            .error (.exhausted (monthly days months) start horizon.years) ∧
          ((monthly days months).occurrencesAfter anchor reference).Nonempty := by
  constructor
  · intro text days months hread horizon anchor reference hyears
    have hrange := inRange_of_ofText hread
    refine ⟨next_monthly_of_nonempty hrange hyears, fun rule start years h => ?_⟩
    exact not_onMonthDay_of_exhausted hrange hyears h
  · intro horizon hyears
    have hexhausted := exhausted_of_lt_nine ⟨horizon.years.toNat, hyears⟩
    rw [UInt16.ofNat_toNat] at hexhausted
    refine ⟨"m -29 2", .ofList [-29], .ofList [2], by decide, _, _, _, hexhausted,
      ⟨1904, 2, 1, by decide⟩, ⟨by decide, Or.inr ⟨2, ?_, rfl⟩, -29, ?_, by decide⟩, by decide⟩
    · exact List.mem_singleton_self 2
    · exact List.mem_singleton_self (-29)

/-- February 29 is found within ten years wherever the search begins, here from the last one of the
century before a common one; February 30 is not found since there is none; and eight years are too
near for some rule. -/
theorem next_monthly_nine_years_february :
    (∃ date, (monthly (.ofList [29]) (.ofList [2])).next .standard ⟨1896, 2, 29, by decide⟩
        ⟨1896, 2, 29, by decide⟩ = .ok (some date)) ∧
    (∀ date, ¬ OnMonthDay (.ofList [30]) (.ofList [2]) date) ∧
    ∃ text days months, ofText text = .ok (monthly days months) ∧
      ∃ anchor reference start, (monthly days months).next ⟨8⟩ anchor reference =
        .error (.exhausted (monthly days months) start 8) ∧
      ((monthly days months).occurrencesAfter anchor reference).Nonempty := by
  obtain ⟨hfar, hnear⟩ := next_monthly_nine_years
  refine ⟨?_, ?_, ?_⟩
  · obtain ⟨hfound, -⟩ := hfar "m 29 2" (.ofList [29]) (.ofList [2]) (by decide) .standard
      ⟨1896, 2, 29, by decide⟩ ⟨1896, 2, 29, by decide⟩ (by decide)
    obtain ⟨date, hdate, -⟩ := hfound ⟨⟨1904, 2, 29, by decide⟩,
      ⟨by decide, Or.inr ⟨2, List.mem_singleton_self 2, rfl⟩,
        29, List.mem_singleton_self 29, by decide⟩, by decide⟩
    exact ⟨date, hdate⟩
  · obtain ⟨-, hnone⟩ := hfar "m 30 2" (.ofList [30]) (.ofList [2]) (by decide) .standard
      ⟨2024, 1, 1, by decide⟩ ⟨2024, 1, 1, by decide⟩ (by decide)
    exact hnone (monthly (.ofList [30]) (.ofList [2])) ⟨2024, 1, 2, by decide⟩ 10 (by decide)
  · obtain ⟨text, days, months, hread, anchor, reference, start, h⟩ := hnear ⟨8⟩ (by decide)
    exact ⟨text, days, months, hread, anchor, reference, start, h⟩

end Rule

end Agenda
