import Agenda.Proofs.Occurrence.Gap

/-!
# What an exhausted search has searched

A search that is exhausted says that no day within so many years from its first candidate fits the
rule. It has looked at twelve months for every year, and the first of them counts as a whole, however
late in it the first candidate is. So the days of the last month, up to the day of the first
candidate, belong to the years but were not looked at.

- `Rule.NoneForYears`: what an exhausted search says.
- `Rule.next_exhausted_years`: it is true but for the days of the last month, and true altogether if
  the search began on the first of a month or looked nine years ahead.
- `Rule.not_noneForYears_of_exhausted`: otherwise it may be false.
-/

namespace Agenda

/-- The anniversary is of the month that lies twelve months further for every year. -/
theorem Date.Anniversary.monthIndex_eq {anchor date : Date} (h : anchor.Anniversary date) :
    date.monthIndex = anchor.monthIndex + 12 * (date.year - anchor.year) := by
  simp only [monthIndex, h.1]
  omega

/-- The first of a month has no anniversary but the first of that month. -/
theorem Date.Anniversary.day_eq_one {anchor date : Date} (h : anchor.Anniversary date)
    (hday : anchor.day = 1) : date.day = 1 := by
  obtain ⟨-, hsame | ⟨⟨-, hleapDay⟩, -⟩⟩ := h
  · exact hsame.trans hday
  · omega

namespace Rule

variable {days : SortedSet Int32} {months : SortedSet UInt32} {start : Date} {horizon : Horizon}

/-- No day from `start` on fits the lists within a number of years, which end before the same day of
the last of them. -/
def NoneForYears (days : SortedSet Int32) (months : SortedSet UInt32) (start : Date)
    (years : UInt16) : Prop :=
  ∀ date, OnMonthDay days months date → start ≤ date →
    ∀ limit, start.inYear? (start.year + years.toNat) = some limit → limit ≤ date

/-- The horizon of an exhausted search ends within the calendar. -/
private theorem NoneWithin.exists_limit (h : NoneWithin days months start horizon) :
    ∃ limit, start.inYear? (start.year + horizon.years.toNat) = some limit := by
  obtain ⟨hbound, -⟩ := h
  obtain ⟨hyear, hmonth, -⟩ := start.onCalendar
  simp only [Date.monthIndex] at hbound
  apply start.exists_inYear?
  simp only [maxYear]
  omega

/-- A day that fits the lists and that the years do not leave out is one of the last month. -/
private theorem NoneWithin.monthIndex_eq (h : NoneWithin days months start horizon)
    {limit date : Date} (hlimit : start.inYear? (start.year + horizon.years.toNat) = some limit)
    (hdate : OnMonthDay days months date) (hafter : start ≤ date) (hbefore : date < limit) :
    date.monthIndex = limit.monthIndex := by
  obtain ⟨hyear, hanniversary⟩ := Date.inYear?_eq_some_iff.1 hlimit
  have hsearched := h.2 date hdate hafter
  have hmonth := Date.monthIndex_le_of_le (le_of_lt hbefore)
  rw [hanniversary.monthIndex_eq, hyear] at hmonth ⊢
  omega

/-- From the first of a month on, the months of the horizon are the years. -/
private theorem NoneWithin.noneForYears_of_day_eq_one (h : NoneWithin days months start horizon)
    (hday : start.day = 1) : NoneForYears days months start horizon.years := by
  intro date hdate hafter limit hlimit
  by_contra hbefore
  have hbefore : date < limit := not_le.1 hbefore
  have hmonth := h.monthIndex_eq hlimit hdate hafter hbefore
  have hlimitDay := (Date.inYear?_eq_some_iff.1 hlimit).2.day_eq_one hday
  -- No day of the last month is before the first.
  have hfirst : limit ≤ date := by
    rw [Date.le_iff_of_monthIndex_eq hmonth.symm, hlimitDay]
    exact date.onCalendar.2.2.1
  exact absurd hbefore (not_lt.2 hfirst)

/-- When the search for a rule that was read is exhausted, the only days within the years it names
that may fit the rule are those of the last month, before the day of the first candidate. If the
first candidate is the first of a month, or the years are nine at least, no day fits. -/
theorem next_exhausted_years {text : String} (hread : ofText text = .ok (monthly days months))
    {anchor reference : Date} {rule : Rule} {years : UInt16}
    (h : (monthly days months).next horizon anchor reference =
      .error (.exhausted rule start years)) :
    ∃ limit, start.inYear? (start.year + years.toNat) = some limit ∧
      (∀ date, OnMonthDay days months date → start ≤ date → date < limit →
        date.monthIndex = limit.monthIndex) ∧
      (start.day = 1 ∨ 9 ≤ years.toNat → NoneForYears days months start years) := by
  have hanswer := next_answer (inRange_of_ofText hread) horizon anchor reference
  rw [h] at hanswer
  cases hanswer with
  | exhausted hrule _ hnone =>
    cases hrule
    obtain ⟨limit, hlimit⟩ := hnone.exists_limit
    refine ⟨limit, hlimit, fun date => hnone.monthIndex_eq hlimit, ?_⟩
    rintro (hday | hyears)
    · exact hnone.noneForYears_of_day_eq_one hday
    · exact fun date hdate => absurd hdate (hnone.not_onMonthDay hyears date)

/-- February 30 is not found in the three years from the first of March 2024 on. -/
theorem next_exhausted_years_february :
    let start : Date := ⟨2024, 3, 1, by decide⟩
    ofText "m 30 2" = .ok (monthly (.ofList [30]) (.ofList [2])) ∧
      (monthly (.ofList [30]) (.ofList [2])).next ⟨3⟩ start ⟨2024, 2, 29, by decide⟩ =
        .error (.exhausted (monthly (.ofList [30]) (.ofList [2])) start 3) ∧
      NoneForYears (.ofList [30]) (.ofList [2]) start 3 := by
  intro start
  have hread : ofText "m 30 2" = .ok (monthly (.ofList [30]) (.ofList [2])) := by decide
  have hnext : (monthly (.ofList [30]) (.ofList [2])).next ⟨3⟩ start ⟨2024, 2, 29, by decide⟩ =
      .error (.exhausted (monthly (.ofList [30]) (.ofList [2])) start 3) := by decide
  obtain ⟨-, -, -, hnone⟩ := next_exhausted_years hread hnext
  exact ⟨hread, hnext, hnone (Or.inl rfl)⟩

/-- What an exhausted search says may be false. With a horizon of one year, the first of March is not
found from March 2, 2024 on, although the next one is a day less than a year away. -/
theorem not_noneForYears_of_exhausted :
    ¬ ∀ text days months, ofText text = .ok (monthly days months) →
      ∀ (horizon : Horizon) (anchor reference : Date), 1 ≤ horizon.years.toNat →
        ∀ rule start years, (monthly days months).next horizon anchor reference =
            .error (.exhausted rule start years) →
          NoneForYears days months start years := by
  intro h
  have hnone : NoneForYears (.ofList [1]) (.ofList [3]) ⟨2024, 3, 2, by decide⟩ 1 :=
    h "m 1 3" (.ofList [1]) (.ofList [3]) (by decide) ⟨1⟩ ⟨2024, 3, 1, by decide⟩
      ⟨2024, 3, 1, by decide⟩ (by decide) (monthly (.ofList [1]) (.ofList [3])) _ _ (by decide)
  have hfits : OnMonthDay (.ofList [1]) (.ofList [3]) ⟨2025, 3, 1, by decide⟩ :=
    ⟨Or.inr ⟨3, List.mem_singleton_self 3, rfl⟩, 1, List.mem_singleton_self 1, by decide⟩
  have hle := hnone ⟨2025, 3, 1, by decide⟩ hfits (by decide) ⟨2025, 3, 2, by decide⟩ (by decide)
  exact absurd hle (by decide)

end Rule

end Agenda
