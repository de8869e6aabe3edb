import Agenda.Proofs.Occurrence.Next

/-!
# Daily and yearly searches step by step

A daily search computes the next occurrence from a quotient, and a yearly one looks at two years
only. What they answer can be said without either: go through the days of the rule one after the
other, beginning with the anchor, and take the first that is after the reference.

- `Date.Progression`: days one after the other. `Date.Progression.firstAfter` tries them one by one.
- `Date.Progression.firstAfter_finds`: the first day after the reference is the least one.
- `Date.everyDays` and `Date.everyYear`: the days of daily and of yearly rules, one after the other.
- `Rule.next_daily_stepByStep` and `Rule.next_yearly_yearByYear`: what is found is the first of them
  after the reference.
-/

namespace Agenda

namespace Date

/-! ## One day after the other -/

/-- Days one after the other, counted from 0. They end with the calendar or before. -/
structure Progression where
  /-- The day with the given number. -/
  day? : Nat → Option Date
  /-- A day follows on the one before it, which is earlier. -/
  exists_before {k : Nat} {later : Date} (h : day? (k + 1) = some later) :
    ∃ date, day? k = some date ∧ date < later

namespace Progression

variable {days : Progression} {reference date later : Date} {i j k : Nat}

/-- All days before a day exist, and they are earlier. -/
theorem exists_before_of_lt (hlt : i < j) (hday : days.day? j = some later) :
    ∃ date, days.day? i = some date ∧ date < later := by
  induction j generalizing later with
  | zero => exact absurd hlt (Nat.not_lt_zero i)
  | succ j ih =>
    obtain ⟨date, hdate, hbefore⟩ := days.exists_before hday
    rcases Nat.lt_or_eq_of_le (Nat.le_of_lt_succ hlt) with hlt | rfl
    · obtain ⟨first, hfirst, hearlier⟩ := ih hlt hdate
      exact ⟨first, hfirst, hearlier.trans hbefore⟩
    · exact ⟨date, hdate, hbefore⟩

/-- The days do not come faster than those of the calendar. -/
theorem le_dayNumber (hday : days.day? k = some date) : (k : Int) ≤ date.dayNumber := by
  induction k generalizing date with
  | zero => exact date.dayNumber_range.1
  | succ k ih =>
    obtain ⟨earlier, hearlier, hbefore⟩ := days.exists_before hday
    have hle := ih hearlier
    have hlt := dayNumber_lt_iff.2 hbefore
    omega

/-- The first day after the reference, of those with the given number or a larger one. The days are
tried one by one until there is no further one. -/
def firstAfterFrom (days : Progression) (reference : Date) (k : Nat) : Option Date :=
  match _hday : days.day? k with
  | none => none
  | some date =>
    if reference < date then some date else firstAfterFrom days reference (k + 1)
termination_by (last.dayNumber + 1 - k).toNat
decreasing_by
  have hle := days.le_dayNumber _hday
  have hlast := dayNumber_le_iff.2 date.le_last
  omega

/-- The first day after the reference. -/
def firstAfter (days : Progression) (reference : Date) : Option Date :=
  days.firstAfterFrom reference 0

/-- The day that is found is after the reference, and all that were tried before it are not. -/
theorem firstAfterFrom_eq_some (h : days.firstAfterFrom reference k = some date) :
    ∃ j, k ≤ j ∧ days.day? j = some date ∧ reference < date ∧
      ∀ i, k ≤ i → i < j → ∃ earlier, days.day? i = some earlier ∧ earlier ≤ reference := by
  -- Along the days that are tried, up to the one that is taken.
  fun_induction firstAfterFrom days reference k with
  | case1 => cases h
  | case2 k found hday hafter =>
    cases h
    exact ⟨k, le_refl k, hday, hafter, fun i hle hlt => absurd hle (Nat.not_le.2 hlt)⟩
  | case3 k tried hday hbefore ih =>
    obtain ⟨j, hle, hj, hafter, hearlier⟩ := ih h
    refine ⟨j, by omega, hj, hafter, ?_⟩
    intro i hki hij
    rcases Nat.lt_or_eq_of_le hki with hlt | rfl
    · exact hearlier i hlt hij
    · exact ⟨tried, hday, not_lt.1 hbefore⟩

/-- If no day is found, none is after the reference. -/
theorem firstAfterFrom_eq_none (h : days.firstAfterFrom reference k = none) (hle : k ≤ j)
    (hday : days.day? j = some date) : date ≤ reference := by
  fun_induction firstAfterFrom days reference k with
  | case1 k hend =>
    -- The days have ended, so this is not one of them.
    rcases Nat.lt_or_eq_of_le hle with hlt | rfl
    · obtain ⟨earlier, hearlier, -⟩ := exists_before_of_lt hlt hday
      rw [hend] at hearlier
      cases hearlier
    · rw [hend] at hday
      cases hday
  | case2 => cases h
  | case3 k tried htried hbefore ih =>
    rcases Nat.lt_or_eq_of_le hle with hlt | rfl
    · exact ih h hlt
    · rw [htried] at hday
      cases hday
      exact not_lt.1 hbefore

/-- The first day after the reference is the one with the smallest number. -/
theorem firstAfter_eq_some_iff :
    days.firstAfter reference = some date ↔
      ∃ k, days.day? k = some date ∧ reference < date ∧
        ∀ j < k, ∃ earlier, days.day? j = some earlier ∧ earlier ≤ reference := by
  constructor
  · intro h
    obtain ⟨k, -, hday, hafter, hearlier⟩ := firstAfterFrom_eq_some h
    exact ⟨k, hday, hafter, fun j => hearlier j (Nat.zero_le j)⟩
  · rintro ⟨k, hday, hafter, hearlier⟩
    cases hfirst : days.firstAfter reference with
    | none => exact absurd hafter (not_lt.2 (firstAfterFrom_eq_none hfirst (Nat.zero_le k) hday))
    | some first =>
      -- Neither day comes before the other, since what comes before is not after the reference.
      obtain ⟨j, -, hday', hafter', hearlier'⟩ := firstAfterFrom_eq_some hfirst
      rcases Nat.lt_trichotomy j k with hlt | rfl | hgt
      · obtain ⟨earlier, heq, hle⟩ := hearlier j hlt
        rw [hday'] at heq
        cases heq
        exact absurd hafter' (not_lt.2 hle)
      · exact hday'.symm.trans hday
      · obtain ⟨earlier, heq, hle⟩ := hearlier' k (Nat.zero_le k) hgt
        rw [hday] at heq
        cases heq
        exact absurd hafter (not_lt.2 hle)

/-- There is no first day after the reference exactly if no day is after it. -/
theorem firstAfter_eq_none_iff :
    days.firstAfter reference = none ↔
      ¬ ∃ k date, days.day? k = some date ∧ reference < date := by
  constructor
  · rintro hnone ⟨k, date, hday, hafter⟩
    exact absurd hafter (not_lt.2 (firstAfterFrom_eq_none hnone (Nat.zero_le k) hday))
  · intro hnone
    cases hfirst : days.firstAfter reference with
    | none => rfl
    | some date =>
      obtain ⟨k, hday, hafter, -⟩ := firstAfter_eq_some_iff.1 hfirst
      exact absurd ⟨k, date, hday, hafter⟩ hnone

/-- Trying the days one by one finds the least of those after the reference. -/
theorem firstAfter_finds (days : Progression) (reference : Date) :
    Search.Finds {date | (∃ k, days.day? k = some date) ∧ reference < date} False
      (some <$> Search.withinCalendar (days.firstAfter reference)) := by
  refine Search.finds_withinCalendar (fun date hfirst => ?_) fun hnone => ?_
  · obtain ⟨k, hday, hafter, hearlier⟩ := firstAfter_eq_some_iff.1 hfirst
    refine ⟨⟨⟨k, hday⟩, hafter⟩, ?_⟩
    -- Another day is not one of those that were tried before, so it is the same or a later one.
    rintro other ⟨⟨j, hj⟩, hother⟩
    rcases Nat.lt_trichotomy j k with hlt | rfl | hgt
    · obtain ⟨earlier, heq, hle⟩ := hearlier j hlt
      rw [hj] at heq
      cases heq
      exact absurd hother (not_lt.2 hle)
    · rw [hday] at hj
      cases hj
      exact le_refl date
    · obtain ⟨earlier, heq, hlt⟩ := exists_before_of_lt hgt hj
      rw [hday] at heq
      cases heq
      exact le_of_lt hlt
  · refine Set.eq_empty_of_forall_notMem ?_
    rintro other ⟨⟨k, hday⟩, hother⟩
    exact firstAfter_eq_none_iff.1 hnone ⟨k, other, hday, hother⟩

end Progression

/-! ## The days of a rule -/

/-- The day that is reached by adding a number of days again and again. -/
def addRepeatedly? (anchor : Date) (n : Nat) : Nat → Option Date
  | 0 => some anchor
  | k + 1 => (anchor.addRepeatedly? n k).bind (·.addDays? n)

theorem addRepeatedly?_eq (anchor : Date) (n k : Nat) :
    anchor.addRepeatedly? n k = anchor.addDays? (k * n) := by
  induction k with
  | zero =>
    rw [Nat.zero_mul]
    exact (addDays?_eq_some_iff.2 (Int.sub_self _)).symm
  | succ k ih => rw [addRepeatedly?, ih, addDays?_bind, Nat.succ_mul]

/-- Begin with the anchor and keep adding a number of days. -/
def everyDays (anchor : Date) (n : Nat) (hn : 1 ≤ n) : Progression where
  day? := anchor.addRepeatedly? n
  exists_before := by
    intro k later h
    obtain ⟨date, hdate, hlater⟩ := Option.bind_eq_some_iff.1 h
    refine ⟨date, hdate, ?_⟩
    have hdistance := addDays?_eq_some_iff.1 hlater
    have hself : date.daysSince date = 0 := Int.sub_self _
    rw [← daysSince_lt_iff date, hself, hdistance]
    omega

/-- Begin with the anchor and go from year to year, to the same day of each. -/
def everyYear (anchor : Date) : Progression where
  day? k := anchor.inYear? (anchor.year + k)
  exists_before := by
    intro k later h
    obtain ⟨hyear, -⟩ := inYear?_eq_some_iff.1 h
    have hanchor := anchor.onCalendar.1
    have hlater := later.onCalendar.1
    have hyears : 1 ≤ anchor.year + k ∧ anchor.year + k ≤ maxYear := by omega
    obtain ⟨date, hdate⟩ := anchor.exists_inYear? hyears
    obtain ⟨hdateYear, -⟩ := inYear?_eq_some_iff.1 hdate
    exact ⟨date, hdate, lt_of_year_lt (by omega)⟩

end Date

/-! ## Both searches -/

namespace Rule

variable {anchor reference : Date}

/-- A search that cannot miss answers what is found by trying the occurrences one by one. -/
private theorem eq_firstAfter {rule : Rule} {answer : Except SearchError (Option Date)}
    (hfinds : Search.Finds (rule.occurrencesAfter anchor reference) False answer)
    (days : Date.Progression)
    (hdays : ∀ date, rule.Occurs anchor date ↔ ∃ k, days.day? k = some date) :
    answer = some <$> Search.withinCalendar (days.firstAfter reference) := by
  apply hfinds.unique
  refine (days.firstAfter_finds reference).congr ?_ id
  ext date
  exact and_congr_left fun _ => hdays date

private theorem occurs_daily_iff {interval : UInt32} {hinterval : 1 ≤ interval.toNat}
    {date : Date} :
    (daily interval).Occurs anchor date ↔
      ∃ k, (anchor.everyDays interval.toNat hinterval).day? k = some date := by
  refine exists_congr fun k => ?_
  show date.daysSince anchor = k * interval.toNat ↔ anchor.addRepeatedly? interval.toNat k = _
  rw [Date.addRepeatedly?_eq, Date.addDays?_eq_some_iff, Int.natCast_mul]

private theorem occurs_yearly_iff {date : Date} :
    yearly.Occurs anchor date ↔ ∃ k, anchor.everyYear.day? k = some date := by
  constructor
  · rintro ⟨hfrom, hanniversary⟩
    refine ⟨(date.year - anchor.year).toNat, Date.inYear?_eq_some_iff.2 ⟨by omega, hanniversary⟩⟩
  · rintro ⟨k, hday⟩
    obtain ⟨hyear, hanniversary⟩ := Date.inYear?_eq_some_iff.1 hday
    exact ⟨by omega, hanniversary⟩

/-- The next occurrence of a daily rule is the first day after the reference that is met when the
interval is added to the anchor again and again. It is `k` intervals away from the anchor, where `k`
is the smallest number for which this is after the reference, unless the calendar ends before. -/
theorem next_daily_stepByStep {interval : UInt32} (hinterval : 1 ≤ interval.toNat)
    (horizon : Horizon) (anchor reference : Date) :
    (daily interval).next horizon anchor reference =
        some <$> Search.withinCalendar
          ((anchor.everyDays interval.toNat hinterval).firstAfter reference) ∧
      ∃ k : Nat, IsLeast {k : Nat | reference.daysSince anchor < k * interval.toNat} k ∧
        (∀ date, (daily interval).next horizon anchor reference = .ok (some date) ↔
          date.daysSince anchor = k * interval.toNat) ∧
        ((daily interval).next horizon anchor reference = .error .pastLastDate ↔
          Date.last.daysSince anchor < k * interval.toNat) := by
  have hfinds := Search.daily_finds hinterval anchor reference
  have hleast := Search.isLeast_stepsBeyond (reference.daysSince anchor) hinterval
  have hnext : (daily interval).next horizon anchor reference = some <$> _ :=
    congrArg (some <$> ·) (Search.daily_eq_addDays? hinterval anchor reference)
  refine ⟨eq_firstAfter hfinds _ fun _ => occurs_daily_iff, _, hleast, fun date => ?_, ?_⟩
  · rw [hnext, Search.map_withinCalendar_eq_ok_iff, Date.addDays?_eq_some_iff, Int.natCast_mul]
  · rw [hnext, Search.map_withinCalendar_eq_error_iff, Date.addDays?_eq_none_iff, Int.natCast_mul]
    unfold Date.daysSince
    omega

/-- Week after week from New Year's Day of 2024 on, January 22 is the first day after the 15th, which
is one of the days itself. An interval of 4294967295 days leads beyond the calendar at once. -/
theorem next_daily_stepByStep_weeks :
    let newYear : Date := ⟨2024, 1, 1, by decide⟩
    let reference : Date := ⟨2024, 1, 15, by decide⟩
    let found : Date := ⟨2024, 1, 22, by decide⟩
    ((daily 7).next .standard newYear reference = .ok (some found) ∧
        (∃ h, (newYear.everyDays 7 h).firstAfter reference = some found) ∧
        IsLeast {k : Nat | reference.daysSince newYear < k * (7 : Int)} 3) ∧
      (daily 4294967295).next .standard newYear reference = .error .pastLastDate ∧
        ∃ h, (newYear.everyDays 4294967295 h).firstAfter reference = none := by
  intro newYear reference found
  have hweek : 1 ≤ (7 : UInt32).toNat := by decide
  have hfar : 1 ≤ (4294967295 : UInt32).toNat := by decide
  obtain ⟨hweeks, k, hleast, hfound, -⟩ :=
    next_daily_stepByStep hweek .standard newYear reference
  obtain ⟨hbeyond, -⟩ := next_daily_stepByStep hfar .standard newYear reference
  have hnext : (daily 7).next .standard newYear reference = .ok (some found) := by decide
  have hend : (daily 4294967295).next .standard newYear reference = .error .pastLastDate := by
    decide
  refine ⟨⟨hnext, ⟨hweek, ?_⟩, ?_⟩, hend, by decide, ?_⟩
  · rw [hweeks] at hnext
    exact Search.map_withinCalendar_eq_ok_iff.1 hnext
  · -- The day that is found is three weeks after New Year's Day.
    have hdays : found.daysSince newYear = 21 := by decide
    have hinterval : (7 : UInt32).toNat = 7 := by decide
    have hdistance := (hfound found).1 hnext
    rw [hdays, hinterval] at hdistance
    have hk : k = 3 := by omega
    rw [← hk]
    exact hleast
  · rw [hbeyond] at hend
    exact Search.map_withinCalendar_eq_error_iff.1 hend

/-- The next occurrence of a yearly rule is found by going from year to year: of the same days of the
years from the anchor's on, it is the first one after the reference. Only if no year of the calendar
has such a day there is none. All of these days are counted from the anchor itself, so a February 29
is left for the 28th in common years only. -/
theorem next_yearly_yearByYear (horizon : Horizon) (anchor reference : Date) :
    yearly.next horizon anchor reference =
        some <$> Search.withinCalendar (anchor.everyYear.firstAfter reference) ∧
      (∀ date, yearly.next horizon anchor reference = .ok (some date) ↔
        ∃ k : Nat, anchor.inYear? (anchor.year + k) = some date ∧ reference < date ∧
          ∀ j < k, ∃ earlier, anchor.inYear? (anchor.year + (j : Nat)) = some earlier ∧
            earlier ≤ reference) ∧
      (yearly.next horizon anchor reference = .error .pastLastDate ↔
        ¬ ∃ (k : Nat) (date : Date), anchor.year + k ≤ maxYear ∧
          anchor.inYear? (anchor.year + k) = some date ∧ reference < date) ∧
      ∀ (k : Nat) (date : Date), anchor.inYear? (anchor.year + k) = some date ↔
        date.year = anchor.year + k ∧ anchor.Anniversary date := by
  have hnext : yearly.next horizon anchor reference =
      some <$> Search.withinCalendar (anchor.everyYear.firstAfter reference) :=
    eq_firstAfter (Search.yearly_finds anchor reference) _ fun _ => occurs_yearly_iff
  refine ⟨hnext, fun date => ?_, ?_, fun k date => Date.inYear?_eq_some_iff⟩
  · rw [hnext, Search.map_withinCalendar_eq_ok_iff]
    exact Date.Progression.firstAfter_eq_some_iff
  · rw [hnext, Search.map_withinCalendar_eq_error_iff, Date.Progression.firstAfter_eq_none_iff]
    refine not_congr (exists_congr fun k => exists_congr fun date => ?_)
    -- A day of a year is in the calendar with its year.
    refine (and_iff_right_of_imp fun h => ?_).symm
    obtain ⟨hyear, -⟩ := Date.inYear?_eq_some_iff.1 h.1
    exact hyear ▸ date.onCalendar.1.2

/-- February 29 is back after three common years, in which it was the 28th. -/
example :
    yearly.next .standard ⟨2024, 2, 29, by decide⟩ ⟨2027, 2, 28, by decide⟩ =
      .ok (some ⟨2028, 2, 29, by decide⟩) := by decide

end Rule

end Agenda
