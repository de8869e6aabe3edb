import Agenda.Proofs.Occurrence.Next

/-!
# Monthly searches and searches day by day

A monthly search steps from month to month and within a month from entry to entry. What it answers
can be said without either: go through the days one by one, from the first candidate to the end of
the last month of the horizon, and take the first that fits. This holds for all lists, whether or
not a text names them.

- `Date.firstFitting`: the search day by day, which `Date.firstFitting_eq_some` and
  `Date.firstFitting_eq_none` pin down.
- `Search.monthly_succ` and `Search.monthly_reaches`: how far a monthly search comes with one month
  and with all of them.
- `Rule.next_monthly_dayByDay`: the next occurrence of a monthly rule is what is found day by day.
-/

namespace Agenda

/-! ## Day by day -/

namespace Date

/-- From a day on there are the day itself and the days from the following one on. -/
theorem le_iff_of_succ?_eq_some {date following : Date} (h : date.succ? = some following)
    {other : Date} : date ≤ other ↔ other = date ∨ following ≤ other := by
  have hnumber := succ?_eq_some_iff.1 h
  rw [← dayNumber_le_iff, ← dayNumber_le_iff, ← dayNumber_inj]
  omega

/-- The first day from the given one on that fits, before the month with the given number. The days
are tried one by one until the calendar ends. -/
def firstFitting (fits : Date → Prop) [DecidablePred fits] (limit : Int) (date : Date) :
    Option Date :=
  if limit ≤ date.monthIndex then none
  else if fits date then some date
  else
    match _hsucc : date.succ? with
    | none => none
    | some following => firstFitting fits limit following
termination_by (last.dayNumber - date.dayNumber).toNat
decreasing_by
  have hnumber := succ?_eq_some_iff.1 _hsucc
  have hlast := dayNumber_le_iff.2 following.le_last
  omega

variable {fits : Date → Prop} [DecidablePred fits] {limit : Int} {start date : Date}

/-- The day that is found is the least that fits, and it lies before the limit. -/
theorem firstFitting_eq_some (h : firstFitting fits limit start = some date) :
    IsLeast {date | fits date ∧ start ≤ date} date ∧ date.monthIndex < limit := by
  -- Along the days that are tried; those that do not fit are no candidates for the least.
  fun_induction firstFitting fits limit start with
  | case1 => cases h
  | case2 start hlimit hfits =>
    cases h
    exact ⟨⟨⟨hfits, le_refl _⟩, fun _ hother => hother.2⟩, not_le.1 hlimit⟩
  | case3 => cases h
  | case4 start hlimit hfits following hsucc ih =>
    obtain ⟨⟨⟨hdate, hafter⟩, hleast⟩, hbefore⟩ := ih h
    refine ⟨⟨⟨hdate, (le_iff_of_succ?_eq_some hsucc).2 (Or.inr hafter)⟩, ?_⟩, hbefore⟩
    rintro other ⟨hother, hfrom⟩
    rcases (le_iff_of_succ?_eq_some hsucc).1 hfrom with rfl | hfrom
    · exact absurd hother hfits
    · exact hleast ⟨hother, hfrom⟩

/-- If no day is found, none before the limit fits. -/
theorem firstFitting_eq_none (h : firstFitting fits limit start = none) (hdate : fits date)
    (hafter : start ≤ date) : limit ≤ date.monthIndex := by
  fun_induction firstFitting fits limit start with
  | case1 start hlimit => exact hlimit.trans (monthIndex_le_of_le hafter)
  | case2 => cases h
  | case3 start hlimit hfits hlast =>
    -- After the last day of the calendar there is nothing left to try.
    rw [succ?_eq_none_iff.1 hlast] at hafter hfits
    exact absurd (le_antisymm hafter date.le_last ▸ hdate) hfits
  | case4 start hlimit hfits following hsucc ih =>
    rcases (le_iff_of_succ?_eq_some hsucc).1 hafter with rfl | hafter
    · exact absurd hdate hfits
    · exact ih h hafter

end Date

/-! ## Month by month -/

namespace Search

variable {days : SortedSet Int32} {months : SortedSet UInt32} {start : Date} {m : Month}

/-- What a search does with one month: it finds a day of the month, or ends because the month is
the last one of the calendar, or goes on with the following month. -/
theorem monthly_succ (hm : m.InCalendar) (hstart : start.monthIndex ≤ m.index) (left : Nat) :
    (∃ date, monthly days months start m (left + 1) = .ok (some date) ∧
      date.monthIndex = m.index) ∨
    (m.index = Date.last.monthIndex ∧
      monthly days months start m (left + 1) = .error .pastLastDate) ∨
    m.next.InCalendar ∧
      monthly days months start m (left + 1) = monthly days months start m.next left := by
  rw [monthly]
  cases hfound : dayInMonth days months start m with
  | some day =>
    obtain ⟨date, hdate, -⟩ := dayInMonth_eq_some hm hstart hfound
    left
    refine ⟨date, congrArg Except.ok hdate, ?_⟩
    obtain ⟨hyear, hmonth, -⟩ := Date.ofYmd?_eq_some_iff.1 hdate
    rw [Date.monthIndex, Month.index, hyear, hmonth]
  | none =>
    right
    rcases Month.next_inCalendar hm with ⟨hwithin, hnext⟩ | ⟨hbeyond, hlast⟩
    · exact Or.inr ⟨hnext, if_neg hwithin⟩
    · exact Or.inl ⟨hlast, if_pos hbeyond⟩

/-- The answers of a search of the months before the one with the given number. A day that it finds
is of one of them, and the calendar ends only if it ends within them. -/
inductive Reaches (limit : Int) : Except SearchError (Option Date) → Prop
  /-- A day of one of the months. -/
  | found {date : Date} (h : date.monthIndex < limit) : Reaches limit (.ok (some date))
  /-- No day. -/
  | missed : Reaches limit (.ok none)
  /-- The months go beyond the calendar. -/
  | pastLastDate (h : Date.last.monthIndex < limit) : Reaches limit (.error .pastLastDate)

variable (days months) in
/-- A search reaches as far as the months that it was given. -/
theorem monthly_reaches (hm : m.InCalendar) (hstart : start.monthIndex ≤ m.index) (left : Nat) :
    Reaches (m.index + left) (monthly days months start m left) := by
  -- On the months that are left, for every month from which they are counted.
  induction left generalizing m with
  | zero => exact .missed
  | succ left ih =>
    rcases @monthly_succ days months _ _ hm hstart left with
      ⟨date, hfound, hindex⟩ | ⟨hlast, hend⟩ | ⟨hnext, hrest⟩
    · rw [hfound]
      exact .found (by omega)
    · rw [hend]
      exact .pastLastDate (by omega)
    · have hindex := Month.index_next hm
      have hlimit : m.index + (left + 1 : Nat) = m.next.index + left := by omega
      rw [hrest, hlimit]
      exact ih hnext (by omega)

end Search

/-! ## Both searches -/

namespace Rule

variable {days : SortedSet Int32} {months : SortedSet UInt32} {start : Date} {horizon : Horizon}

/-- The lists are finite, so it can be checked whether a date fits them. -/
instance (days : SortedSet Int32) (months : SortedSet UInt32) :
    DecidablePred (OnMonthDay days months) := fun date =>
  inferInstanceAs (Decidable ((_ ∨ ∃ m ∈ months.toList, m.toNat = date.month) ∧
    ∃ entry ∈ days.toList, EntryNames entry.toInt date.monthLength date.day))

/-- The number of the first month after a horizon, whose first month is that of `start`. -/
def monthAfter (start : Date) (horizon : Horizon) : Int :=
  start.monthIndex + 12 * horizon.years.toNat

/-- A day from `start` on fits the lists within the horizon. -/
def FitsWithin (days : SortedSet Int32) (months : SortedSet UInt32) (start : Date)
    (horizon : Horizon) : Prop :=
  ∃ date, OnMonthDay days months date ∧ start ≤ date ∧ date.monthIndex < monthAfter start horizon

/-- A search misses within the calendar exactly if no day fits within the horizon. -/
theorem noneWithin_iff :
    NoneWithin days months start horizon ↔
      monthAfter start horizon ≤ Date.last.monthIndex ∧ ¬ FitsWithin days months start horizon := by
  refine and_congr_right fun _ => ?_
  simp only [FitsWithin, monthAfter, not_exists, not_and, not_lt]

/-- What is answered for a monthly rule if the days from `start` on are tried one by one. Without a
day, the answer tells whether the horizon goes beyond the calendar. -/
def dayByDay (days : SortedSet Int32) (months : SortedSet UInt32) (horizon : Horizon)
    (start : Date) : Except SearchError (Option Date) :=
  match start.firstFitting (OnMonthDay days months) (monthAfter start horizon) with
  | some date => .ok (some date)
  | none =>
    if Date.last.monthIndex < monthAfter start horizon then .error .pastLastDate
    else .error (.exhausted (.monthly days months) start horizon.years)

/-- Within the horizon a day is found, the least one that fits. -/
theorem dayByDay_of_fitsWithin (h : FitsWithin days months start horizon) :
    ∃ date, IsLeast {date | OnMonthDay days months date ∧ start ≤ date} date ∧
      dayByDay days months horizon start = .ok (some date) := by
  unfold dayByDay
  cases hfound : start.firstFitting (OnMonthDay days months) (monthAfter start horizon) with
  | some date => exact ⟨date, (Date.firstFitting_eq_some hfound).1, rfl⟩
  | none =>
    -- The day that fits would have been found.
    obtain ⟨date, hdate, hafter, hbefore⟩ := h
    exact absurd (Date.firstFitting_eq_none hfound hdate hafter) (not_le.2 hbefore)

/-- If no day fits within the horizon, the answer is a failure. -/
theorem dayByDay_of_not_fitsWithin (h : ¬ FitsWithin days months start horizon) :
    dayByDay days months horizon start =
      if Date.last.monthIndex < monthAfter start horizon then .error .pastLastDate
      else .error (.exhausted (.monthly days months) start horizon.years) := by
  unfold dayByDay
  cases hfound : start.firstFitting (OnMonthDay days months) (monthAfter start horizon) with
  | some date =>
    obtain ⟨⟨⟨hdate, hafter⟩, -⟩, hbefore⟩ := Date.firstFitting_eq_some hfound
    exact absurd ⟨date, hdate, hafter, hbefore⟩ h
  | none => rfl

/-- The search month by month from `start` on answers what the search day by day answers. -/
theorem found_monthly_eq_dayByDay (days : SortedSet Int32) (months : SortedSet UInt32)
    (horizon : Horizon) (start : Date) :
    (Search.monthly days months start (.ofDate start) horizon.months.toNat >>=
        next.found (.monthly days months) horizon start) =
      dayByDay days months horizon start := by
  have hm := Search.Month.inCalendar_ofDate start
  have hindex := Search.Month.index_ofDate start
  have hafter : (Search.Month.ofDate start).index + horizon.months.toNat =
      monthAfter start horizon := by
    rw [hindex, Horizon.toNat_months, monthAfter]
    push_cast
    rfl
  have hfinds := monthly_finds_noneWithin days months start horizon
  have hreaches := Search.monthly_reaches days months hm (le_of_eq hindex.symm) horizon.months.toNat
  rw [hafter] at hreaches
  generalize Search.monthly days months start (.ofDate start) horizon.months.toNat = answer
    at hfinds hreaches ⊢
  -- What was found is the least of all days that fit; how far the search came puts it into the
  -- horizon, or puts the end of the calendar there.
  cases hfinds with
  | least hleast =>
    cases hreaches with
    | found hwithin =>
      obtain ⟨hdate, hfrom⟩ := hleast.1
      obtain ⟨date, hleast', hanswer⟩ := dayByDay_of_fitsWithin ⟨_, hdate, hfrom, hwithin⟩
      rw [hanswer, hleast'.unique hleast]
      rfl
  | missed hnone =>
    obtain ⟨hbound, hnone⟩ := noneWithin_iff.1 hnone
    rw [dayByDay_of_not_fitsWithin hnone, if_neg (not_lt.2 hbound)]
    rfl
  | pastLastDate hempty =>
    have hnone : ¬ FitsWithin days months start horizon := by
      rintro ⟨date, hdate, hfrom, -⟩
      have hmem : date ∈ {date | OnMonthDay days months date ∧ start ≤ date} := ⟨hdate, hfrom⟩
      exact absurd hempty (Set.nonempty_of_mem hmem).ne_empty
    cases hreaches with
    | pastLastDate hbeyond =>
      rw [dayByDay_of_not_fitsWithin hnone, if_pos hbeyond]
      rfl

/-- The search for the next occurrence begins with the first candidate. -/
theorem next_monthly_of_succ? {following : Date} {reference : Date}
    (h : reference.succ? = some following) (days : SortedSet Int32) (months : SortedSet UInt32)
    (horizon : Horizon) (anchor : Date) :
    (monthly days months).next horizon anchor reference =
      dayByDay days months horizon (max following anchor) := by
  rw [← found_monthly_eq_dayByDay]
  simp only [next, Search.firstCandidate, h]
  rfl

/-- A horizon of no years does not go beyond the calendar. -/
private theorem one_le_years_of_lt (h : Date.last.monthIndex < monthAfter start horizon) :
    1 ≤ horizon.years.toNat := by
  have hstart := Date.monthIndex_le_of_le start.le_last
  unfold monthAfter at h
  omega

/-- The next occurrence of a monthly rule, whatever its lists, is what is found day by day. After the
last date there is none. Otherwise the days from the first candidate on are tried one by one. The
answer is a day, namely the least one that fits, exactly if some day fits within the horizon. If none
does, then either the horizon goes beyond the calendar or it is exhausted. -/
theorem next_monthly_dayByDay (days : SortedSet Int32) (months : SortedSet UInt32)
    (horizon : Horizon) (anchor reference : Date) :
    (reference = Date.last →
      (monthly days months).next horizon anchor reference = .error .pastLastDate) ∧
    ∀ following start, reference.succ? = some following → start = max following anchor →
      (monthly days months).next horizon anchor reference = dayByDay days months horizon start ∧
      ((∃ date, IsLeast {date | OnMonthDay days months date ∧ start ≤ date} date ∧
          (monthly days months).next horizon anchor reference = .ok (some date)) ↔
        FitsWithin days months start horizon) ∧
      (¬ FitsWithin days months start horizon →
        (monthly days months).next horizon anchor reference =
          if 1 ≤ horizon.years.toNat ∧ Date.last.monthIndex < monthAfter start horizon then
            .error .pastLastDate
          else .error (.exhausted (monthly days months) start horizon.years)) := by
  constructor
  · intro hlast
    have hsucc : reference.succ? = none := Date.succ?_eq_none_iff.2 hlast
    simp only [next, Search.firstCandidate, hsucc]
    rfl
  · rintro following _ hsucc rfl
    rw [next_monthly_of_succ? hsucc]
    refine ⟨rfl, ⟨?_, dayByDay_of_fitsWithin⟩, fun hnone => ?_⟩
    · -- A search that fits nothing within the horizon fails.
      rintro ⟨date, -, hfound⟩
      by_contra hnone
      rw [dayByDay_of_not_fitsWithin hnone] at hfound
      split at hfound <;> cases hfound
    · rw [dayByDay_of_not_fitsWithin hnone]
      exact if_congr (and_iff_right_of_imp one_le_years_of_lt).symm rfl rfl

/-- The entries 0 and -2147483648 name no day and a month 13 is none, so what is left is the 31st.
After the last date there is no further one. In the year from March 2024 on there is one if May is
listed, but not if only April and June are. -/
theorem next_monthly_dayByDay_unchecked :
    let days : SortedSet Int32 := .ofList [-2147483648, 0, 31]
    let withMay : SortedSet UInt32 := .ofList [4, 5, 6, 13]
    let withoutMay : SortedSet UInt32 := .ofList [4, 6, 13]
    let reference : Date := ⟨2024, 3, 1, by decide⟩
    let start : Date := ⟨2024, 3, 2, by decide⟩
    (monthly days withMay).next ⟨1⟩ .first .last = .error .pastLastDate ∧
      reference.succ? = some start ∧ start = max start .first ∧
      (FitsWithin days withMay start ⟨1⟩ ∧
        ∃ date, IsLeast {date | OnMonthDay days withMay date ∧ start ≤ date} date ∧
          (monthly days withMay).next ⟨1⟩ .first reference = .ok (some date)) ∧
      ¬ FitsWithin days withoutMay start ⟨1⟩ ∧
        (monthly days withoutMay).next ⟨1⟩ .first reference =
          .error (.exhausted (monthly days withoutMay) start 1) := by
  intro days withMay withoutMay reference start
  have hsucc : reference.succ? = some start := by decide
  have hstart : start = max start .first := by decide
  obtain ⟨hlast, -⟩ := next_monthly_dayByDay days withMay ⟨1⟩ .first .last
  obtain ⟨-, hmay⟩ := next_monthly_dayByDay days withMay ⟨1⟩ .first reference
  obtain ⟨-, hmissed⟩ := next_monthly_dayByDay days withoutMay ⟨1⟩ .first reference
  obtain ⟨-, hfound, -⟩ := hmay start start hsucc hstart
  obtain ⟨-, hfound', hexhausted⟩ := hmissed start start hsucc hstart
  have hfits : FitsWithin days withMay start ⟨1⟩ :=
    ⟨⟨2024, 5, 31, by decide⟩, by decide, by decide, by decide⟩
  have hnone : ¬ FitsWithin days withoutMay start ⟨1⟩ := by
    -- Otherwise a day would be found, but the search is exhausted.
    intro h
    obtain ⟨date, -, hdate⟩ := hfound'.2 h
    have herror : (monthly days withoutMay).next ⟨1⟩ .first reference =
        .error (.exhausted (monthly days withoutMay) start 1) := by decide
    rw [herror] at hdate
    cases hdate
  refine ⟨hlast rfl, hsucc, hstart, ⟨hfits, hfound.2 hfits⟩, hnone, ?_⟩
  rw [hexhausted hnone, if_neg (by decide)]

end Rule

end Agenda
