import Agenda.Proofs.Date.Month
import Agenda.Proofs.Occurrence.Entry

/-!
# Monthly searches

A search looks at one month after the other and takes the earliest day that an entry names. Its
months are words, which do not overflow between the first month of the calendar and the one after
the last.

- `Search.Month.index_next`: the following month has the following number.
- `Search.dayInMonth_eq_some` and `Search.dayInMonth_eq_none`: what is found in one month.
- `Search.monthly_finds`: what is found in a number of months.
-/

namespace Agenda.Search

/-! ## Months -/

namespace Month

/-- The month is one of the years 1 to 9999. -/
def InCalendar (m : Month) : Prop :=
  (1 ≤ m.year.toInt ∧ m.year.toInt ≤ maxYear) ∧ 1 ≤ m.month.toNat ∧ m.month.toNat ≤ 12

/-- The number of the month in the count of all months. -/
def index (m : Month) : Int :=
  12 * m.year.toInt + m.month.toNat

theorem index_le {m : Month} (hm : m.InCalendar) : m.index ≤ 120000 := by
  obtain ⟨hyear, hmonth⟩ := hm
  unfold maxYear at hyear
  unfold index
  omega

theorem ofDate_eq (date : Date) :
    (ofDate date).year.toInt = date.year ∧ (ofDate date).month.toNat = date.month := by
  obtain ⟨hyear, hmonth, -⟩ := date.onCalendar
  unfold maxYear at hyear
  exact ⟨Int32.toInt_ofInt_of_le (by omega) (by omega), toNat_ofNat_of_le (by omega)⟩

theorem inCalendar_ofDate (date : Date) : (ofDate date).InCalendar := by
  obtain ⟨hyear, hmonth, -⟩ := date.onCalendar
  unfold InCalendar
  rw [(ofDate_eq date).1, (ofDate_eq date).2]
  exact ⟨hyear, hmonth⟩

theorem index_ofDate (date : Date) : (ofDate date).index = date.monthIndex := by
  unfold index
  rw [(ofDate_eq date).1, (ofDate_eq date).2]
  rfl

/-- A month of the calendar is the month of a date exactly if it has the date's number. -/
theorem eq_ofDate_iff {m : Month} (hm : m.InCalendar) {date : Date} :
    m = ofDate date ↔ m.index = date.monthIndex := by
  constructor
  · rintro rfl
    exact index_ofDate date
  · intro h
    obtain ⟨hyear, hmonth⟩ := ofDate_eq date
    have hrange := date.onCalendar.2.1
    obtain ⟨-, hmonths⟩ := hm
    unfold index Date.monthIndex at h
    have hyearEq : m.year = (ofDate date).year := Int32.toInt_inj.1 (by omega)
    have hmonthEq : m.month = (ofDate date).month := UInt32.toNat_inj.1 (by omega)
    calc
      m = ⟨m.year, m.month⟩ := rfl
      _ = ofDate date := by rw [hyearEq, hmonthEq]

/-- The following month: a month more, or January of the next year. -/
theorem next_eq {m : Month} (hm : m.InCalendar) :
    m.next.year.toInt = (if m.month.toNat = 12 then m.year.toInt + 1 else m.year.toInt) ∧
      m.next.month.toNat = if m.month.toNat = 12 then 1 else m.month.toNat + 1 := by
  obtain ⟨hyear, hmonth⟩ := hm
  unfold maxYear at hyear
  unfold next
  by_cases htwelve : m.month = 12
  · have hnumber : m.month.toNat = 12 := by rw [htwelve]; rfl
    rw [if_pos htwelve, if_pos hnumber, if_pos hnumber]
    refine ⟨?_, rfl⟩
    rw [Int32.toInt_add]
    exact Int.bmod_eq_of_le (by change -(2 ^ 32 / 2) ≤ m.year.toInt + 1; omega)
      (by change m.year.toInt + 1 < (2 ^ 32 + 1) / 2; omega)
  · have hnumber : m.month.toNat ≠ 12 := fun h => htwelve (UInt32.toNat_inj.1 h)
    rw [if_neg htwelve, if_neg hnumber, if_neg hnumber]
    refine ⟨rfl, ?_⟩
    rw [UInt32.toNat_add]
    exact Nat.mod_eq_of_lt (by change m.month.toNat + 1 < 2 ^ 32; omega)

theorem index_next {m : Month} (hm : m.InCalendar) : m.next.index = m.index + 1 := by
  obtain ⟨hyear, hmonth⟩ := next_eq hm
  unfold index
  rw [hyear, hmonth]
  split <;> push_cast <;> omega

/-- The following month is one of the calendar, unless the month is the last one. -/
theorem next_inCalendar {m : Month} (hm : m.InCalendar) :
    (¬ Int32.ofInt maxYear < m.next.year ∧ m.next.InCalendar) ∨
      Int32.ofInt maxYear < m.next.year ∧ m.index = 120000 := by
  obtain ⟨hyear, hmonth⟩ := next_eq hm
  have hmax : (Int32.ofInt maxYear).toInt = 9999 := by decide
  obtain ⟨hyears, hmonths⟩ := hm
  rw [Int32.lt_iff_toInt_lt, hmax, hyear]
  unfold InCalendar index
  unfold maxYear at hyears ⊢
  rw [hyear, hmonth]
  split <;> omega

/-- The month's length, which is that of the month of its dates. -/
theorem toNat_length {m : Month} {date : Date} (hm : m.InCalendar)
    (hindex : date.monthIndex = m.index) : m.length.toNat = date.monthLength := by
  have hof : m = ofDate date := (eq_ofDate_iff hm).2 hindex.symm
  unfold length
  rw [hof, (ofDate_eq date).1, (ofDate_eq date).2]
  exact toNat_ofNat_of_le (daysInMonth_le date.year date.month)

theorem toNat_length_le (m : Month) : m.length.toNat ≤ 31 := by
  have hlength := daysInMonth_le m.year.toInt m.month.toNat
  unfold length
  rw [toNat_ofNat_of_le hlength]
  exact hlength

/-- A day within the month's length is a date of that month. -/
theorem exists_date? {m : Month} (hm : m.InCalendar) {day : UInt32}
    (hday : 1 ≤ day.toNat ∧ day.toNat ≤ m.length.toNat) :
    ∃ date, m.date? day = some date ∧ date.monthIndex = m.index ∧ date.day = day.toNat := by
  have hlength : m.length.toNat ≤ daysInMonth m.year.toInt m.month.toNat := by
    unfold length
    rw [UInt32.toNat_ofNat']
    exact Nat.mod_le _ _
  have hcalendar : OnCalendar m.year.toInt m.month.toNat day.toNat :=
    ⟨hm.1, hm.2, hday.1, Nat.le_trans hday.2 hlength⟩
  exact ⟨⟨_, _, _, hcalendar⟩, dif_pos hcalendar, rfl, rfl⟩

end Month

/-! ## The search -/

section Search

variable {days : SortedSet Int32} {months : SortedSet UInt32} {start : Date} {m : Month}

/-- A date of the given month fits the lists exactly if the month is listed and an entry names its
day. -/
private theorem onMonthDay_iff (hm : m.InCalendar) {date : Date}
    (hindex : date.monthIndex = m.index) :
    Rule.OnMonthDay days months date ↔
      (months.isEmpty = true ∨ m.month ∈ months) ∧ Named days m.length.toNat date.day := by
  have hmonth : m.month.toNat = date.month := by
    rw [(Month.eq_ofDate_iff hm).2 hindex.symm]
    exact (Month.ofDate_eq date).2
  rw [Month.toNat_length hm hindex]
  refine and_congr_left fun _ => or_congr_right ⟨?_, fun h => ⟨_, h, hmonth⟩⟩
  rintro ⟨listed, hlisted, heq⟩
  rwa [← UInt32.toNat_inj.1 (heq.trans hmonth.symm)]

/-- The earliest day of the given month that does not lie before `start`. -/
private theorem start_le_iff (hm : m.InCalendar) (hstart : start.monthIndex ≤ m.index)
    {date : Date} (hindex : date.monthIndex = m.index) :
    start ≤ date ↔
      (if m = .ofDate start then UInt32.ofNat start.day else 1).toNat ≤ date.day := by
  obtain ⟨-, -, hday, hlength⟩ := start.onCalendar
  by_cases hof : m = .ofDate start
  · -- In the month of `start` the days before it are left out.
    have hsame : start.monthIndex = date.monthIndex :=
      ((Month.eq_ofDate_iff hm).1 hof).symm.trans hindex.symm
    have hword : (UInt32.ofNat start.day).toNat = start.day :=
      toNat_ofNat_of_le (hlength.trans (daysInMonth_le start.year start.month))
    rw [if_pos hof, hword]
    exact Date.le_iff_of_monthIndex_eq hsame
  · -- In a later month all days count.
    have hlater : start.monthIndex < date.monthIndex := by
      have hne := mt (Month.eq_ofDate_iff hm).2 hof
      omega
    rw [if_neg hof]
    exact iff_of_true (le_of_lt (Date.lt_of_monthIndex_lt hlater)) date.onCalendar.2.2.1

/-- A day that is found in a month is the least of the days from `start` on that fit the lists, of
this month and all that follow. -/
theorem dayInMonth_eq_some (hm : m.InCalendar) (hstart : start.monthIndex ≤ m.index)
    {day : UInt32} (h : dayInMonth days months start m = some day) :
    ∃ date, m.date? day = some date ∧
      IsLeast {date | (Rule.OnMonthDay days months date ∧ start ≤ date) ∧
        m.index ≤ date.monthIndex} date := by
  unfold dayInMonth at h
  split at h
  next hlisted =>
    obtain ⟨⟨hnamed, hearliest⟩, hleast⟩ := firstEntry_eq_some m.toNat_length_le h
    have hrange : 1 ≤ day.toNat ∧ day.toNat ≤ m.length.toNat := by
      obtain ⟨entry, -, -, hrange⟩ := hnamed
      exact hrange
    obtain ⟨date, hdate, hindex, hday⟩ := Month.exists_date? hm hrange
    rw [← hday] at hnamed hearliest hleast
    refine ⟨date, hdate, ⟨⟨(onMonthDay_iff hm hindex).2 ⟨hlisted, hnamed⟩,
      (start_le_iff hm hstart hindex).2 hearliest⟩, le_of_eq hindex.symm⟩, ?_⟩
    -- A day of a later month is later, and among those of this month the earliest was taken.
    rintro other ⟨⟨hother, hafter⟩, hfrom⟩
    rcases Int.lt_or_eq_of_le hfrom with hlater | hsame
    · exact le_of_lt (Date.lt_of_monthIndex_lt (hindex ▸ hlater))
    · rw [Date.le_iff_of_monthIndex_eq (hindex.trans hsame)]
      exact hleast ⟨((onMonthDay_iff hm hsame.symm).1 hother).2,
        (start_le_iff hm hstart hsame.symm).1 hafter⟩
  next => cases h

/-- If nothing is found in a month, no day of it from `start` on fits the lists. -/
theorem dayInMonth_eq_none (hm : m.InCalendar) (hstart : start.monthIndex ≤ m.index)
    (h : dayInMonth days months start m = none) {date : Date}
    (hdate : Rule.OnMonthDay days months date) (hafter : start ≤ date) :
    date.monthIndex ≠ m.index := by
  intro hindex
  obtain ⟨hlisted, hnamed⟩ := (onMonthDay_iff hm hindex).1 hdate
  unfold dayInMonth at h
  rw [if_pos hlisted] at h
  have hearly := firstEntry_eq_none m.toNat_length_le h hnamed
  have hlate := (start_le_iff hm hstart hindex).1 hafter
  omega

variable (days months) in
/-- A search of `left` months misses only if the calendar goes on after them and no day of them
from `start` on fits the lists. -/
theorem monthly_finds (hm : m.InCalendar) (hstart : start.monthIndex ≤ m.index) (left : Nat) :
    Finds {date | (Rule.OnMonthDay days months date ∧ start ≤ date) ∧ m.index ≤ date.monthIndex}
      (m.index + left ≤ 120000 ∧ ∀ date, Rule.OnMonthDay days months date → start ≤ date →
        m.index ≤ date.monthIndex → m.index + left ≤ date.monthIndex)
      (monthly days months start m left) := by
  -- On the months that are left, for every month from which they are counted.
  induction left generalizing m with
  | zero =>
    have hindex := Month.index_le hm
    exact .missed ⟨by omega, fun date _ _ hfrom => by omega⟩
  | succ left ih =>
    unfold monthly
    cases hfound : dayInMonth days months start m with
    | some day =>
      obtain ⟨date, hdate, hleast⟩ := dayInMonth_eq_some hm hstart hfound
      change Finds _ _ (.ok (m.date? day))
      rw [hdate]
      exact .least hleast
    | none =>
      -- This month has no such day, so the days from it on are those from the next one on.
      have hnot : ∀ date, Rule.OnMonthDay days months date → start ≤ date →
          m.index ≤ date.monthIndex → m.index + 1 ≤ date.monthIndex := by
        intro date hdate hafter hfrom
        have hne := dayInMonth_eq_none hm hstart hfound hdate hafter
        omega
      change Finds _ _ (if Int32.ofInt maxYear < m.next.year then .error .pastLastDate
        else monthly days months start m.next left)
      rcases Month.next_inCalendar hm with ⟨hwithin, hnext⟩ | ⟨hbeyond, hlast⟩
      · rw [if_neg hwithin]
        have hindex := Month.index_next hm
        refine (ih hnext (by omega)).congr ?_ ?_
        · ext date
          refine and_congr_right fun hdate => ?_
          have := hnot date hdate.1 hdate.2
          omega
        · rintro ⟨hbound, hmissed⟩
          refine ⟨by omega, fun date hdate hafter hfrom => ?_⟩
          have := hmissed date hdate hafter (by have := hnot date hdate hafter hfrom; omega)
          omega
      · -- This was the last month of the calendar.
        rw [if_pos hbeyond]
        refine .pastLastDate (Set.eq_empty_of_forall_notMem ?_)
        rintro date ⟨⟨hdate, hafter⟩, hfrom⟩
        have := hnot date hdate hafter hfrom
        have := date.monthIndex_range
        omega

end Search

end Agenda.Search
