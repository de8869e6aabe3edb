import Agenda.Proofs.Occurrence.Finds

/-!
# Weekly searches

Seven consecutive days have all seven weekdays, so a search of seven days misses only if no weekday
is listed.

- `Search.weekly_range'_finds`: what a search of any number of consecutive days finds.
- `Search.weekly_finds`: with a weekday listed, seven days suffice.
-/

namespace Agenda

theorem Date.weekday_range (date : Date) : 1 ≤ date.weekday ∧ date.weekday ≤ 7 := by
  unfold Date.weekday
  omega

/-- A date's weekday is listed as a word exactly if the date is on a listed weekday. -/
theorem Rule.weekday_mem_iff {days : SortedSet UInt32} {date : Date} :
    UInt32.ofNat date.weekday ∈ days ↔ OnWeekday days date := by
  constructor
  · intro h
    have hrange := date.weekday_range
    exact ⟨_, h, Search.toNat_ofNat_of_le (by omega)⟩
  · rintro ⟨d, hd, hweekday⟩
    rw [← hweekday, UInt32.ofNat_toNat]
    exact hd

namespace Search

/-- A search of `n` consecutive days misses only if all of them exist and none is on a listed
weekday. -/
theorem weekly_range'_finds (days : SortedSet UInt32) (start : Date) (k n : Nat) :
    Finds {date | Rule.OnWeekday days date ∧ start.dayNumber + k ≤ date.dayNumber}
      (∀ j, k ≤ j → j < k + n → ∃ date, start.addDays? j = some date ∧ ¬ Rule.OnWeekday days date)
      (weekly days start (List.range' k n)) := by
  induction n generalizing k with
  | zero => exact .missed fun j hle hlt => absurd hlt (Nat.not_lt.2 hle)
  | succ n ih =>
    rw [List.range'_succ, weekly]
    cases hdate : start.addDays? k with
    | none =>
      -- Where one day is beyond the calendar, so are all that follow.
      refine .pastLastDate (Set.eq_empty_of_forall_notMem ?_)
      rintro other ⟨-, hother⟩
      rw [Date.addDays?_eq_none_iff] at hdate
      have := Date.dayNumber_le_iff.2 other.le_last
      omega
    | some date =>
      have hnumber := Date.addDays?_eq_some_iff.1 hdate
      unfold Date.daysSince at hnumber
      change Finds _ _ (if UInt32.ofNat date.weekday ∈ days then .ok (some date)
        else weekly days start (List.range' (k + 1) n))
      by_cases hlisted : Rule.OnWeekday days date
      · rw [if_pos (Rule.weekday_mem_iff.2 hlisted)]
        refine .least ⟨⟨hlisted, by omega⟩, ?_⟩
        rintro other ⟨-, hother⟩
        rw [← Date.dayNumber_le_iff]
        omega
      · rw [if_neg (mt Rule.weekday_mem_iff.1 hlisted)]
        refine (ih (k + 1)).congr ?_ fun hmissed j hle hlt => ?_
        · -- The day at the distance `k` is not listed, so nothing is lost with it.
          ext other
          refine and_congr_right fun hother => ?_
          have hne : other.dayNumber ≠ date.dayNumber :=
            fun heq => hlisted (Date.dayNumber_inj.1 heq ▸ hother)
          omega
        · rcases Nat.lt_or_eq_of_le hle with hgt | rfl
          · exact hmissed j hgt (by omega)
          · exact ⟨date, hdate, hlisted⟩

/-- Of seven consecutive days one is on any given weekday. -/
private theorem exists_distance {weekday : Nat} (h : 1 ≤ weekday ∧ weekday ≤ 7) (n : Int) :
    ∃ j < 7, ((n + (j : Nat)) % 7).toNat + 1 = weekday :=
  ⟨((weekday - 1 - n) % 7).toNat, by omega, by omega⟩

/-- A weekly search for at least one weekday finds the first day from `start` on that is on one. -/
theorem weekly_finds {days : SortedSet UInt32} (hdays : days.isEmpty = false)
    (hrange : ∀ d ∈ days, Rule.IsWeekday d.toNat) (start : Date) :
    Finds {date | Rule.OnWeekday days date ∧ start ≤ date} False
      (weekly days start (List.range 7)) := by
  rw [List.range_eq_range']
  refine (weekly_range'_finds days start 0 7).congr ?_ fun hmissed => ?_
  · ext date
    refine and_congr_right fun _ => ?_
    rw [← Date.dayNumber_le_iff]
    simp
  · -- The search cannot have missed: any listed weekday is that of one of the seven days.
    obtain ⟨d, hd⟩ := SortedSet.isEmpty_eq_false_iff.1 hdays
    obtain ⟨j, hj, hweekday⟩ := exists_distance (hrange d hd) start.dayNumber
    obtain ⟨date, hdate, hnot⟩ := hmissed j (Nat.zero_le j) (by omega)
    have hnumber := Date.addDays?_eq_some_iff.1 hdate
    refine hnot ⟨d, hd, ?_⟩
    rw [← hweekday, Date.weekday]
    unfold Date.daysSince at hnumber
    rw [show date.dayNumber = start.dayNumber + j by omega]

end Search

end Agenda
