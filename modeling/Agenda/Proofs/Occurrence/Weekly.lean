import Agenda.Proofs.Occurrence.Next
import Agenda.Proofs.Rule.Grammar

/-!
# The next occurrence of a weekly rule

Seven days are enough for a weekly rule, so no horizon bounds its search. What it finds is the first
of the listed weekdays that is after the reference and not before the anchor, up to the last day of
the calendar. A search that meets the end of the calendar has met every listed weekday before it.

- `Rule.occurrencesAfter_weekly`: the days that are looked for.
- `Rule.next_weekly_finds`: the least of them is found, whatever the horizon.
- `Rule.next_weekly_least`: what this says of the answers, for a rule that was read.
-/

namespace Agenda

namespace Rule

variable {days : SortedSet UInt32} {anchor reference : Date}

/-- A weekly rule falls on all days with a listed weekday that are not before the anchor. -/
theorem occurrencesAfter_weekly :
    (weekly days).occurrencesAfter anchor reference =
      {date | reference < date ∧ anchor ≤ date ∧ OnWeekday days date} :=
  Set.ext fun _ => and_comm

/-- The search for the next occurrence of a weekly rule cannot miss. -/
theorem next_weekly_finds (hrange : (weekly days).InRange) (horizon : Horizon)
    (anchor reference : Date) :
    Search.Finds {date | reference < date ∧ anchor ≤ date ∧ OnWeekday days date} False
      ((weekly days).next horizon anchor reference) := by
  rw [← occurrencesAfter_weekly]
  exact (next_answer hrange horizon anchor reference).finds nofun nofun

/-- The next occurrence of a weekly rule that was read is the least day with a listed weekday that is
after the reference and not before the anchor. There is one whenever the calendar has such a day, and
otherwise it lies after the last date. No other answer is given, and the horizon has no effect. -/
theorem next_weekly_least {text : String} (hread : ofText text = .ok (weekly days))
    (horizon : Horizon) (anchor reference : Date) :
    let next := (weekly days).next horizon anchor reference
    let fitting : Set Date := {date | reference < date ∧ anchor ≤ date ∧ OnWeekday days date}
    (∀ date, next = .ok (some date) ↔ IsLeast fitting date) ∧
      (fitting.Nonempty → ∃ date, IsLeast fitting date ∧ next = .ok (some date)) ∧
      (next = .error .pastLastDate ↔ ¬ fitting.Nonempty) ∧
      (next ≠ .ok none ∧ ∀ rule start years, next ≠ .error (.exhausted rule start years)) ∧
      ∀ horizon' : Horizon, (weekly days).next horizon' anchor reference = next := by
  intro next fitting
  have hrange := inRange_of_ofText hread
  have hfinds : Search.Finds fitting False next :=
    next_weekly_finds hrange horizon anchor reference
  refine ⟨fun date => hfinds.eq_ok_iff, fun hfitting => ?_, ?_, ?_, fun horizon' => ?_⟩
  · -- With a day that fits, the search has not met the end of the calendar.
    apply hfinds.least_or_empty.resolve_right
    rintro ⟨hempty, -⟩
    exact hfitting.ne_empty hempty
  · rw [hfinds.eq_error_iff, Set.not_nonempty_iff_eq_empty]
  · rcases hfinds.least_or_empty with ⟨date, -, hfound⟩ | ⟨-, hend⟩
    · simp [hfound]
    · simp [hend]
  · -- Both searches look for the same days, and these determine the answer.
    exact (next_weekly_finds hrange horizon' anchor reference).unique hfinds

/-- The last day of the calendar is a Friday. The rule `w 5` has it as its next occurrence after the
day before, even with a horizon of no years. The last Monday of the calendar is the 27th, and after
it the rule `w 1` has no further occurrence. -/
theorem next_weekly_least_lastWeek :
    let fridays : SortedSet UInt32 := .ofList [5]
    let mondays : SortedSet UInt32 := .ofList [1]
    let monday : Date := ⟨9999, 12, 27, by decide⟩
    let thursday : Date := ⟨9999, 12, 30, by decide⟩
    (ofText "w 5" = .ok (weekly fridays) ∧
        IsLeast {date | thursday < date ∧ Date.first ≤ date ∧ OnWeekday fridays date} .last ∧
        ∀ horizon, (weekly fridays).next horizon .first thursday = .ok (some .last)) ∧
      ofText "w 1" = .ok (weekly mondays) ∧
        (weekly mondays).next ⟨0⟩ .first monday = .error .pastLastDate ∧
        ¬ {date | monday < date ∧ Date.first ≤ date ∧ OnWeekday mondays date}.Nonempty := by
  intro fridays mondays monday thursday
  have hfridays : ofText "w 5" = .ok (weekly fridays) := by decide
  have hmondays : ofText "w 1" = .ok (weekly mondays) := by decide
  obtain ⟨hleast, -, -, -, hsame⟩ := next_weekly_least hfridays ⟨0⟩ .first thursday
  obtain ⟨-, -, hnone, -⟩ := next_weekly_least hmondays ⟨0⟩ .first monday
  have hnext : (weekly fridays).next ⟨0⟩ .first thursday = .ok (some .last) := by decide
  have hend : (weekly mondays).next ⟨0⟩ .first monday = .error .pastLastDate := by decide
  refine ⟨⟨hfridays, (hleast .last).1 hnext, fun horizon => ?_⟩, hmondays, hend, hnone.1 hend⟩
  rw [← hnext]
  exact hsame horizon

end Rule

end Agenda
