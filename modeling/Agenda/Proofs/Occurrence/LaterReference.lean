import Agenda.Proofs.Occurrence.DayByDay
import Agenda.Proofs.Rule.Grammar

/-!
# The next occurrence from a later reference

Two searches for the next occurrence of the same rule, from the same anchor and with the same horizon
but from two references, one not after the other. Fewer occurrences are left after the later one, and
the next of them can only be later. What has to be shown is that the later search does not give up
where the earlier one did not: its horizon begins later, so it also ends later, and what the earlier
search found or knew about the end of the calendar lies within it.

- `Rule.occurrencesAfter_subset`: fewer occurrences are left after a later reference.
- `Rule.next_monthly_of_exhausted_later`: what the earlier search may have answered if the later one
  is exhausted.
- `Rule.next_eq_of_lt`, `Rule.le_of_next_later` and `Rule.next_pastLastDate_later`: an answer lasts
  until its day, answers do not decrease, and the end of the calendar remains the end.
-/

namespace Agenda

namespace Rule

variable {rule : Rule} {horizon : Horizon} {anchor reference later date : Date}

/-! ## The occurrences that are left -/

/-- Fewer occurrences are left after a later reference. -/
theorem occurrencesAfter_subset (hle : reference ≤ later) :
    rule.occurrencesAfter anchor later ⊆ rule.occurrencesAfter anchor reference :=
  fun _ hother => ⟨hother.1, hle.trans_lt hother.2⟩

/-- The least of the occurrences after a reference remains the least until its day has come. -/
theorem isLeast_occurrencesAfter_of_lt (hle : reference ≤ later)
    (hleast : IsLeast (rule.occurrencesAfter anchor reference) date) (hlt : later < date) :
    IsLeast (rule.occurrencesAfter anchor later) date :=
  ⟨⟨hleast.1.1, hlt⟩, fun _ hother => hleast.2 (occurrencesAfter_subset hle hother)⟩

/-! ## Two horizons -/

variable {days : SortedSet Int32} {months : SortedSet UInt32} {start start' : Date}

/-- A search for the next occurrence goes day by day from the first candidate on. -/
theorem next_monthly_of_start (days : SortedSet Int32) (months : SortedSet UInt32)
    (horizon : Horizon) (hstart : ∀ date, start ≤ date ↔ anchor ≤ date ∧ reference < date) :
    (monthly days months).next horizon anchor reference = dayByDay days months horizon start := by
  rw [← found_monthly_eq_dayByDay]
  simp only [next, Search.firstCandidate_eq_ok_iff.2 hstart]
  rfl

/-- A horizon that begins later ends later. -/
theorem monthAfter_le_of_le (h : start ≤ start') (horizon : Horizon) :
    monthAfter start horizon ≤ monthAfter start' horizon :=
  Int.add_le_add_right (Date.monthIndex_le_of_le h) _

/-- If the search from a later reference is exhausted, the earlier one is exhausted, too, unless it
found a day that is not after the later reference. -/
theorem next_monthly_of_exhausted_later (hle : reference ≤ later)
    (hstart' : ∀ date, start' ≤ date ↔ anchor ≤ date ∧ later < date)
    (hnone : NoneWithin days months start' horizon) :
    (∃ date ≤ later, (monthly days months).next horizon anchor reference = .ok (some date)) ∨
    ∃ start, (monthly days months).next horizon anchor reference =
      .error (.exhausted (monthly days months) start horizon.years) := by
  obtain ⟨hbound, hnone⟩ := noneWithin_iff.1 hnone
  obtain ⟨hanchor', hafter'⟩ := (hstart' start').1 (le_refl start')
  rcases Search.firstCandidate_spec anchor reference with ⟨start, -, hstart⟩ | ⟨-, rfl⟩
  case inr => exact absurd (hle.trans_lt hafter') (not_lt.2 start'.le_last)
  -- The later search begins with a candidate of the earlier one, so its horizon ends later.
  have hcandidates : start ≤ start' := (hstart start').2 ⟨hanchor', hle.trans_lt hafter'⟩
  have hhorizons := monthAfter_le_of_le hcandidates horizon
  rw [next_monthly_of_start days months horizon hstart]
  by_cases hfits : FitsWithin days months start horizon
  · left
    obtain ⟨date, hleast, hfound⟩ := dayByDay_of_fitsWithin hfits
    refine ⟨date, ?_, hfound⟩
    -- A day after the later reference would lie within the later horizon as well.
    by_contra hlater
    obtain ⟨other, hother, hfrom, hbefore⟩ := hfits
    obtain ⟨hdate, hafter⟩ := hleast.1
    have hmonth := Date.monthIndex_le_of_le (hleast.2 ⟨hother, hfrom⟩)
    have hcandidate : start' ≤ date :=
      (hstart' date).2 ⟨((hstart date).1 hafter).1, not_le.1 hlater⟩
    exact hnone ⟨date, hdate, hcandidate, by omega⟩
  · right
    refine ⟨start, ?_⟩
    rw [dayByDay_of_not_fitsWithin hfits, if_neg (by omega)]

/-! ## Two references -/

/-- The search from a later reference is exhausted only if the earlier one is, or if what the earlier
one found is not after the later reference. -/
theorem next_later_ne_exhausted (hrange : rule.InRange) (hle : reference ≤ later)
    (hanswered : ∀ start, rule.next horizon anchor reference ≠
      .error (.exhausted rule start horizon.years))
    (hafter : ∀ date ≤ later, rule.next horizon anchor reference ≠ .ok (some date))
    (start' : Date) :
    rule.next horizon anchor later ≠ .error (.exhausted rule start' horizon.years) := by
  intro hnext'
  have hanswer := next_answer hrange horizon anchor later
  rw [hnext'] at hanswer
  cases hanswer with
  | exhausted hrule hstart' hnone =>
    subst hrule
    rcases next_monthly_of_exhausted_later hle hstart' hnone with
      ⟨date, hdate, hfound⟩ | ⟨start, hexhausted⟩
    · exact hafter date hdate hfound
    · exact hanswered start hexhausted

/-- A next occurrence is the next one from all references between the one from which it was found and
itself. -/
theorem next_eq_of_lt (hrange : rule.InRange) (hle : reference ≤ later)
    (hnext : rule.next horizon anchor reference = .ok (some date)) (hlt : later < date) :
    rule.next horizon anchor later = .ok (some date) := by
  have hleast := isLeast_occurrencesAfter_of_lt hle (isLeast_of_next hrange hnext) hlt
  have hnonempty := (Set.nonempty_of_mem hleast.1).ne_empty
  have hanswer' := next_answer hrange horizon anchor later
  generalize hnext' : rule.next horizon anchor later = answer at hanswer' ⊢
  cases hanswer' with
  | found hleast' => rw [hleast'.unique hleast]
  | nothingLeft _ hempty => exact absurd hempty hnonempty
  | pastLastDate _ hempty => exact absurd hempty hnonempty
  | exhausted _ _ _ =>
    -- The earlier search did not give up, and the day that it found is after the later reference.
    refine absurd hnext' (next_later_ne_exhausted hrange hle (fun _ => ?_) (fun found hle => ?_) _)
    · rw [hnext]
      exact nofun
    · rw [hnext]
      rintro ⟨⟩
      exact absurd hlt (not_lt.2 hle)

/-- The next occurrence from a later reference is not earlier. -/
theorem le_of_next_later (hrange : rule.InRange) (hle : reference ≤ later) {date' : Date}
    (hnext : rule.next horizon anchor reference = .ok (some date))
    (hnext' : rule.next horizon anchor later = .ok (some date')) : date ≤ date' := by
  have hleast := isLeast_of_next hrange hnext
  have hleast' := isLeast_of_next hrange hnext'
  exact hleast.2 (occurrencesAfter_subset hle hleast'.1)

/-- If the next occurrence lies after the last date, it does so for later references. -/
theorem next_pastLastDate_later (hrange : rule.InRange) (hle : reference ≤ later)
    (hnext : rule.next horizon anchor reference = .error .pastLastDate) :
    rule.next horizon anchor later = .error .pastLastDate := by
  have hanswer := next_answer hrange horizon anchor reference
  rw [hnext] at hanswer
  cases hanswer with
  | pastLastDate honce hempty =>
    have hempty' : rule.occurrencesAfter anchor later = ∅ :=
      Set.subset_eq_empty (occurrencesAfter_subset hle) hempty
    have hanswer' := next_answer hrange horizon anchor later
    generalize hnext' : rule.next horizon anchor later = answer at hanswer' ⊢
    cases hanswer' with
    | found hleast => exact absurd hempty' (Set.nonempty_of_mem hleast.1).ne_empty
    | nothingLeft hrule _ => exact absurd hrule honce
    | pastLastDate _ _ => rfl
    | exhausted _ _ _ =>
      -- The earlier search met the end of the calendar, so it neither found a day nor gave up.
      refine absurd hnext' (next_later_ne_exhausted hrange hle (fun _ => ?_) (fun _ _ => ?_) _)
      · rw [hnext]
        exact nofun
      · rw [hnext]
        exact nofun

/-- For a rule that was read and a reference that is not before another, with the same anchor and
horizon: the next occurrence after the earlier reference is that after the later one as long as it
lies after it; of two next occurrences, the one after the later reference is not earlier; and if
after the earlier reference the next occurrence lies beyond the calendar, so it does after the later
one. -/
theorem next_of_later_reference {text : String} (hread : ofText text = .ok rule)
    (horizon : Horizon) (anchor : Date) (hle : reference ≤ later) :
    (∀ date, rule.next horizon anchor reference = .ok (some date) → later < date →
        rule.next horizon anchor later = .ok (some date)) ∧
      (∀ date date', rule.next horizon anchor reference = .ok (some date) →
        rule.next horizon anchor later = .ok (some date') → date ≤ date') ∧
      (rule.next horizon anchor reference = .error .pastLastDate →
        rule.next horizon anchor later = .error .pastLastDate) := by
  have hrange := inRange_of_ofText hread
  refine ⟨fun date => ?_, fun date date' => ?_, ?_⟩
  · exact next_eq_of_lt hrange hle
  · exact le_of_next_later hrange hle
  · exact next_pastLastDate_later hrange hle

/-- With a horizon of one year, April 30 of 2024 is the next one from New Year's Day on and up to the
day before it. From the day itself the next one is a year later. In May 9999 there is none left, nor
is there on the last day. -/
theorem next_of_later_reference_april :
    let april : Rule := .monthly (.ofList [30]) (.ofList [4])
    let newYear : Date := ⟨2024, 1, 1, by decide⟩
    let dayBefore : Date := ⟨2024, 4, 29, by decide⟩
    let day : Date := ⟨2024, 4, 30, by decide⟩
    let nextDay : Date := ⟨2025, 4, 30, by decide⟩
    let may : Date := ⟨9999, 5, 1, by decide⟩
    ofText "m 30 4" = .ok april ∧
      (newYear ≤ dayBefore ∧ april.next ⟨1⟩ .first newYear = .ok (some day) ∧ dayBefore < day ∧
        april.next ⟨1⟩ .first dayBefore = .ok (some day)) ∧
      (newYear ≤ day ∧ april.next ⟨1⟩ .first day = .ok (some nextDay) ∧ day ≤ nextDay) ∧
      may ≤ .last ∧ april.next ⟨1⟩ .first may = .error .pastLastDate ∧
        april.next ⟨1⟩ .first .last = .error .pastLastDate := by
  intro april newYear dayBefore day nextDay may
  have hread : ofText "m 30 4" = .ok april := by decide
  have hbefore : newYear ≤ dayBefore := by decide
  have hday : newYear ≤ day := by decide
  have hmay : may ≤ .last := by decide
  obtain ⟨hsame, -⟩ := next_of_later_reference hread ⟨1⟩ .first hbefore
  obtain ⟨-, hlater, -⟩ := next_of_later_reference hread ⟨1⟩ .first hday
  obtain ⟨-, -, hend⟩ := next_of_later_reference hread ⟨1⟩ .first hmay
  have hnext : april.next ⟨1⟩ .first newYear = .ok (some day) := by decide
  have hnext' : april.next ⟨1⟩ .first day = .ok (some nextDay) := by decide
  have hpast : april.next ⟨1⟩ .first may = .error .pastLastDate := by decide
  have hlt : dayBefore < day := by decide
  exact ⟨hread, ⟨hbefore, hnext, hlt, hsame day hnext hlt⟩,
    ⟨hday, hnext', hlater day nextDay hnext hnext'⟩, hmay, hpast, hend hpast⟩

end Rule

end Agenda
