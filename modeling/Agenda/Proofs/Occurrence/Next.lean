import Agenda.Proofs.Occurrence.Distance
import Agenda.Proofs.Occurrence.MonthDay
import Agenda.Proofs.Occurrence.Weekday

/-!
# What the next occurrence is

The four searches together: everything that `Rule.next` may answer, for every rule in its range.
What holds of occurrences, of their series and of tasks is derived from here and not from the
searches.

- `Rule.Answer`: what `Rule.next` may answer.
- `Rule.next_answer`: it answers nothing else.
- `Rule.isLeast_of_next`: a date that it answers is the least occurrence after the reference.
-/

namespace Agenda

/-- The months of a horizon are twelve for every year. -/
theorem Horizon.toNat_months (horizon : Horizon) :
    horizon.months.toNat = 12 * horizon.years.toNat := by
  have hyears := horizon.years.toNat_lt
  -- A number of years has 16 bits, so twelve times as many months fit 32.
  unfold months
  rw [UInt32.toNat_mul, UInt16.toNat_toUInt32]
  change horizon.years.toNat * 12 % 2 ^ 32 = _
  omega

namespace Rule

/-- No day from `start` to the end of the horizon fits the lists, and the calendar goes on after
the horizon. The horizon counts the month of `start` as a whole. -/
def NoneWithin (days : SortedSet Int32) (months : SortedSet UInt32) (start : Date)
    (horizon : Horizon) : Prop :=
  start.monthIndex + 12 * horizon.years.toNat ≤ 120000 ∧
    ∀ date, OnMonthDay days months date → start ≤ date →
      start.monthIndex + 12 * horizon.years.toNat ≤ date.monthIndex

/-- The answers to the question for the next occurrence of a rule. -/
inductive Answer (rule : Rule) (horizon : Horizon) (anchor reference : Date) :
    Except SearchError (Option Date) → Prop
  /-- The least of the occurrences after the reference. -/
  | found {date : Date} (h : IsLeast (rule.occurrencesAfter anchor reference) date) :
      Answer rule horizon anchor reference (.ok (some date))
  /-- A rule `once` without an occurrence after the reference. -/
  | nothingLeft (hrule : rule = .once) (h : rule.occurrencesAfter anchor reference = ∅) :
      Answer rule horizon anchor reference (.ok none)
  /-- Another rule without an occurrence after the reference. -/
  | pastLastDate (hrule : rule ≠ .once) (h : rule.occurrencesAfter anchor reference = ∅) :
      Answer rule horizon anchor reference (.error .pastLastDate)
  /-- A monthly rule without an occurrence within the horizon, which begins at the first
  candidate. -/
  | exhausted {days : SortedSet Int32} {months : SortedSet UInt32} {start : Date}
      (hrule : rule = .monthly days months)
      (hstart : ∀ date, start ≤ date ↔ anchor ≤ date ∧ reference < date)
      (h : NoneWithin days months start horizon) :
      Answer rule horizon anchor reference (.error (.exhausted rule start horizon.years))

/-- For a rule that neither occurs once only nor has a horizon to exhaust, the answer is that of a
search that cannot miss. -/
theorem Answer.finds {rule : Rule} {horizon : Horizon} {anchor reference : Date}
    {answer : Except SearchError (Option Date)} (h : Answer rule horizon anchor reference answer)
    (honce : rule ≠ .once) (hmonthly : ∀ days months, rule ≠ .monthly days months) :
    Search.Finds (rule.occurrencesAfter anchor reference) False answer := by
  cases h with
  | found h => exact .least h
  | nothingLeft hrule _ => exact absurd hrule honce
  | pastLastDate _ h => exact .pastLastDate h
  | exhausted hrule _ _ => exact absurd hrule (hmonthly _ _)

/-- A search that cannot miss answers the question for a rule that has an occurrence. -/
private theorem answer_of_finds (rule : Rule) (horizon : Horizon) {anchor reference : Date}
    {answer : Except SearchError (Option Date)}
    (h : Search.Finds (rule.occurrencesAfter anchor reference) False answer)
    (hrule : rule ≠ .once) :
    Answer rule horizon anchor reference answer := by
  cases h with
  | least h => exact .found h
  | missed h => exact h.elim
  | pastLastDate h => exact .pastLastDate hrule h

/-- After the last date there is no occurrence. -/
private theorem occurrencesAfter_last (rule : Rule) (anchor : Date) :
    rule.occurrencesAfter anchor Date.last = ∅ :=
  Set.eq_empty_of_forall_notMem fun date hdate => absurd hdate.2 (not_lt.2 date.le_last)

/-- A search from the first candidate on answers the question, if what it finds is the next
occurrence and where it gives up the horizon is exhausted. -/
private theorem answer_of_firstCandidate (rule : Rule) (hrule : rule ≠ .once) {horizon : Horizon}
    {anchor reference : Date} (search : Date → Except SearchError (Option Date))
    (gaveUp : Date → Prop)
    (hsearch : ∀ start, (∀ date, start ≤ date ↔ anchor ≤ date ∧ reference < date) →
      Search.Finds (rule.occurrencesAfter anchor reference) (gaveUp start) (search start))
    (hgaveUp : ∀ start, (∀ date, start ≤ date ↔ anchor ≤ date ∧ reference < date) →
      gaveUp start →
      Answer rule horizon anchor reference (.error (.exhausted rule start horizon.years))) :
    Answer rule horizon anchor reference
      (Search.firstCandidate anchor reference >>= fun start =>
        search start >>= next.found rule horizon start) := by
  rcases Search.firstCandidate_spec anchor reference with
    ⟨start, hcandidate, hstart⟩ | ⟨herror, rfl⟩
  · rw [hcandidate]
    change Answer _ _ _ _ (search start >>= next.found rule horizon start)
    have hfinds := hsearch start hstart
    generalize search start = answer at hfinds ⊢
    cases hfinds with
    | least h => exact .found h
    | missed h => exact hgaveUp start hstart h
    | pastLastDate h => exact .pastLastDate hrule h
  · rw [herror]
    exact .pastLastDate hrule (occurrencesAfter_last rule anchor)

private theorem next_once (horizon : Horizon) (anchor reference : Date) :
    Answer .once horizon anchor reference (Rule.next .once horizon anchor reference) := by
  change Answer _ _ _ _ (.ok (if reference < anchor then some anchor else none))
  split
  next hlt =>
    refine .found ⟨⟨rfl, hlt⟩, ?_⟩
    rintro other ⟨rfl, -⟩
    exact le_refl _
  next hle =>
    refine .nothingLeft rfl (Set.eq_empty_of_forall_notMem ?_)
    rintro other ⟨rfl, hlt⟩
    exact hle hlt

private theorem next_weekly {days : SortedSet UInt32} (hrange : (Rule.weekly days).InRange)
    (horizon : Horizon) (anchor reference : Date) :
    Answer (.weekly days) horizon anchor reference
      (Rule.next (.weekly days) horizon anchor reference) := by
  refine answer_of_firstCandidate (.weekly days) nofun (Search.weekly days · (List.range 7))
    (fun _ => False) (fun start hstart => ?_) fun _ _ => False.elim
  refine (Search.weekly_finds hrange.1 hrange.2 start).congr ?_ id
  ext date
  change (anchor ≤ date ∧ OnWeekday days date) ∧ reference < date ↔
    OnWeekday days date ∧ start ≤ date
  rw [hstart]
  tauto

/-- A monthly search looks at the months of the horizon, which begins with the month of `start`. -/
theorem monthly_finds_noneWithin (days : SortedSet Int32) (months : SortedSet UInt32)
    (start : Date) (horizon : Horizon) :
    Search.Finds {date | OnMonthDay days months date ∧ start ≤ date}
      (NoneWithin days months start horizon)
      (Search.monthly days months start (.ofDate start) horizon.months.toNat) := by
  have hindex := Search.Month.index_ofDate start
  refine (Search.monthly_finds days months (Search.Month.inCalendar_ofDate start)
    (le_of_eq hindex.symm) horizon.months.toNat).congr ?_ ?_
  · -- What the search looks for also says that the month is not before that of `start`.
    ext date
    rw [hindex]
    exact (and_iff_left_of_imp fun h => Date.monthIndex_le_of_le h.2).symm
  · rintro ⟨hbound, hmissed⟩
    rw [hindex, Horizon.toNat_months] at hbound hmissed
    refine ⟨by omega, fun date hdate hafter => ?_⟩
    have hlate := hmissed date hdate hafter (Date.monthIndex_le_of_le hafter)
    omega

private theorem next_monthly (days : SortedSet Int32) (months : SortedSet UInt32)
    (horizon : Horizon) (anchor reference : Date) :
    Answer (.monthly days months) horizon anchor reference
      (Rule.next (.monthly days months) horizon anchor reference) := by
  refine answer_of_firstCandidate (.monthly days months) nofun
    (fun start => Search.monthly days months start (.ofDate start) horizon.months.toNat)
    (NoneWithin days months · horizon) (fun start hstart => ?_) fun _ => .exhausted rfl
  refine (monthly_finds_noneWithin days months start horizon).congr ?_ id
  ext date
  change (anchor ≤ date ∧ OnMonthDay days months date) ∧ reference < date ↔
    OnMonthDay days months date ∧ start ≤ date
  rw [hstart]
  tauto

/-- What is answered to the question for the next occurrence of a rule in its range. -/
theorem next_answer {rule : Rule} (hrange : rule.InRange) (horizon : Horizon)
    (anchor reference : Date) :
    Answer rule horizon anchor reference (rule.next horizon anchor reference) := by
  cases rule with
  | once => exact next_once horizon anchor reference
  | daily interval =>
    exact answer_of_finds _ horizon (Search.daily_finds hrange.1 anchor reference) nofun
  | yearly => exact answer_of_finds _ horizon (Search.yearly_finds anchor reference) nofun
  | weekly days => exact next_weekly hrange horizon anchor reference
  | monthly days months => exact next_monthly days months horizon anchor reference

/-- A date that is answered is the least occurrence after the reference. -/
theorem isLeast_of_next {rule : Rule} (hrange : rule.InRange) {horizon : Horizon}
    {anchor reference date : Date} (h : rule.next horizon anchor reference = .ok (some date)) :
    IsLeast (rule.occurrencesAfter anchor reference) date := by
  have hanswer := next_answer hrange horizon anchor reference
  rw [h] at hanswer
  cases hanswer with
  | found hleast => exact hleast

end Rule

end Agenda
