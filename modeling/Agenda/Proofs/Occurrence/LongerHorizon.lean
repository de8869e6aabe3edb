import Agenda.Proofs.Occurrence.DayByDay

/-!
# The next occurrence with a longer horizon

Two searches for the next occurrence of the same rule, from the same anchor and the same reference
but with two horizons. The longer one can only turn an exhausted search into another answer. Every
other answer stays: a date that was found is not found earlier or later, and the end of the calendar
is met in the same month. This holds for all rules, whether or not a text names them.

- `Search.monthly_eq_of_le`: more months do not change the answer of a search that has one.
- `Rule.Prolongs`: the pairs of answers with two horizons, and `Rule.next_prolongs`, which says that
  there are no others.
- `Rule.next_of_longer_horizon`: what this says of the next occurrence.
-/

namespace Agenda

/-! ## More months -/

namespace Search

variable {days : SortedSet Int32} {months : SortedSet UInt32} {start : Date} {m : Month}

/-- A search that did not miss answers the same when it is given more months. -/
theorem monthly_eq_of_le {left left' : Nat} (hle : left ≤ left')
    (hanswered : monthly days months start m left ≠ .ok none) :
    monthly days months start m left' = monthly days months start m left := by
  -- On the months of the shorter search, for every month from which they are counted.
  induction left generalizing m left' with
  | zero => exact absurd rfl hanswered
  | succ left ih =>
    obtain ⟨more, rfl⟩ := Nat.exists_eq_add_of_le hle
    rw [Nat.add_right_comm]
    simp only [monthly] at hanswered ⊢
    cases hfound : dayInMonth days months start m with
    | some day => rfl
    | none =>
      -- Both searches have met the end of the calendar, or look at the same month next.
      simp only [hfound] at hanswered ⊢
      by_cases hend : Int32.ofInt maxYear < m.next.year
      · rw [if_pos hend, if_pos hend]
      · rw [if_neg hend] at hanswered
        rw [if_neg hend, if_neg hend]
        exact ih (Nat.le_add_right left more) hanswered

end Search

/-- A longer horizon has no fewer months. -/
theorem Horizon.toNat_months_le {horizon longer : Horizon} (hle : horizon.years ≤ longer.years) :
    horizon.months.toNat ≤ longer.months.toNat := by
  rw [toNat_months, toNat_months]
  exact Nat.mul_le_mul_left 12 (UInt16.le_iff_toNat_le.1 hle)

/-! ## Two horizons -/

namespace Rule

/-- The answer is that a horizon is exhausted. -/
def Exhausted (answer : Except SearchError (Option Date)) : Prop :=
  ∃ rule start years, answer = .error (.exhausted rule start years)

theorem not_exhausted_ok (date? : Option Date) : ¬ Exhausted (.ok date?) := by
  rintro ⟨rule, start, years, h⟩
  cases h

theorem not_exhausted_pastLastDate : ¬ Exhausted (.error .pastLastDate) := by
  rintro ⟨rule, start, years, h⟩
  cases h

/-- A search for days knows no horizon, so it does not exhaust one. -/
theorem not_exhausted_of_finds {days : Set Date} {gaveUp : Prop}
    {answer : Except SearchError (Option Date)} (h : Search.Finds days gaveUp answer) :
    ¬ Exhausted answer := by
  cases h with
  | least h => exact not_exhausted_ok _
  | missed h => exact not_exhausted_ok _
  | pastLastDate h => exact not_exhausted_pastLastDate

/-- The pairs of answers with a horizon and with a longer one. -/
inductive Prolongs (rule : Rule) (horizon longer : Horizon) :
    Except SearchError (Option Date) → Except SearchError (Option Date) → Prop
  /-- The same answer, which is not that a horizon is exhausted. -/
  | same {answer : Except SearchError (Option Date)} (h : ¬ Exhausted answer) :
      Prolongs rule horizon longer answer answer
  /-- Both horizons are exhausted. They begin with the same day. -/
  | exhausted {start : Date} :
      Prolongs rule horizon longer (.error (.exhausted rule start horizon.years))
        (.error (.exhausted rule start longer.years))
  /-- Only the shorter horizon is exhausted. -/
  | farther {start : Date} {answer : Except SearchError (Option Date)} (h : ¬ Exhausted answer) :
      Prolongs rule horizon longer (.error (.exhausted rule start horizon.years)) answer

variable {rule : Rule} {horizon longer : Horizon}

/-- What is made of the answer of a search: only a search that missed exhausts the horizon. -/
theorem found_of_ne_none {start : Date} {answer : Except SearchError (Option Date)}
    (h : answer ≠ .ok none) : (answer >>= next.found rule horizon start) = answer := by
  cases answer with
  | error error => rfl
  | ok date? =>
    cases date? with
    | none => exact absurd rfl h
    | some date => rfl

/-- A search from the same day with each of the horizons, which for the longer one misses only if it
does so for the other. -/
private theorem found_prolongs {start : Date} {days days' : Set Date} {gaveUp gaveUp' : Prop}
    {answer answer' : Except SearchError (Option Date)} (hfinds : Search.Finds days gaveUp answer)
    (hfinds' : Search.Finds days' gaveUp' answer')
    (hsame : answer ≠ .ok none → answer' = answer) :
    Prolongs rule horizon longer (answer >>= next.found rule horizon start)
      (answer' >>= next.found rule longer start) := by
  by_cases hmissed : answer = .ok none
  · -- The shorter horizon is exhausted, and the longer one may be.
    rw [hmissed]
    by_cases hmissed' : answer' = .ok none
    · rw [hmissed']
      exact .exhausted
    · rw [found_of_ne_none hmissed']
      exact .farther (not_exhausted_of_finds hfinds')
  · have hsame := hsame hmissed
    rw [hsame, found_of_ne_none hmissed, found_of_ne_none hmissed]
    exact .same (not_exhausted_of_finds hfinds)

/-- A daily search knows no horizon, whatever its interval. -/
private theorem not_exhausted_daily (interval : UInt32) (anchor reference : Date) :
    ¬ Exhausted (some <$> Search.daily interval anchor reference) := by
  rw [Search.daily_eq]
  split
  next => exact not_exhausted_ok _
  next =>
    cases anchor.addDays? _ with
    | none => exact not_exhausted_pastLastDate
    | some date => exact not_exhausted_ok _

/-- Searches for the next occurrence with two horizons, for a rule whose search begins with the
first candidate. -/
private theorem firstCandidate_prolongs {anchor reference : Date}
    {search search' : Date → Except SearchError (Option Date)}
    (h : ∀ start, Prolongs rule horizon longer (search start) (search' start)) :
    Prolongs rule horizon longer (Search.firstCandidate anchor reference >>= search)
      (Search.firstCandidate anchor reference >>= search') := by
  rcases Search.firstCandidate_spec anchor reference with ⟨start, hstart, -⟩ | ⟨herror, -⟩
  · rw [hstart]
    exact h start
  · rw [herror]
    exact .same not_exhausted_pastLastDate

/-- Searches for the next occurrence with two horizons. -/
theorem next_prolongs (rule : Rule) (hle : horizon.years ≤ longer.years) (anchor reference : Date) :
    Prolongs rule horizon longer (rule.next horizon anchor reference)
      (rule.next longer anchor reference) := by
  -- Only a monthly search takes its months from the horizon.
  cases rule with
  | once => exact .same (not_exhausted_ok _)
  | daily interval => exact .same (not_exhausted_daily interval anchor reference)
  | yearly => exact .same (not_exhausted_of_finds (Search.yearly_finds anchor reference))
  | weekly days =>
    refine firstCandidate_prolongs fun start => ?_
    have hfinds := Search.weekly_range'_finds days start 0 7
    rw [← List.range_eq_range'] at hfinds
    exact found_prolongs hfinds hfinds fun _ => rfl
  | monthly days months =>
    refine firstCandidate_prolongs fun start => ?_
    exact found_prolongs (monthly_finds_noneWithin days months start horizon)
      (monthly_finds_noneWithin days months start longer)
      (Search.monthly_eq_of_le (Horizon.toNat_months_le hle))

/-- For every rule, anchor and reference and two horizons, one of which is not shorter than the
other: an answer that is not that the shorter horizon is exhausted is the answer with the longer one
as well; and if the longer horizon is exhausted, then so is the shorter one, for the same rule and
from the same day on. -/
theorem next_of_longer_horizon (rule : Rule) (anchor reference : Date)
    (hle : horizon.years ≤ longer.years) :
    (¬ Exhausted (rule.next horizon anchor reference) →
      rule.next longer anchor reference = rule.next horizon anchor reference) ∧
    ∀ rule' start years,
      rule.next longer anchor reference = .error (.exhausted rule' start years) →
        rule.next horizon anchor reference = .error (.exhausted rule' start horizon.years) ∧
          rule' = rule ∧ years = longer.years := by
  have hprolongs := next_prolongs rule hle anchor reference
  generalize rule.next horizon anchor reference = answer at hprolongs ⊢
  generalize rule.next longer anchor reference = answer' at hprolongs ⊢
  cases hprolongs with
  | same hanswered =>
    refine ⟨fun _ => rfl, fun rule' start years hexhausted => ?_⟩
    exact absurd ⟨rule', start, years, hexhausted⟩ hanswered
  | exhausted =>
    refine ⟨fun hanswered => absurd ⟨_, _, _, rfl⟩ hanswered, ?_⟩
    rintro rule' start years ⟨⟩
    exact ⟨rfl, rfl, rfl⟩
  | farther hanswered' =>
    refine ⟨fun hanswered => absurd ⟨_, _, _, rfl⟩ hanswered, ?_⟩
    intro rule' start years hexhausted
    exact absurd ⟨rule', start, years, hexhausted⟩ hanswered'

/-- From March 2026 on the next leap day is the last day of a horizon of two years, so it is found
with them and with ten. One year is exhausted, and then so is a horizon of no years. A weekly rule
without a weekday exhausts every horizon. -/
theorem next_of_longer_horizon_leapDay :
    let leapDays : Rule := .monthly (.ofList [29]) (.ofList [2])
    let leapDay : Date := ⟨2024, 2, 29, by decide⟩
    let reference : Date := ⟨2026, 2, 28, by decide⟩
    let start : Date := ⟨2026, 3, 1, by decide⟩
    let zero : Horizon := ⟨0⟩
    let one : Horizon := ⟨1⟩
    let two : Horizon := ⟨2⟩
    let ten : Horizon := ⟨10⟩
    (two.years ≤ ten.years ∧ ¬ Exhausted (leapDays.next two leapDay reference) ∧
        leapDays.next ten leapDay reference = leapDays.next two leapDay reference) ∧
      (zero.years ≤ one.years ∧
        leapDays.next one leapDay reference = .error (.exhausted leapDays start 1) ∧
        leapDays.next zero leapDay reference = .error (.exhausted leapDays start 0)) ∧
      (weekly .empty).next ten leapDay reference = .error (.exhausted (weekly .empty) start 10) ∧
        (weekly .empty).next two leapDay reference =
          .error (.exhausted (weekly .empty) start 2) := by
  intro leapDays leapDay reference start zero one two ten
  have hlonger : two.years ≤ ten.years := by decide
  have hshort : zero.years ≤ one.years := by decide
  have hanswered : ¬ Exhausted (leapDays.next two leapDay reference) := by
    have hfound : leapDays.next two leapDay reference =
        .ok (some ⟨2028, 2, 29, by decide⟩) := by decide +kernel
    rw [hfound]
    exact not_exhausted_ok _
  have hexhausted : leapDays.next one leapDay reference =
      .error (.exhausted leapDays start 1) := by decide
  have hempty : (weekly .empty).next ten leapDay reference =
      .error (.exhausted (weekly .empty) start 10) := by decide
  obtain ⟨hsame, -⟩ := next_of_longer_horizon leapDays leapDay reference hlonger
  obtain ⟨-, hboth⟩ := next_of_longer_horizon leapDays leapDay reference hshort
  obtain ⟨-, hboth'⟩ := next_of_longer_horizon (weekly .empty) leapDay reference hlonger
  exact ⟨⟨hlonger, hanswered, hsame hanswered⟩, ⟨hshort, hexhausted, (hboth _ _ _ hexhausted).1⟩,
    hempty, (hboth' _ _ _ hempty).1⟩

end Rule

end Agenda
