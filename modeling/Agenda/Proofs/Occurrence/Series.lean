import Agenda.Occurrence.Series
import Agenda.Proofs.Occurrence.Next
import Agenda.Proofs.Rule.Grammar

/-!
# What a series lists

A series with a fixed anchor lists the occurrences after the reference one by one: it skips none,
repeats none and adds none. If it ends for want of another occurrence, the calendar has none.

- `Rule.series_succ`: a series is its first search and the series from there on.
- `Series.Enumerates`: what a series lists of a set of days.
- `Rule.series_fixed_enumerates`: a series lists the occurrences of its rule.
-/

namespace Agenda

/-! ## Step by step -/

namespace Rule

variable (rule : Rule) (horizon : Horizon) (policy : AnchorPolicy)

/-- The occurrences so far come before those of the series that is yet to be searched. -/
private theorem seriesFrom_eq (soFar : List Date) (anchor reference : Date) (count : Nat) :
    rule.seriesFrom horizon policy soFar anchor reference count =
      ⟨soFar.reverse ++ (rule.series horizon policy anchor reference count).dates,
        (rule.series horizon policy anchor reference count).ended⟩ := by
  unfold series
  induction count generalizing soFar anchor reference with
  | zero => simp [seriesFrom]
  | succ count ih =>
    rw [seriesFrom, seriesFrom]
    cases rule.next horizon anchor reference with
    | error error => simp
    | ok date? =>
      cases date? with
      | none => simp
      | some date =>
        -- Both sides go on from this occurrence, each with its own occurrences before it.
        dsimp only
        rw [ih (date :: soFar), ih [date], List.reverse_cons, List.append_assoc]
        rfl

/-- A series is its first search and, if that finds a date, the series from this date on. -/
theorem series_succ (anchor reference : Date) (count : Nat) :
    rule.series horizon policy anchor reference (count + 1) =
      match rule.next horizon anchor reference with
      | .error error => ⟨[], .failed error⟩
      | .ok none => ⟨[], .noMore⟩
      | .ok (some date) =>
        let rest := rule.series horizon policy (policy.following anchor date) date count
        ⟨date :: rest.dates, rest.ended⟩ := by
  conv_lhs => rw [series, seriesFrom]
  cases rule.next horizon anchor reference with
  | error error => rfl
  | ok date? =>
    cases date? with
    | none => rfl
    | some date => exact seriesFrom_eq rule horizon policy [date] _ date count

/-- A series that is complete has as many occurrences as were asked for. -/
theorem series_length (anchor reference : Date) (count : Nat)
    (h : (rule.series horizon policy anchor reference count).ended = .complete) :
    (rule.series horizon policy anchor reference count).dates.length = count := by
  induction count generalizing anchor reference with
  | zero => rfl
  | succ count ih =>
    rw [series_succ] at h ⊢
    cases hnext : rule.next horizon anchor reference with
    | error error =>
      rw [hnext] at h
      cases h
    | ok date? =>
      rw [hnext] at h
      cases date? with
      | none => cases h
      | some date => exact congrArg (· + 1) (ih _ date h)

end Rule

/-! ## Enumeration -/

namespace Series

/-- The last of the occurrences, or the reference if there is none. -/
def lastDate (series : Series) (reference : Date) : Date :=
  series.dates.getLastD reference

/-- The series lists the days after the reference in their order, all of them up to the last one it
lists. It says that there is no more, or that the next one lies after the last date of the
calendar, only if it lists all of the days after the reference. -/
structure Enumerates (series : Series) (days : Set Date) (reference : Date) : Prop where
  /-- The reference and the listed dates ascend. -/
  ascending : (reference :: series.dates).Pairwise (· < ·)
  /-- The listed dates are the days after the reference and up to the last of them. -/
  mem_iff (date : Date) :
    date ∈ series.dates ↔ date ∈ days ∧ reference < date ∧ date ≤ series.lastDate reference
  /-- If the series ends for want of a date, no day comes after the last of them. -/
  covers (h : series.ended = .noMore ∨ series.ended = .failed .pastLastDate) (date : Date)
    (hdate : date ∈ days) : date ≤ series.lastDate reference

variable {days : Set Date} {reference : Date}

/-- The last date of a series is not before its reference. -/
private theorem Enumerates.le_lastDate {series : Series} (h : series.Enumerates days reference) :
    reference ≤ series.lastDate reference := by
  have hmem : series.lastDate reference ∈ reference :: series.dates :=
    List.getLastD_mem_cons
  rcases List.mem_cons.1 hmem with heq | hlater
  · exact le_of_eq heq.symm
  · exact le_of_lt ((List.pairwise_cons.1 h.ascending).1 _ hlater)

/-- A series that lists no date. It may say why only if there is none. -/
theorem enumerates_nil {ended : Series.End}
    (h : ended = .noMore ∨ ended = .failed .pastLastDate → ∀ date ∈ days, date ≤ reference) :
    (⟨[], ended⟩ : Series).Enumerates days reference where
  ascending := List.pairwise_singleton _ _
  mem_iff date := by
    refine ⟨fun hmem => absurd hmem List.not_mem_nil, ?_⟩
    rintro ⟨-, hafter, hle⟩
    exact absurd hafter (not_lt.2 hle)
  covers := h

/-- A series that lists the days after the least of them, and this one before them. -/
theorem enumerates_cons {date : Date} {rest : Series}
    (hleast : IsLeast {day | day ∈ days ∧ reference < day} date)
    (h : rest.Enumerates days date) :
    (⟨date :: rest.dates, rest.ended⟩ : Series).Enumerates days reference := by
  obtain ⟨⟨hdate, hafter⟩, hminimal⟩ := hleast
  have hlast : (⟨date :: rest.dates, rest.ended⟩ : Series).lastDate reference =
      rest.lastDate date := List.getLastD_cons ..
  constructor
  case ascending =>
    refine List.pairwise_cons.2 ⟨fun other hother => ?_, h.ascending⟩
    rcases List.mem_cons.1 hother with rfl | hother
    · exact hafter
    · exact hafter.trans ((List.pairwise_cons.1 h.ascending).1 other hother)
  case mem_iff =>
    intro other
    rw [hlast, List.mem_cons, h.mem_iff]
    constructor
    · rintro (rfl | ⟨hother, hlater, hle⟩)
      · exact ⟨hdate, hafter, h.le_lastDate⟩
      · exact ⟨hother, hafter.trans hlater, hle⟩
    · -- A day after the reference is the least one or comes after it, where the rest lists it.
      rintro ⟨hother, hlater, hle⟩
      rcases (hminimal ⟨hother, hlater⟩).eq_or_lt with heq | hlt
      · exact Or.inl heq.symm
      · exact Or.inr ⟨hother, hlt, hle⟩
  case covers =>
    intro hended other hother
    rw [hlast]
    exact h.covers hended other hother

end Series

namespace Rule

/-- A series of a rule in its range, with a fixed anchor, lists the rule's occurrences. -/
theorem series_fixed_enumerates {rule : Rule} (hrange : rule.InRange) (horizon : Horizon)
    (anchor reference : Date) (count : Nat) :
    (rule.series horizon .fixed anchor reference count).Enumerates
      {date | rule.Occurs anchor date} reference := by
  -- The anchor stays, so the days that are enumerated are the same at every step.
  induction count generalizing reference with
  | zero => exact Series.enumerates_nil nofun
  | succ count ih =>
    have hempty (h : rule.occurrencesAfter anchor reference = ∅) (date : Date)
        (hdate : rule.Occurs anchor date) : date ≤ reference :=
      not_lt.1 fun hlt => Set.eq_empty_iff_forall_notMem.1 h date ⟨hdate, hlt⟩
    rw [series_succ]
    have hanswer := next_answer hrange horizon anchor reference
    generalize rule.next horizon anchor reference = answer at hanswer ⊢
    cases hanswer with
    | found h => exact Series.enumerates_cons h (ih _)
    | nothingLeft _ h => exact Series.enumerates_nil fun _ => hempty h
    | pastLastDate _ h => exact Series.enumerates_nil fun _ => hempty h
    | exhausted _ _ _ => exact Series.enumerates_nil nofun

/-- A series fails only for want of an occurrence in the calendar or, with a monthly rule, in the
horizon. -/
theorem series_failed {rule : Rule} (hrange : rule.InRange) (horizon : Horizon)
    (policy : AnchorPolicy) (anchor reference : Date) (count : Nat) {error : SearchError}
    (h : (rule.series horizon policy anchor reference count).ended = .failed error) :
    error = .pastLastDate ∨
      rule.kind = .monthly ∧ ∃ start, error = .exhausted rule start horizon.years := by
  induction count generalizing anchor reference with
  | zero => cases h
  | succ count ih =>
    rw [series_succ] at h
    have hanswer := next_answer hrange horizon anchor reference
    generalize rule.next horizon anchor reference = answer at hanswer h
    cases hanswer with
    | found _ => exact ih _ _ h
    | nothingLeft _ _ => cases h
    | pastLastDate _ _ =>
      cases h
      exact Or.inl rfl
    | exhausted hrule _ _ =>
      cases h
      exact Or.inr ⟨hrule ▸ rfl, _, rfl⟩

/-- A series of a rule that was read lists, with a fixed anchor, the rule's occurrences after the
reference: in their order, without a gap, and to the end of the calendar if it says that there is no
more. It has as many as were asked for unless it ends so or, with a monthly rule, at the horizon. -/
theorem series_fixed_spec {text : String} {rule : Rule} (h : ofText text = .ok rule)
    (horizon : Horizon) (anchor reference : Date) (count : Nat) :
    let series := rule.series horizon .fixed anchor reference count
    series.Enumerates {date | rule.Occurs anchor date} reference ∧
      (series.ended = .complete → series.dates.length = count) ∧
      ∀ error, series.ended = .failed error →
        error = .pastLastDate ∨
          rule.kind = .monthly ∧ ∃ start, error = .exhausted rule start horizon.years :=
  have hrange := inRange_of_ofText h
  ⟨series_fixed_enumerates hrange horizon anchor reference count,
    series_length rule horizon .fixed anchor reference count,
    fun _ => series_failed hrange horizon .fixed anchor reference count⟩

/-- Of a task that is due on February 29 and comes back every year, the next four days of its series
are listed, three of which are the 28th. -/
theorem series_fixed_spec_leapDay :
    let leapDay : Date := ⟨2024, 2, 29, by decide⟩
    let series := yearly.series .standard .fixed leapDay leapDay 4
    ofText " y" = .ok yearly ∧ series.ended = .complete ∧ series.dates.length = 4 ∧
      series.Enumerates {date | yearly.Occurs leapDay date} leapDay := by
  intro leapDay series
  have hread : ofText " y" = .ok yearly := by decide
  have hended : series.ended = .complete := by decide
  obtain ⟨hlists, hlength, -⟩ := series_fixed_spec hread .standard leapDay leapDay 4
  exact ⟨hread, hended, hlength hended, hlists⟩

end Rule

end Agenda
