import Agenda.Occurrence.Basic
import Agenda.Occurrence.Search
import Agenda.Proofs.Date.Order

/-!
# What a search finds

A search looks for the least of a set of days. `Search.Finds` says what it may answer: the least
day, that the calendar has none of them, or that it gave up under a condition that is stated with
it. Each of the four searches has one theorem of this form, in a module of its own.

- `Rule.occurrencesAfter`: the days that a search for the next occurrence looks for.
- `Search.Finds`: what a search may answer. `Search.Finds.least_or_empty` and what follows it are
  about searches that cannot miss.
- `Search.firstCandidate_spec` and `Search.firstCandidate_eq_ok_iff`: the days that weekly and
  monthly searches may name, and the first of them.
-/

namespace Agenda

/-- The days after the reference on which the rule, counted from the anchor, falls. -/
def Rule.occurrencesAfter (rule : Rule) (anchor reference : Date) : Set Date :=
  {date | rule.Occurs anchor date ∧ reference < date}

namespace Search

/-- The numbers of days, weekdays and months are words. -/
theorem toNat_ofNat_of_le {n : Nat} (h : n ≤ 31) : (UInt32.ofNat n).toNat = n :=
  UInt32.toNat_ofNat_of_lt' (Nat.lt_of_le_of_lt h (by decide))

/-- The answers of a search for the least of the given days. Without a day it either knows that
there is none, or it gave up under the given condition. -/
inductive Finds (days : Set Date) (gaveUp : Prop) : Except SearchError (Option Date) → Prop
  /-- The least of the days. -/
  | least {date : Date} (h : IsLeast days date) : Finds days gaveUp (.ok (some date))
  /-- No day, although there may be one. -/
  | missed (h : gaveUp) : Finds days gaveUp (.ok none)
  /-- The calendar has none of the days. -/
  | pastLastDate (h : days = ∅) : Finds days gaveUp (.error .pastLastDate)

/-- A search for some days is a search for any others with the same least day. -/
theorem Finds.congr {days days' : Set Date} {gaveUp gaveUp' : Prop}
    {answer : Except SearchError (Option Date)} (h : Finds days gaveUp answer)
    (hdays : days' = days) (hgaveUp : gaveUp → gaveUp') : Finds days' gaveUp' answer := by
  subst hdays
  cases h with
  | least h => exact .least h
  | missed h => exact .missed (hgaveUp h)
  | pastLastDate h => exact .pastLastDate h

/-- What a search answers that cannot miss is determined by the days. -/
theorem Finds.unique {days : Set Date} {answer answer' : Except SearchError (Option Date)}
    (h : Finds days False answer) (h' : Finds days False answer') : answer = answer' := by
  cases h with
  | missed h => exact h.elim
  | least h =>
    cases h' with
    | least h' => rw [h.unique h']
    | missed h' => exact h'.elim
    | pastLastDate h' => exact absurd h' (Set.nonempty_of_mem h.1).ne_empty
  | pastLastDate h =>
    cases h' with
    | least h' => exact absurd h (Set.nonempty_of_mem h'.1).ne_empty
    | missed h' => exact h'.elim
    | pastLastDate _ => rfl

/-- A search that cannot miss finds the least of the days, or the calendar has none of them. -/
theorem Finds.least_or_empty {days : Set Date} {answer : Except SearchError (Option Date)}
    (h : Finds days False answer) :
    (∃ date, IsLeast days date ∧ answer = .ok (some date)) ∨
      days = ∅ ∧ answer = .error .pastLastDate := by
  cases h with
  | least h => exact Or.inl ⟨_, h, rfl⟩
  | missed h => exact h.elim
  | pastLastDate h => exact Or.inr ⟨h, rfl⟩

/-- A search that cannot miss finds a date exactly if it is the least of the days. -/
theorem Finds.eq_ok_iff {days : Set Date} {answer : Except SearchError (Option Date)}
    (h : Finds days False answer) {date : Date} :
    answer = .ok (some date) ↔ IsLeast days date := by
  constructor
  · rintro rfl
    cases h with
    | least h => exact h
  · intro hleast
    exact h.unique (.least hleast)

/-- A search that cannot miss fails exactly if the calendar has none of the days. -/
theorem Finds.eq_error_iff {days : Set Date} {answer : Except SearchError (Option Date)}
    (h : Finds days False answer) : answer = .error .pastLastDate ↔ days = ∅ := by
  constructor
  · rintro rfl
    cases h with
    | pastLastDate h => exact h
  · intro hempty
    exact h.unique (.pastLastDate hempty)

/-- A date within the calendar is found if it is the least of the days, and without it there must
be none. -/
theorem finds_withinCalendar {days : Set Date} {date? : Option Date}
    (hsome : ∀ date, date? = some date → IsLeast days date) (hnone : date? = none → days = ∅) :
    Finds days False (some <$> withinCalendar date?) := by
  cases date? with
  | none => exact .pastLastDate (hnone rfl)
  | some date => exact .least (hsome date rfl)

/-- A search within the calendar finds the date that is given. -/
theorem map_withinCalendar_eq_ok_iff {date? : Option Date} {date : Date} :
    some <$> withinCalendar date? = .ok (some date) ↔ date? = some date := by
  cases date? <;> simp [withinCalendar]

/-- A search within the calendar fails exactly if no date is given. -/
theorem map_withinCalendar_eq_error_iff {date? : Option Date} :
    some <$> withinCalendar date? = .error .pastLastDate ↔ date? = none := by
  cases date? <;> simp [withinCalendar]

/-- The first candidate is the earliest day that is after the reference and not before the anchor.
Only after the last date there is none. -/
theorem firstCandidate_spec (anchor reference : Date) :
    (∃ start, firstCandidate anchor reference = .ok start ∧
      ∀ date, start ≤ date ↔ anchor ≤ date ∧ reference < date) ∨
    firstCandidate anchor reference = .error .pastLastDate ∧ reference = Date.last := by
  cases hsucc : reference.succ? with
  | none =>
    right
    refine ⟨?_, Date.succ?_eq_none_iff.1 hsucc⟩
    rw [firstCandidate, hsucc]
    rfl
  | some following =>
    left
    refine ⟨max following anchor, ?_, fun date => ?_⟩
    · rw [firstCandidate, hsucc]
      rfl
    · have hnumber := Date.succ?_eq_some_iff.1 hsucc
      rw [max_le_iff, and_comm, ← Date.dayNumber_lt_iff (a := reference),
        ← Date.dayNumber_le_iff (a := following), hnumber]
      rfl

/-- The candidates determine the first of them. -/
theorem firstCandidate_eq_ok_iff {anchor reference start : Date} :
    firstCandidate anchor reference = .ok start ↔
      ∀ date, start ≤ date ↔ anchor ≤ date ∧ reference < date := by
  rcases firstCandidate_spec anchor reference with ⟨first, hfirst, hdays⟩ | ⟨herror, rfl⟩
  · rw [hfirst]
    constructor
    · rintro ⟨⟩
      exact hdays
    · intro hstart
      have hle : first ≤ start := (hdays start).2 ((hstart start).1 (le_refl start))
      have hge : start ≤ first := (hstart first).2 ((hdays first).1 (le_refl first))
      rw [le_antisymm hle hge]
  · rw [herror]
    refine ⟨nofun, fun hstart => ?_⟩
    -- No day is after the last date, so it has no first candidate.
    have hafter := ((hstart start).1 (le_refl start)).2
    exact absurd hafter (not_lt.2 start.le_last)

/-- With an anchor that is not after the reference, the first candidate is the following day. -/
theorem firstCandidate_of_le {anchor reference : Date} (h : anchor ≤ reference) :
    firstCandidate anchor reference = withinCalendar reference.succ? := by
  unfold firstCandidate
  cases hsucc : reference.succ? with
  | none => rfl
  | some following =>
    have hafter : anchor ≤ following := by
      have hnumber := Date.succ?_eq_some_iff.1 hsucc
      rw [← Date.dayNumber_le_iff] at h ⊢
      omega
    change Except.ok (max following anchor) = Except.ok following
    rw [max_eq_left hafter]

end Search

end Agenda
