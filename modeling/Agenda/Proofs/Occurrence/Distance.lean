import Agenda.Proofs.Date.Anniversary
import Agenda.Proofs.Occurrence.Finds

/-!
# Daily and yearly searches

Both are computed from the distance between anchor and reference, in machine words.

- `Search.daily_eq` and `Search.yearly_eq`: the words compute what unbounded integers would.
- `Search.isLeast_stepsBeyond` and `Search.addDays?_finds`: the quotient counts the intervals up to
  the first day after the reference.
- `Search.daily_finds` and `Search.yearly_finds`: what is computed is the next occurrence.
-/

namespace Agenda.Search

/-! ## Every so many days -/

private theorem toNat_stride (interval : UInt32) :
    ((max interval 1).toUInt64).toNat = max interval.toNat 1 := by
  rw [UInt32.toNat_toUInt64]
  change (if interval ≤ 1 then 1 else interval).toNat = _
  split
  next h =>
    have hle : interval.toNat ≤ 1 := UInt32.le_iff_toNat_le.1 h
    exact (max_eq_right hle).symm
  next h =>
    have hgt : ¬ interval.toNat ≤ 1 := fun hle => h (UInt32.le_iff_toNat_le.2 hle)
    exact (max_eq_left (Nat.le_of_not_le hgt)).symm

/-- The distance that is added to the anchor stays within 64 bits. -/
private theorem toNat_distance {behind : Int} {stride : UInt64}
    (hbehind : 0 ≤ behind ∧ behind < UInt32.size) (hstride : stride.toNat < UInt32.size) :
    ((UInt64.ofInt behind / stride + 1) * stride).toNat =
      (behind.toNat / stride.toNat + 1) * stride.toNat := by
  unfold UInt32.size at hbehind hstride
  have hword : (UInt64.ofInt behind).toNat = behind.toNat := by
    rw [UInt64.ofInt, UInt64.toNat_ofNat']
    omega
  have hquotient : behind.toNat / stride.toNat ≤ behind.toNat := Nat.div_le_self _ _
  have hproduct : behind.toNat / stride.toNat * stride.toNat ≤ behind.toNat :=
    Nat.div_mul_le_self _ _
  -- Neither the quotient and one nor its product with the stride reaches the width of the word.
  rw [UInt64.toNat_mul, UInt64.toNat_add, UInt64.toNat_div, hword]
  change (behind.toNat / stride.toNat + 1) % 2 ^ 64 * stride.toNat % 2 ^ 64 = _
  rw [Nat.mod_eq_of_lt (by omega : behind.toNat / stride.toNat + 1 < 2 ^ 64)]
  apply Nat.mod_eq_of_lt
  rw [Nat.succ_mul]
  omega

/-- A daily search in unbounded integers: the least multiple of the interval that is greater than
the days the reference lies behind the anchor. -/
theorem daily_eq (interval : UInt32) (anchor reference : Date) :
    daily interval anchor reference =
      if reference < anchor then .ok anchor
      else withinCalendar (anchor.addDays?
        (((reference.daysSince anchor).toNat / max interval.toNat 1 + 1) *
          max interval.toNat 1)) := by
  unfold daily
  split
  · rfl
  next hle =>
    have hbehind : 0 ≤ reference.daysSince anchor ∧ reference.daysSince anchor < 2 ^ 32 := by
      have hnumber := Date.dayNumber_le_iff.2 (not_lt.1 hle)
      have := anchor.dayNumber_range
      have := reference.dayNumber_range
      unfold Date.daysSince
      omega
    have hstride : ((max interval 1).toUInt64).toNat < 2 ^ 32 := by
      rw [UInt32.toNat_toUInt64]
      exact UInt32.toNat_lt _
    dsimp only
    rw [toNat_distance hbehind hstride, toNat_stride]

/-- How many times `n` has to be added to 0 to exceed `behind`. -/
def stepsBeyond (behind : Int) (n : Nat) : Nat :=
  if behind < 0 then 0 else behind.toNat / n + 1

/-- No smaller multiple of `n` exceeds `behind`. -/
theorem isLeast_stepsBeyond (behind : Int) {n : Nat} (hn : 0 < n) :
    IsLeast {k : Nat | behind < k * n} (stepsBeyond behind n) := by
  unfold stepsBeyond
  split
  next hneg =>
    -- What is negative is exceeded by 0, and no number of steps is less.
    refine ⟨?_, fun k _ => Nat.zero_le k⟩
    simpa using hneg
  next hnonneg =>
    have hmul : behind.toNat < (behind.toNat / n + 1) * n := by
      rw [Nat.mul_comm]
      exact Nat.lt_mul_div_succ behind.toNat hn
    constructor
    · show behind < ((behind.toNat / n + 1 : Nat) : Int) * n
      have hmul' : (behind.toNat : Int) < ((behind.toNat / n + 1 : Nat) : Int) * n := by
        exact_mod_cast hmul
      omega
    · intro k hk
      have hk' : (behind.toNat : Int) < (k : Int) * n := by
        rw [Int.toNat_of_nonneg (Int.not_lt.1 hnonneg)]
        exact hk
      exact (Nat.div_lt_iff_lt_mul hn).2 (by exact_mod_cast hk')

/-- A daily search adds the interval to the anchor as often as it takes to exceed the reference. -/
theorem daily_eq_addDays? {interval : UInt32} (hinterval : 1 ≤ interval.toNat)
    (anchor reference : Date) :
    daily interval anchor reference = withinCalendar (anchor.addDays?
      (stepsBeyond (reference.daysSince anchor) interval.toNat * interval.toNat)) := by
  have hself : anchor.daysSince anchor = 0 := Int.sub_self _
  have hiff : reference.daysSince anchor < 0 ↔ reference < anchor := by
    rw [← hself]
    exact Date.daysSince_lt_iff anchor
  rw [daily_eq, max_eq_left hinterval]
  unfold stepsBeyond
  by_cases hlt : reference < anchor
  · have hzero : anchor.addDays? 0 = some anchor := Date.addDays?_eq_some_iff.2 hself
    rw [if_pos hlt, if_pos (hiff.2 hlt), Nat.zero_mul, hzero]
    rfl
  · rw [if_neg hlt, if_neg (mt hiff.1 hlt)]

/-- Of the days that are whole intervals away from the anchor, the first after the reference is the
one at the least number of intervals that exceeds the reference. -/
theorem addDays?_finds {interval : UInt32} {anchor reference : Date} {k : Nat}
    (hleast : IsLeast {k : Nat | reference.daysSince anchor < k * interval.toNat} k) :
    Finds ((Rule.daily interval).occurrencesAfter anchor reference) False
      (some <$> withinCalendar (anchor.addDays? (k * interval.toNat))) := by
  obtain ⟨hafter, hminimal⟩ := hleast
  change reference.daysSince anchor < k * interval.toNat at hafter
  -- An occurrence after the reference is at least as many intervals away from the anchor.
  have hfar : ∀ other ∈ (Rule.daily interval).occurrencesAfter anchor reference,
      (k : Int) * interval.toNat ≤ other.daysSince anchor := by
    rintro other ⟨⟨j, hj⟩, hother⟩
    have hlater : reference.daysSince anchor < other.daysSince anchor :=
      (Date.daysSince_lt_iff anchor).2 hother
    rw [hj] at hlater ⊢
    exact_mod_cast Nat.mul_le_mul_right _ (hminimal hlater)
  refine finds_withinCalendar (fun date hdate => ?_) fun hnone => ?_
  -- The day at this distance is the least one, and without it all of them are beyond the calendar.
  · have hdistance : date.daysSince anchor = k * interval.toNat := by
      rw [Date.addDays?_eq_some_iff.1 hdate]
      push_cast
      rfl
    refine ⟨⟨⟨k, hdistance⟩, ?_⟩, fun other hother => ?_⟩
    · rw [← Date.daysSince_lt_iff anchor, hdistance]
      exact hafter
    · rw [← Date.daysSince_le_iff anchor, hdistance]
      exact hfar other hother
  · have hbeyond := Date.addDays?_eq_none_iff.1 hnone
    push_cast at hbeyond
    refine Set.eq_empty_of_forall_notMem fun other hother => ?_
    have hdistance := hfar other hother
    have hlast := Date.dayNumber_le_iff.2 other.le_last
    unfold Date.daysSince at hdistance
    omega

theorem daily_finds {interval : UInt32} (hinterval : 1 ≤ interval.toNat)
    (anchor reference : Date) :
    Finds ((Rule.daily interval).occurrencesAfter anchor reference) False
      (some <$> daily interval anchor reference) := by
  rw [daily_eq_addDays? hinterval]
  exact addDays?_finds (isLeast_stepsBeyond _ hinterval)

/-! ## Every year -/

theorem yearly_eq (anchor reference : Date) :
    yearly anchor reference = (do
      let date ← withinCalendar (anchor.inYear? (max anchor.year reference.year))
      if reference < date then return date
      else withinCalendar (anchor.inYear? (max anchor.year reference.year + 1))) := by
  have hanchor := anchor.onCalendar.1
  have hreference := reference.onCalendar.1
  unfold maxYear at hanchor hreference
  have hyear : (Int32.ofInt (max anchor.year reference.year)).toInt =
      max anchor.year reference.year :=
    Int32.toInt_ofInt_of_le (by omega) (by omega)
  have hnext : (Int32.ofInt (max anchor.year reference.year) + 1).toInt =
      max anchor.year reference.year + 1 := by
    rw [Int32.toInt_add, hyear]
    change (max anchor.year reference.year + 1).bmod (2 ^ 32) = _
    rw [Int.bmod_eq_of_le (by omega) (by omega)]
  unfold yearly
  dsimp only
  rw [hyear, hnext]

theorem yearly_finds (anchor reference : Date) :
    Finds (Rule.yearly.occurrencesAfter anchor reference) False
      (some <$> yearly anchor reference) := by
  have hyears : 1 ≤ max anchor.year reference.year ∧ max anchor.year reference.year ≤ maxYear := by
    have hanchor := anchor.onCalendar.1
    have hreference := reference.onCalendar.1
    omega
  obtain ⟨candidate, hcandidate⟩ := anchor.exists_inYear? hyears
  obtain ⟨hyear, hanniversary⟩ := Date.inYear?_eq_some_iff.1 hcandidate
  -- An occurrence after the reference is of the candidate's year or of a later one.
  have hlate : ∀ other ∈ Rule.yearly.occurrencesAfter anchor reference,
      candidate.year < other.year ∨ other = candidate := by
    rintro other ⟨⟨hfrom, hother⟩, hafter⟩
    have := Date.year_le_of_le (le_of_lt hafter)
    rcases Int.lt_or_eq_of_le (by omega : candidate.year ≤ other.year) with hlt | heq
    · exact Or.inl hlt
    · exact Or.inr (Date.anniversary_unique hother hanniversary heq.symm)
  rw [yearly_eq, hcandidate]
  change Finds _ False (some <$> if reference < candidate then .ok candidate
    else withinCalendar (anchor.inYear? (max anchor.year reference.year + 1)))
  split
  next hlt =>
    refine .least ⟨⟨⟨by omega, hanniversary⟩, hlt⟩, fun other hother => ?_⟩
    rcases hlate other hother with hlater | rfl
    · exact le_of_lt (Date.lt_of_year_lt hlater)
    · exact le_refl _
  next hle =>
    -- The candidate is not after the reference, so an occurrence that is lies in a later year.
    have hlater : ∀ other ∈ Rule.yearly.occurrencesAfter anchor reference,
        candidate.year < other.year := by
      intro other hother
      rcases hlate other hother with hlt | rfl
      · exact hlt
      · exact absurd hother.2 hle
    refine finds_withinCalendar (fun date hdate => ?_) fun hnone => ?_
    -- The year after the candidate's has the least one, or else it is no year of the calendar.
    · obtain ⟨hdateYear, hdateAnniversary⟩ := Date.inYear?_eq_some_iff.1 hdate
      refine ⟨⟨⟨by omega, hdateAnniversary⟩, Date.lt_of_year_lt (by omega)⟩, fun other hother => ?_⟩
      have hyearLe := hlater other hother
      rcases Int.lt_or_eq_of_le (by omega : date.year ≤ other.year) with hlt | heq
      · exact le_of_lt (Date.lt_of_year_lt hlt)
      · exact le_of_eq (Date.anniversary_unique hdateAnniversary hother.1.2 heq)
    · refine Set.eq_empty_of_forall_notMem fun other hother => ?_
      have hyearLe := hlater other hother
      have hrange := other.onCalendar.1
      exact Date.inYear?_eq_none_iff.1 hnone ⟨by omega, by omega⟩

end Agenda.Search
