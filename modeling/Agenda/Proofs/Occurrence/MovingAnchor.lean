import Agenda.Proofs.Occurrence.Series

/-!
# Moving the anchor

A task that is done is counted from its new day, so the anchor moves along with the occurrences.
This changes nothing: counted from one of its occurrences, a rule falls on the same later days as
counted from where it began. The one exception is a yearly rule that began on February 29, which
falls on the 28th of every year if it is counted from an occurrence on the 28th.

- `Rule.occurrencesAfter_reanchor`: the occurrences after an occurrence are the same from there.
- `Rule.next_reanchor`: so is what a search answers, its failures included.
- `Rule.series_moving_eq_fixed`: a series does not depend on whether its anchor moves.
-/

namespace Agenda.Rule

variable {rule : Rule} {horizon : Horizon} {anchor date reference : Date}

/-! ## One occurrence later -/

/-- No occurrence lies before the anchor. -/
theorem Occurs.anchor_le (h : rule.Occurs anchor date) : anchor ≤ date := by
  cases rule with
  | once => exact le_of_eq (Eq.symm h)
  | daily interval =>
    obtain ⟨k, hk⟩ := h
    have hnonneg : (0 : Int) ≤ k * interval.toNat :=
      Int.mul_nonneg (Int.natCast_nonneg k) (Int.natCast_nonneg interval.toNat)
    simp only [Date.daysSince] at hk
    rw [← Date.dayNumber_le_iff]
    omega
  | yearly =>
    obtain ⟨hyear, hanniversary⟩ := h
    rcases Int.lt_or_eq_of_le hyear with hlt | heq
    · exact le_of_lt (Date.lt_of_year_lt hlt)
    · exact le_of_eq (Date.anniversary_unique anchor.anniversary_self hanniversary heq)
  | weekly days => exact h.1
  | monthly days months => exact h.1

/-- Counted from an occurrence, a daily rule falls on the same later days. -/
private theorem occurs_daily_reanchor {interval : UInt32} {other : Date}
    (hoccurs : (daily interval).Occurs anchor date) (hlt : date < other) :
    (daily interval).Occurs date other ↔ (daily interval).Occurs anchor other := by
  obtain ⟨k, hk⟩ := hoccurs
  have hafter := Date.dayNumber_lt_iff.2 hlt
  show (∃ j : Nat, _) ↔ ∃ j : Nat, _
  simp only [Date.daysSince] at hk ⊢
  constructor
  · rintro ⟨j, hj⟩
    refine ⟨j + k, ?_⟩
    push_cast
    rw [Int.add_mul]
    omega
  · rintro ⟨j, hj⟩
    -- The other day is later, so it is more intervals away from the anchor.
    have hle : k ≤ j := by
      by_contra hgt
      have hmul : j * interval.toNat ≤ k * interval.toNat :=
        Nat.mul_le_mul_right _ (Nat.le_of_not_le hgt)
      have hmul' : (j : Int) * interval.toNat ≤ k * interval.toNat := by exact_mod_cast hmul
      omega
    refine ⟨j - k, ?_⟩
    rw [Int.ofNat_sub hle, Int.sub_mul]
    omega

/-- Counted from one of its occurrences, a rule falls on the same later days, unless it is a yearly
rule on February 29. -/
theorem occurs_reanchor {other : Date} (hoccurs : rule.Occurs anchor date) (hlt : date < other)
    (hleap : rule = .yearly → ¬ anchor.IsLeapDay) :
    rule.Occurs date other ↔ rule.Occurs anchor other := by
  have hafter : anchor ≤ other := hoccurs.anchor_le.trans (le_of_lt hlt)
  cases rule with
  | once =>
    cases hoccurs
    exact Iff.rfl
  | daily interval => exact occurs_daily_reanchor hoccurs hlt
  | yearly =>
    refine and_congr ?_ (hoccurs.2.anniversary_iff (hleap rfl) other)
    exact iff_of_true (Date.year_le_of_le (le_of_lt hlt)) (Date.year_le_of_le hafter)
  | weekly days => exact and_congr_left fun _ => iff_of_true (le_of_lt hlt) hafter
  | monthly days months => exact and_congr_left fun _ => iff_of_true (le_of_lt hlt) hafter

theorem occurrencesAfter_reanchor (hoccurs : rule.Occurs anchor date) (hle : date ≤ reference)
    (hleap : rule = .yearly → ¬ anchor.IsLeapDay) :
    rule.occurrencesAfter date reference = rule.occurrencesAfter anchor reference := by
  ext other
  exact and_congr_left fun hafter => occurs_reanchor hoccurs (hle.trans_lt hafter) hleap

/-- A search that begins not before an occurrence answers the same if it is counted from this
occurrence. A search that fails for want of a day in the horizon names the same first candidate. -/
theorem next_reanchor (hrange : rule.InRange) (hoccurs : rule.Occurs anchor date)
    (hle : date ≤ reference) (hleap : rule = .yearly → ¬ anchor.IsLeapDay) :
    rule.next horizon date reference = rule.next horizon anchor reference := by
  have hanchor : anchor ≤ reference := hoccurs.anchor_le.trans hle
  have hsame := occurrencesAfter_reanchor hoccurs hle hleap
  -- Daily and yearly searches are determined by the days that they look for. The others do not look
  -- at the anchor any more, since it is before their first candidate.
  cases rule with
  | once =>
    cases hoccurs
    rfl
  | daily interval =>
    have hfinds := Search.daily_finds hrange.1 date reference
    rw [hsame] at hfinds
    exact hfinds.unique (Search.daily_finds hrange.1 anchor reference)
  | yearly =>
    have hfinds := Search.yearly_finds date reference
    rw [hsame] at hfinds
    exact hfinds.unique (Search.yearly_finds anchor reference)
  | weekly days =>
    simp only [next, Search.firstCandidate_of_le hle, Search.firstCandidate_of_le hanchor]
  | monthly days months =>
    simp only [next, Search.firstCandidate_of_le hle, Search.firstCandidate_of_le hanchor]

/-- What a search finds is an occurrence after the reference. -/
theorem mem_occurrencesAfter_of_next (hrange : rule.InRange)
    (h : rule.next horizon anchor reference = .ok (some date)) :
    date ∈ rule.occurrencesAfter anchor reference :=
  (isLeast_of_next hrange h).1

/-! ## Series -/

/-- Two series stay together if one is counted from the anchor and the other from its reference,
which is the anchor or an occurrence. -/
private theorem series_reanchor (hrange : rule.InRange)
    (hleap : rule = .yearly → ¬ anchor.IsLeapDay)
    (hdate : date = anchor ∨ rule.Occurs anchor date ∧ date ≤ reference) (count : Nat) :
    rule.series horizon .moving date reference count =
      rule.series horizon .fixed anchor reference count := by
  -- The moving anchor and the reference change with every step, the fixed anchor stays.
  induction count generalizing date reference with
  | zero => rfl
  | succ count ih =>
    have hnext : rule.next horizon date reference = rule.next horizon anchor reference := by
      rcases hdate with rfl | ⟨hoccurs, hle⟩
      · rfl
      · exact next_reanchor hrange hoccurs hle hleap
    rw [series_succ, series_succ, hnext]
    cases hfound : rule.next horizon anchor reference with
    | error error => rfl
    | ok found? =>
      cases found? with
      | none => rfl
      | some found =>
        obtain ⟨hoccurs, -⟩ := mem_occurrencesAfter_of_next hrange hfound
        dsimp only [AnchorPolicy.following]
        rw [ih (Or.inr ⟨hoccurs, le_refl found⟩)]

/-- A series of a rule that was read is the same whether its anchor stays or moves along with its
occurrences, in its dates as well as in what ends it. Only a yearly rule must not begin on a
February 29. -/
theorem series_moving_eq_fixed {text : String} (h : ofText text = .ok rule)
    (hleap : rule = .yearly → ¬ anchor.IsLeapDay) (horizon : Horizon) (reference : Date)
    (count : Nat) :
    rule.series horizon .moving anchor reference count =
      rule.series horizon .fixed anchor reference count :=
  series_reanchor (inRange_of_ofText h) hleap (Or.inl rfl) count

/-- A yearly rule that begins on a February 28 stays on it, also in leap years. -/
theorem series_moving_eq_fixed_february :
    let anchor : Date := ⟨2023, 2, 28, by decide⟩
    ofText "y" = .ok yearly ∧ ¬ anchor.IsLeapDay ∧
      yearly.series .standard .moving anchor anchor 5 =
        yearly.series .standard .fixed anchor anchor 5 := by
  intro anchor
  have hread : ofText "y" = .ok yearly := by decide
  have hleap : ¬ anchor.IsLeapDay := by decide
  exact ⟨hread, hleap, series_moving_eq_fixed hread (fun _ => hleap) .standard anchor 5⟩

-- Of a February 29 the fourth occurrence differs, which is in the leap year 2028.
example :
    let anchor : Date := ⟨2024, 2, 29, by decide⟩
    (yearly.series .standard .moving anchor anchor 4).dates.getLast? =
        some ⟨2028, 2, 28, by decide⟩ ∧
      (yearly.series .standard .fixed anchor anchor 4).dates.getLast? =
        some ⟨2028, 2, 29, by decide⟩ := by
  decide

end Agenda.Rule
