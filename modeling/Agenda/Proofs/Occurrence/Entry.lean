import Agenda.Proofs.Occurrence.Finds
import Mathlib.Tactic.ByContra

/-!
# Entries for days of a month

An entry counts from the month's beginning or from its end. It is resolved in machine words, which
no month is long enough to overflow.

- `Search.resolveEntry_eq_some_iff`: an entry is resolved to the day that it names.
- `Search.firstEntry_eq_some` and `Search.firstEntry_eq_none`: the earliest day that is named.
-/

namespace Agenda.Search

/-- The magnitude of a word is the absolute value of what it stands for. -/
theorem toNat_magnitude (entry : Int32) : (magnitude entry).toNat = entry.toInt.natAbs := by
  -- The upper half of the words stands for the numbers below zero.
  have hint : entry.toInt =
      if 2 * entry.toUInt32.toNat < 2 ^ 32 then (entry.toUInt32.toNat : Int)
      else entry.toUInt32.toNat - 2 ^ 32 := BitVec.toInt_eq_toNat_cond entry.toBitVec
  have hlt := entry.toUInt32.toNat_lt
  unfold magnitude
  split
  next hneg =>
    rw [Int32.lt_iff_toInt_lt, Int32.toInt_zero] at hneg
    rw [Int32.toUInt32_neg, UInt32.toNat_neg]
    change (2 ^ 32 - entry.toUInt32.toNat) % 2 ^ 32 = _
    omega
  next hpos =>
    rw [Int32.lt_iff_toInt_lt, Int32.toInt_zero] at hpos
    omega

/-- Nothing overflows when an entry of the month is counted from the month's end. -/
theorem toNat_fromEnd {last : UInt32} (hlast : last.toNat ≤ 31) {entry : Int32}
    (hle : entry.toInt.natAbs ≤ last.toNat) :
    (last + 1 - magnitude entry).toNat = last.toNat + 1 - entry.toInt.natAbs := by
  have hsize := toNat_magnitude entry
  have hfollowing : (last + 1).toNat = last.toNat + 1 := by
    rw [UInt32.toNat_add]
    exact Nat.mod_eq_of_lt (by change last.toNat + 1 < 2 ^ 32; omega)
  rw [UInt32.toNat_sub_of_le _ _ (by rw [UInt32.le_iff_toNat_le]; omega), hfollowing, hsize]

/-- An entry is resolved to the day that it names and to no other. -/
theorem resolveEntry_eq_some_iff {last day : UInt32} (hlast : last.toNat ≤ 31) {entry : Int32} :
    resolveEntry last entry = some day ↔
      Rule.EntryNames entry.toInt last.toNat day.toNat := by
  have hsize := toNat_magnitude entry
  unfold resolveEntry Rule.EntryNames
  dsimp only
  split
  next hnone =>
    -- The entry is 0 or names a day beyond either end of the month.
    have hoff : entry.toInt.natAbs = 0 ∨ last.toNat < entry.toInt.natAbs := by
      rw [← hsize]
      rcases hnone with hzero | hlt
      · exact Or.inl (by rw [hzero]; rfl)
      · exact Or.inr (UInt32.lt_iff_toNat_lt.1 hlt)
    simp only [reduceCtorEq, false_iff]
    omega
  next hsome =>
    have hzero : entry.toInt.natAbs ≠ 0 := by
      rw [← hsize]
      exact fun h => hsome (Or.inl (UInt32.toNat_inj.1 h))
    have hle : entry.toInt.natAbs ≤ last.toNat := by
      rw [← hsize]
      exact Nat.not_lt.1 fun h => hsome (Or.inr (UInt32.lt_iff_toNat_lt.2 h))
    -- The entry counts from the beginning of the month if it is positive, and from its end if not.
    split
    next hpos =>
      rw [Int32.lt_iff_toInt_lt, Int32.toInt_zero] at hpos
      rw [Option.some.injEq, ← UInt32.toNat_inj, hsize]
      omega
    next hneg =>
      rw [Int32.lt_iff_toInt_lt, Int32.toInt_zero] at hneg
      rw [Option.some.injEq, ← UInt32.toNat_inj, toNat_fromEnd hlast hle]
      omega

/-- One of the entries names the day of a month with the given length. -/
def Named (days : SortedSet Int32) (length day : Nat) : Prop :=
  ∃ entry ∈ days, Rule.EntryNames entry.toInt length day

/-- The days that the entries resolve to, from the earliest one on that is asked for. -/
private theorem mem_resolved {days : SortedSet Int32} {last earliest day : UInt32}
    (hlast : last.toNat ≤ 31) :
    day ∈ (days.toList.filterMap (resolveEntry last)).filter (earliest ≤ ·) ↔
      Named days last.toNat day.toNat ∧ earliest.toNat ≤ day.toNat := by
  rw [List.mem_filter, List.mem_filterMap, decide_eq_true_iff, UInt32.le_iff_toNat_le]
  refine and_congr_left fun _ => exists_congr fun entry => and_congr_right fun _ => ?_
  exact resolveEntry_eq_some_iff hlast

private theorem toNat_ofNat_of_named {days : SortedSet Int32} {length day : Nat}
    (hlength : length ≤ 31) (h : Named days length day) : (UInt32.ofNat day).toNat = day := by
  obtain ⟨entry, -, -, -, hle⟩ := h
  exact toNat_ofNat_of_le (hle.trans hlength)

/-- The first entry's day is the earliest one that is named. -/
theorem firstEntry_eq_some {days : SortedSet Int32} {last earliest day : UInt32}
    (hlast : last.toNat ≤ 31) (h : firstEntry days last earliest = some day) :
    IsLeast {n | Named days last.toNat n ∧ earliest.toNat ≤ n} day.toNat := by
  rw [firstEntry, List.min?_eq_some_iff] at h
  obtain ⟨hmem, hle⟩ := h
  refine ⟨(mem_resolved hlast).1 hmem, ?_⟩
  -- Any other day that is named is resolved as well, so it is one of those that were compared.
  rintro n ⟨hnamed, hearliest⟩
  have hword := toNat_ofNat_of_named hlast hnamed
  rw [← hword, ← UInt32.le_iff_toNat_le]
  exact hle _ ((mem_resolved hlast).2 (by rw [hword]; exact ⟨hnamed, hearliest⟩))

/-- Without a first entry no day is named. -/
theorem firstEntry_eq_none {days : SortedSet Int32} {last earliest : UInt32}
    (hlast : last.toNat ≤ 31) (h : firstEntry days last earliest = none) {n : Nat}
    (hnamed : Named days last.toNat n) : n < earliest.toNat := by
  rw [firstEntry, List.min?_eq_none_iff, List.eq_nil_iff_forall_not_mem] at h
  by_contra hle
  have hword := toNat_ofNat_of_named hlast hnamed
  refine h (UInt32.ofNat n) ((mem_resolved hlast).2 ?_)
  rw [hword]
  exact ⟨hnamed, Nat.not_lt.1 hle⟩

end Agenda.Search
