import Agenda.Proofs.Occurrence.Next

/-!
# The search in exact integers

The next occurrence is computed with machine words. Here the computation is written a second time,
with unbounded integers, and every number that a word has to hold is checked against its range. A
computation in which one does not fit, or which divides by zero, has no answer.

- `Search.Word.hold?`: the check of a number against the range of a word.
- `Search.Exact.next?`: the computation, and before it one definition for each of its parts.
- `Rule.next_exact`: whatever the rule, no check ever fails, and the words give the same answer.
-/

namespace Agenda

namespace Search

/-- The words that a search computes with. -/
inductive Word where
  | signed32
  | unsigned32
  | signed64
  | unsigned64

namespace Word

/-- The least number of a word. -/
def least : Word → Int
  | signed32 => -2147483648
  | signed64 => -9223372036854775808
  | unsigned32 | unsigned64 => 0

/-- The greatest number of a word. -/
def greatest : Word → Int
  | signed32 => 2147483647
  | unsigned32 => 4294967295
  | signed64 => 9223372036854775807
  | unsigned64 => 18446744073709551615

/-- A number that has to fit the word. -/
@[irreducible]
def hold? (word : Word) (n : Int) : Option Int :=
  if word.least ≤ n ∧ n ≤ word.greatest then some n else none

theorem hold?_eq {word : Word} {n : Int} (h : word.least ≤ n ∧ n ≤ word.greatest) :
    word.hold? n = some n := by
  unfold hold?
  exact if_pos h

/-- A computation goes on with a number that fits. -/
theorem hold?_bind {α : Type} {word : Word} {n : Int} (h : word.least ≤ n ∧ n ≤ word.greatest)
    (next : Int → Option α) : (word.hold? n >>= next) = next n := by
  rw [hold?_eq h]
  rfl

/-- Whole numbers of 31 bits fit every word. -/
theorem fits {word : Word} {n : Int} (h : 0 ≤ n ∧ n < 2147483648) :
    word.least ≤ n ∧ n ≤ word.greatest := by
  cases word <;> simp only [least, greatest] <;> omega

end Word

/-! ## The computation -/

namespace Exact

/-- The quotient of two numbers; there is none by zero. -/
def quotient? (n divisor : Int) : Option Int :=
  if divisor = 0 then none else some (n / divisor)

/-- A computation that goes on with the answer of a search, unless the search has failed. -/
def proceed {α β : Type} (answer : Except SearchError α)
    (next : α → Option (Except SearchError β)) : Option (Except SearchError β) :=
  match answer with
  | .error error => some (.error error)
  | .ok value => next value

/-- The first of the days `anchor`, `anchor + interval`, … after the reference. -/
def daily? (interval : UInt32) (anchor reference : Date) : Option (Except SearchError Date) :=
  if reference < anchor then some (.ok anchor)
  else do
    let days ← Word.signed64.hold? (reference.daysSince anchor)
    let behind ← Word.unsigned64.hold? days
    let stride ← Word.unsigned64.hold? (max interval.toNat 1 : Nat)
    let steps ← Word.unsigned64.hold? ((← quotient? behind stride) + 1)
    let distance ← Word.unsigned64.hold? (steps * stride)
    return withinCalendar (anchor.addDays? distance.toNat)

/-- The anchor's month and day in the first year that puts it after the reference. -/
def yearly? (anchor reference : Date) : Option (Except SearchError Date) := do
  let year ← Word.signed32.hold? (max anchor.year reference.year)
  proceed (withinCalendar (anchor.inYear? year)) fun date =>
    if reference < date then some (.ok date)
    else do
      let year ← Word.signed32.hold? (year + 1)
      return withinCalendar (anchor.inYear? year)

/-- The first day at one of the given distances from `start` whose weekday is listed. -/
def weekly? (days : SortedSet UInt32) (start : Date) :
    List Nat → Option (Except SearchError (Option Date))
  | [] => some (.ok none)
  | distance :: rest =>
    proceed (withinCalendar (start.addDays? distance)) fun date => do
      let weekday ← Word.unsigned32.hold? date.weekday
      if days.toList.any fun d => (d.toNat : Int) = weekday then return .ok (some date)
      else weekly? days start rest

/-- The day that an entry names in a month whose last day is `last`, if it names one. -/
def resolveEntry? (last entry : Int) : Option (Option Int) := do
  let size ← Word.unsigned32.hold? entry.natAbs
  if size = 0 ∨ last < size then return none
  else if 0 < entry then return some size
  else
    let following ← Word.unsigned32.hold? (last + 1)
    let day ← Word.unsigned32.hold? (following - size)
    return some day

/-- The earliest day of a month, not before `earliest`, that one of the entries names. -/
def firstEntry? (days : SortedSet Int32) (last earliest : Int) : Option (Option Int) := do
  let resolved ← days.toList.mapM fun entry => resolveEntry? last entry.toInt
  return ((resolved.filterMap id).filter (earliest ≤ ·)).min?

/-- The earliest day not before `start` that fits the entries in the given month, provided that
the month itself is listed. -/
def dayInMonth? (days : SortedSet Int32) (months : SortedSet UInt32) (start : Date)
    (year month : Int) : Option (Option Int) :=
  if months.isEmpty ∨ months.toList.any fun m => (m.toNat : Int) = month then do
    let last ← Word.unsigned32.hold? (daysInMonth year month.toNat)
    firstEntry? days last (if year = start.year ∧ month = start.month then start.day else 1)
  else some none

/-- The following month. -/
def nextMonth? (year month : Int) : Option (Int × Int) :=
  if month = 12 then (Word.signed32.hold? (year + 1)).map (·, 1)
  else (Word.unsigned32.hold? (month + 1)).map (year, ·)

/-- The first day not before `start` that fits the entries, in the given month or one of the
following, as many in all as the last argument says. -/
def monthly? (days : SortedSet Int32) (months : SortedSet UInt32) (start : Date) :
    Int → Int → Nat → Option (Except SearchError (Option Date))
  | _, _, 0 => some (.ok none)
  | year, month, left + 1 => do
    match ← dayInMonth? days months start year month with
    | some day => return .ok (Date.ofYmd? year month.toNat day.toNat)
    | none =>
      let (year, month) ← nextMonth? year month
      if maxYear < year then return .error .pastLastDate
      else monthly? days months start year month left

/-- The next occurrence of a rule after the reference, counted from the anchor. -/
def next? (rule : Rule) (horizon : Horizon) (anchor reference : Date) :
    Option (Except SearchError (Option Date)) :=
  match rule with
  | .once => some (.ok (if reference < anchor then some anchor else none))
  | .daily interval => (daily? interval anchor reference).map (some <$> ·)
  | .yearly => (yearly? anchor reference).map (some <$> ·)
  | .weekly days =>
    proceed (firstCandidate anchor reference) fun start =>
      (weekly? days start (List.range 7)).map (· >>= Rule.next.found rule horizon start)
  | .monthly days months =>
    proceed (firstCandidate anchor reference) fun start => do
      let count ← Word.unsigned32.hold? (horizon.years.toNat * 12)
      (monthly? days months start start.year start.month count.toNat).map
        (· >>= Rule.next.found rule horizon start)

/-! ## The words compute the same -/

/-- What goes on with every answer as the words do is as a whole what the words compute. -/
theorem proceed_eq {α β : Type} {answer : Except SearchError α}
    {next : α → Option (Except SearchError β)} {words : α → Except SearchError β}
    (h : ∀ value, answer = .ok value → next value = some (words value)) :
    proceed answer next = some (answer >>= words) := by
  cases answer with
  | error error => rfl
  | ok value => exact h value rfl

/-- A computation goes on with a quotient unless it is by zero. -/
theorem quotient?_bind {α : Type} {n divisor : Int} (h : divisor ≠ 0) (next : Int → Option α) :
    (quotient? n divisor >>= next) = next (n / divisor) := by
  unfold quotient?
  rw [if_neg h]
  rfl

theorem daily?_eq (interval : UInt32) (anchor reference : Date) :
    daily? interval anchor reference = some (daily interval anchor reference) := by
  rw [daily_eq]
  unfold daily?
  split
  · rfl
  next hle =>
    have hbehind : 0 ≤ reference.daysSince anchor ∧ reference.daysSince anchor ≤ 3652058 := by
      have hnumber := Date.dayNumber_le_iff.2 (not_lt.1 hle)
      have := anchor.dayNumber_range
      have := reference.dayNumber_range
      unfold Date.daysSince
      omega
    have hinterval := interval.toNat_lt
    generalize reference.daysSince anchor = behind at hbehind ⊢
    generalize hstride : max interval.toNat 1 = stride
    have hrange : 1 ≤ (stride : Int) ∧ (stride : Int) < 4294967296 := by omega
    -- The quotient and one, times the stride, exceeds the distance by no more than the stride.
    have hquotient : 0 ≤ behind / stride := Int.ediv_nonneg hbehind.1 (by omega)
    have hsteps : behind / stride ≤ behind := Int.ediv_le_self _ hbehind.1
    have hdistance : 0 ≤ (behind / stride + 1) * stride ∧
        (behind / stride + 1) * stride ≤ behind + stride := by
      have hproduct : behind / stride * stride ≤ behind := Int.ediv_mul_le _ (by omega)
      rw [Int.add_mul, Int.one_mul]
      have := Int.mul_nonneg hquotient (by omega : 0 ≤ (stride : Int))
      omega
    have hfits {n : Int} (h : 0 ≤ n ∧ n < 9223372036854775808) :
        Word.unsigned64.least ≤ n ∧ n ≤ Word.unsigned64.greatest := by
      simp only [Word.least, Word.greatest]
      omega
    have hexact : ((behind / stride + 1) * stride).toNat =
        (behind.toNat / stride + 1) * stride := by
      obtain ⟨n, rfl⟩ := Int.eq_ofNat_of_zero_le hbehind.1
      norm_cast
    rw [Word.hold?_bind (Word.fits (by omega)), Word.hold?_bind (Word.fits (by omega)),
      Word.hold?_bind (hfits (by omega)), quotient?_bind (by omega),
      Word.hold?_bind (hfits (by omega)), Word.hold?_bind (hfits (by omega)), hexact]
    rfl

theorem yearly?_eq (anchor reference : Date) :
    yearly? anchor reference = some (yearly anchor reference) := by
  have hanchor := anchor.onCalendar.1
  have hreference := reference.onCalendar.1
  unfold maxYear at hanchor hreference
  rw [yearly_eq]
  unfold yearly?
  rw [Word.hold?_bind (Word.fits (by omega))]
  refine proceed_eq fun date _ => ?_
  split
  · rfl
  · rw [Word.hold?_bind (Word.fits (by omega))]
    rfl

theorem weekly?_eq (days : SortedSet UInt32) (start : Date) (distances : List Nat) :
    weekly? days start distances = some (weekly days start distances) := by
  induction distances with
  | nil => rfl
  | cons distance rest ih =>
    unfold weekly? weekly
    refine proceed_eq fun date _ => ?_
    have hrange := date.weekday_range
    have hlisted : (days.toList.any fun d => (d.toNat : Int) = date.weekday) = true ↔
        UInt32.ofNat date.weekday ∈ days := by
      rw [Rule.weekday_mem_iff, List.any_eq_true]
      refine exists_congr fun d => and_congr_right fun _ => ?_
      rw [decide_eq_true_iff, Int.natCast_inj]
    rw [Word.hold?_bind (Word.fits (by omega))]
    by_cases h : UInt32.ofNat date.weekday ∈ days
    · rw [if_pos h, if_pos (hlisted.2 h)]
      rfl
    · rw [if_neg h, if_neg (mt hlisted.1 h)]
      exact ih

theorem resolveEntry?_eq {last : UInt32} (hlast : last.toNat ≤ 31) (entry : Int32) :
    resolveEntry? last.toNat entry.toInt =
      some ((resolveEntry last entry).map fun day => (day.toNat : Int)) := by
  have hsize := toNat_magnitude entry
  have hmagnitude := (magnitude entry).toNat_lt
  have hsizeFits : Word.unsigned32.least ≤ (entry.toInt.natAbs : Int) ∧
      (entry.toInt.natAbs : Int) ≤ Word.unsigned32.greatest := by
    simp only [Word.least, Word.greatest]
    omega
  unfold resolveEntry? resolveEntry
  rw [Word.hold?_bind hsizeFits]
  -- The three tests of an entry come out the same.
  have hnone : ((entry.toInt.natAbs : Int) = 0 ∨ (last.toNat : Int) < entry.toInt.natAbs) ↔
      (magnitude entry = 0 ∨ last < magnitude entry) := by
    rw [← UInt32.toNat_inj, UInt32.lt_iff_toNat_lt, hsize]
    change _ ↔ _ = 0 ∨ _
    omega
  have hpositive : (0 < entry.toInt) ↔ 0 < entry := by
    rw [Int32.lt_iff_toInt_lt, Int32.toInt_zero]
  by_cases hoff : magnitude entry = 0 ∨ last < magnitude entry
  · rw [if_pos hoff, if_pos (hnone.2 hoff)]
    rfl
  · have hle : entry.toInt.natAbs ≤ last.toNat := by
      have := mt hnone.1 hoff
      omega
    rw [if_neg hoff, if_neg (mt hnone.1 hoff)]
    by_cases hpos : 0 < entry
    · rw [if_pos hpos, if_pos (hpositive.2 hpos), Option.map_some, hsize]
      rfl
    · rw [if_neg hpos, if_neg (mt hpositive.1 hpos), Word.hold?_bind (Word.fits (by omega)),
        Word.hold?_bind (Word.fits (by omega)), Option.map_some, toNat_fromEnd hlast hle]
      have hexact : (last.toNat : Int) + 1 - entry.toInt.natAbs =
          (last.toNat + 1 - entry.toInt.natAbs : Nat) := by omega
      rw [hexact]
      rfl

/-- The least of words stands for the least of the numbers that the words stand for. -/
theorem min?_toNat (words : List UInt32) :
    (words.map fun word => (word.toNat : Int)).min? =
      words.min?.map fun word => (word.toNat : Int) := by
  cases h : words.min? with
  | none =>
    rw [List.min?_eq_none_iff.1 h]
    rfl
  | some least =>
    obtain ⟨hmem, hle⟩ := List.min?_eq_some_iff.1 h
    refine List.min?_eq_some_iff.2 ⟨List.mem_map_of_mem hmem, ?_⟩
    intro n hn
    obtain ⟨word, hword, rfl⟩ := List.mem_map.1 hn
    exact Int.ofNat_le.2 (UInt32.le_iff_toNat_le.1 (hle word hword))

theorem firstEntry?_eq (days : SortedSet Int32) {last : UInt32} (hlast : last.toNat ≤ 31)
    (earliest : UInt32) :
    firstEntry? days last.toNat earliest.toNat =
      some ((firstEntry days last earliest).map fun day => (day.toNat : Int)) := by
  have hresolved : (days.toList.mapM fun entry => resolveEntry? last.toNat entry.toInt) =
      some (days.toList.map fun entry =>
        (resolveEntry last entry).map fun day => (day.toNat : Int)) := by
    rw [funext (resolveEntry?_eq hlast)]
    exact List.mapM_pure
  -- To resolve the entries and to compare the days is the same in words and in numbers.
  have hdays : (((days.toList.map fun entry =>
        (resolveEntry last entry).map fun day => (day.toNat : Int)).filterMap id).filter
          ((earliest.toNat : Int) ≤ ·)) =
      ((days.toList.filterMap (resolveEntry last)).filter (earliest ≤ ·)).map
        fun day => (day.toNat : Int) := by
    have hnumbers : (id ∘ fun entry => (resolveEntry last entry).map fun day => (day.toNat : Int)) =
        fun entry => (resolveEntry last entry).map fun day => (day.toNat : Int) := rfl
    rw [List.filterMap_map, hnumbers, ← List.map_filterMap, List.filter_map]
    congr 2
    funext day
    refine decide_eq_decide.2 ?_
    rw [UInt32.le_iff_toNat_le, Int.ofNat_le]
  unfold firstEntry? firstEntry
  rw [hresolved, ← min?_toNat, ← hdays]
  rfl

theorem dayInMonth?_eq (days : SortedSet Int32) (months : SortedSet UInt32) (start : Date)
    {m : Month} (hm : m.InCalendar) :
    dayInMonth? days months start m.year.toInt m.month.toNat =
      some ((dayInMonth days months start m).map fun day => (day.toNat : Int)) := by
  have hlength : (daysInMonth m.year.toInt m.month.toNat : Int) = m.length.toNat := by
    unfold Month.length
    rw [toNat_ofNat_of_le (daysInMonth_le _ _)]
  have hearliest : (if m.year.toInt = start.year ∧ (m.month.toNat : Int) = start.month then
        (start.day : Int) else 1) =
      (if m = .ofDate start then UInt32.ofNat start.day else 1).toNat := by
    have hday := start.onCalendar.2.2.2.trans (daysInMonth_le _ _)
    obtain ⟨hyear, hmonth⟩ := Month.ofDate_eq start
    by_cases h : m = .ofDate start
    · rw [if_pos h, h, hyear, hmonth, if_pos ⟨rfl, rfl⟩, toNat_ofNat_of_le hday]
    · have hother : ¬ (m.year.toInt = start.year ∧ (m.month.toNat : Int) = start.month) := by
        intro hsame
        refine h ((Month.eq_ofDate_iff hm).2 ?_)
        unfold Month.index Date.monthIndex
        omega
      rw [if_neg h, if_neg hother]
      rfl
  have hlisted : (months.toList.any fun other => (other.toNat : Int) = m.month.toNat) = true ↔
      m.month ∈ months := by
    rw [List.any_eq_true]
    refine ⟨?_, fun h => ⟨_, h, decide_eq_true rfl⟩⟩
    rintro ⟨other, hother, heq⟩
    rwa [← UInt32.toNat_inj.1 (Int.ofNat_inj.1 (of_decide_eq_true heq))]
  unfold dayInMonth? dayInMonth
  by_cases h : months.isEmpty = true ∨ m.month ∈ months
  · rw [if_pos h, if_pos (h.imp_right hlisted.2), Int.toNat_natCast, hlength, hearliest,
      Word.hold?_bind (Word.fits (by have := m.toNat_length_le; omega))]
    exact firstEntry?_eq days m.toNat_length_le _
  · rw [if_neg h, if_neg (mt (Or.imp_right hlisted.1) h)]
    rfl

theorem nextMonth?_eq {m : Month} (hm : m.InCalendar) :
    nextMonth? m.year.toInt m.month.toNat =
      some (m.next.year.toInt, (m.next.month.toNat : Int)) := by
  obtain ⟨hyear, hmonth⟩ := Month.next_eq hm
  obtain ⟨hyears, hmonths⟩ := hm
  unfold maxYear at hyears
  unfold nextMonth?
  rw [hyear, hmonth]
  by_cases h : m.month.toNat = 12
  · rw [if_pos (by omega), if_pos h, if_pos h, Word.hold?_eq (Word.fits (by omega))]
    rfl
  · rw [if_neg (by omega), if_neg h, if_neg h, Word.hold?_eq (Word.fits (by omega))]
    rfl

theorem monthly?_eq (days : SortedSet Int32) (months : SortedSet UInt32) (start : Date)
    {m : Month} (hm : m.InCalendar) (left : Nat) :
    monthly? days months start m.year.toInt m.month.toNat left =
      some (monthly days months start m left) := by
  -- On the months that are left: the search goes on only within the calendar.
  induction left generalizing m with
  | zero => rfl
  | succ left ih =>
    unfold monthly? monthly
    rw [dayInMonth?_eq days months start hm]
    cases dayInMonth days months start m with
    | some day => rfl
    | none =>
      change (nextMonth? m.year.toInt m.month.toNat >>= _) = _
      rw [nextMonth?_eq hm]
      have hbeyond : maxYear < m.next.year.toInt ↔ Int32.ofInt maxYear < m.next.year := by
        have hmax : (Int32.ofInt maxYear).toInt = maxYear := by decide
        rw [Int32.lt_iff_toInt_lt, hmax]
      change (if maxYear < m.next.year.toInt then _ else _) = some (if _ then _ else _)
      rcases Month.next_inCalendar hm with ⟨hwithin, hnext⟩ | ⟨hpast, -⟩
      · rw [if_neg hwithin, if_neg (mt hbeyond.1 hwithin)]
        exact ih hnext
      · rw [if_pos hpast, if_pos (hbeyond.2 hpast)]
        rfl

theorem next?_eq (rule : Rule) (horizon : Horizon) (anchor reference : Date) :
    next? rule horizon anchor reference = some (rule.next horizon anchor reference) := by
  cases rule with
  | once => rfl
  | daily interval =>
    change (daily? interval anchor reference).map (some <$> ·) = _
    rw [daily?_eq]
    rfl
  | yearly =>
    change (yearly? anchor reference).map (some <$> ·) = _
    rw [yearly?_eq]
    rfl
  | weekly days =>
    unfold next?
    refine proceed_eq fun start _ => ?_
    rw [weekly?_eq]
    rfl
  | monthly days months =>
    unfold next?
    refine proceed_eq fun start _ => ?_
    -- The months of the longest horizon are fewer than a million.
    have hcount : (horizon.years.toNat : Int) * 12 = horizon.months.toNat := by
      rw [Horizon.toNat_months]
      omega
    obtain ⟨hyear, hmonth⟩ := Month.ofDate_eq start
    have hyears := horizon.years.toNat_lt
    rw [Word.hold?_bind (Word.fits (by omega)), hcount, Int.toNat_natCast, ← hyear, ← hmonth,
      monthly?_eq days months start (Month.inCalendar_ofDate start)]
    rfl

end Exact

end Search

/-- The next occurrence is what exact integers give: on the way to it no number leaves the range of
its word and nothing is divided by zero, whatever the rule. An entry that is resolved in a month
names one of the month's days. -/
theorem Rule.next_exact (rule : Rule) (horizon : Horizon) (anchor reference : Date) :
    Search.Exact.next? rule horizon anchor reference = some (rule.next horizon anchor reference) ∧
      ∀ (m : Search.Month) (entry : Int32) (day : UInt32),
        Search.resolveEntry m.length entry = some day →
          1 ≤ day.toNat ∧ day.toNat ≤ daysInMonth m.year.toInt m.month.toNat := by
  refine ⟨?_, fun m entry day hday => ?_⟩
  · exact Search.Exact.next?_eq rule horizon anchor reference
  · have hlength : m.length.toNat = daysInMonth m.year.toInt m.month.toNat :=
      Search.toNat_ofNat_of_le (daysInMonth_le _ _)
    obtain ⟨-, hrange⟩ := (Search.resolveEntry_eq_some_iff m.toNat_length_le).1 hday
    rw [← hlength]
    exact hrange

/-- The least of all words as an entry names no day of any month, and beside it the last day of
February is found. -/
theorem Rule.next_exact_unchecked :
    let rule := Rule.monthly (.ofList [-2147483648, -1]) .empty
    let february : Search.Month := ⟨2024, 2⟩
    Search.Exact.next? rule ⟨65535⟩ ⟨2024, 2, 1, by decide⟩ ⟨2024, 2, 10, by decide⟩ =
        some (.ok (some ⟨2024, 2, 29, by decide⟩)) ∧
      Search.resolveEntry february.length (-2147483648) = none ∧
      Search.resolveEntry february.length (-1) = some 29 ∧ 29 ≤ daysInMonth 2024 2 := by
  intro rule february
  obtain ⟨hnext, hday⟩ :=
    Rule.next_exact rule ⟨65535⟩ ⟨2024, 2, 1, by decide⟩ ⟨2024, 2, 10, by decide⟩
  have hresolved : Search.resolveEntry february.length (-1) = some 29 := by decide
  refine ⟨?_, by decide, hresolved, (hday february (-1) 29 hresolved).2⟩
  rw [hnext]
  decide

end Agenda
