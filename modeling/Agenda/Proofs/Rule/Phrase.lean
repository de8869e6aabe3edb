import Agenda.Proofs.Rule.Grammar
import Agenda.Proofs.Text.Pieces
import Mathlib.Data.Set.List

/-!
# The texts of a rule

Which texts name a rule, in terms of words, list elements and the numbers that numerals stand for:
no reader and no machine word takes part. The words decide by their letter, and by the values of
their numerals; in which order, how often and with how many zeros these are written makes no
difference.

- `Rule.Phrase`: the words that name a rule, and `Rule.Named`, the texts that do.
- `Rule.ofText_eq_ok_iff`: exactly these texts are read, as the rule that they name.
- `Rule.Respelled`: words that differ only in how their lists and numbers are written.
- `Rule.ofText_grammar`: the grammar, and what does not change a rule.
-/

namespace Agenda.Rule

/-! ## Lists of numerals -/

section Values

variable {α β : Type} {Number : List Char → β → Prop} {list : List Char} {values : List β}

/-- The elements of the list are numerals of the given values. -/
def HasValues (Number : List Char → β → Prop) (list : List Char) (values : List β) : Prop :=
  ∃ elements, Text.HasElements list elements ∧ List.Forall₂ Number elements values

theorem hasValues_iff :
    HasValues Number list values ↔ List.Forall₂ Number (list.splitOn ',') values := by
  simp only [HasValues, Text.hasElements_iff, exists_eq_left']

variable {P : β → Prop} {read? : List Char → Option α} {val : α → β}

/-- What the elements of a list are read as: numbers in their range, which the elements stand
for. -/
theorem lists_iff_hasValues
    (hread : ∀ element value,
      read? element = some value ↔ Number element (val value) ∧ P (val value))
    {numbers : List α} :
    Lists read? list numbers ↔
      HasValues Number list (numbers.map val) ∧ ∀ n ∈ numbers.map val, P n := by
  unfold Lists
  rw [hasValues_iff, List.forall₂_map_right_iff]
  generalize list.splitOn ',' = elements
  induction elements generalizing numbers with
  | nil =>
    cases numbers <;> simp
  | cons element elements ih =>
    cases numbers with
    | nil => simp
    | cons number numbers =>
      rw [List.forall₂_cons, List.forall₂_cons, hread, ih, List.map_cons, List.forall_mem_cons]
      tauto

/-- The sets that a list is read as: those of the values of its elements. -/
theorem exists_lists_iff [LT α] [DecidableLT α] [Trans (· < · : α → α → Prop) (· < ·) (· < ·)]
    [Std.Trichotomous (· < · : α → α → Prop)] [Std.Asymm (· < · : α → α → Prop)]
    (hread : ∀ element value,
      read? element = some value ↔ Number element (val value) ∧ P (val value))
    (hinj : Function.Injective val) (hval : ∀ n, P n → ∃ value, val value = n) {set : SortedSet α} :
    (∃ numbers, Lists read? list numbers ∧ SortedSet.ofList numbers = set) ↔
      ∃ values, HasValues Number list values ∧ (∀ n ∈ values, P n) ∧
        ∀ value, value ∈ set ↔ val value ∈ values := by
  constructor
  · rintro ⟨numbers, hlist, rfl⟩
    obtain ⟨hvalues, hrange⟩ := (lists_iff_hasValues hread).1 hlist
    refine ⟨numbers.map val, hvalues, hrange, fun value => ?_⟩
    rw [SortedSet.mem_ofList, List.mem_map_of_injective hinj]
  · rintro ⟨values, hvalues, hrange, hset⟩
    -- Values in their range are those of machine words.
    obtain ⟨numbers, rfl⟩ : values ∈ Set.range (List.map val) := by
      rw [Set.range_list_map]
      exact fun n hn => hval n (hrange n hn)
    refine ⟨numbers, (lists_iff_hasValues hread).2 ⟨hvalues, hrange⟩, ?_⟩
    refine SortedSet.eq_of_mem_iff fun value => ?_
    rw [hset, SortedSet.mem_ofList, List.mem_map_of_injective hinj]

end Values

/-! ## Phrases -/

/-- The words name the rule: its letter, and numerals of its values. A rule for every month lists no
month. -/
inductive Phrase : List (List Char) → Rule → Prop
  | once : Phrase [] .once
  | daily {word : List Char} {interval : UInt32} (hword : Numeral.Natural word interval.toNat)
      (hrange : IsInterval interval.toNat) : Phrase [['d'], word] (.daily interval)
  | yearly : Phrase [['y']] .yearly
  | weekly {list : List Char} {values : List Nat} {days : SortedSet UInt32}
      (hlist : HasValues Numeral.Natural list values) (hrange : ∀ n ∈ values, IsWeekday n)
      (hdays : ∀ day, day ∈ days ↔ day.toNat ∈ values) : Phrase [['w'], list] (.weekly days)
  | everyMonth {list : List Char} {values : List Int} {days : SortedSet Int32}
      (hlist : HasValues Numeral.Integer list values) (hrange : ∀ n ∈ values, IsMonthDay n)
      (hdays : ∀ day, day ∈ days ↔ day.toInt ∈ values) :
      Phrase [['m'], list] (.monthly days .empty)
  | monthly {list list' : List Char} {values : List Int} {values' : List Nat}
      {days : SortedSet Int32} {months : SortedSet UInt32}
      (hlist : HasValues Numeral.Integer list values) (hrange : ∀ n ∈ values, IsMonthDay n)
      (hdays : ∀ day, day ∈ days ↔ day.toInt ∈ values)
      (hlist' : HasValues Numeral.Natural list' values') (hrange' : ∀ n ∈ values', IsMonth n)
      (hmonths : ∀ month, month ∈ months ↔ month.toNat ∈ values') :
      Phrase [['m'], list, list'] (.monthly days months)

/-- The text names the rule: its words do. -/
def Named (text : String) (rule : Rule) : Prop :=
  ∃ words, Text.HasWords text.toList words ∧ Phrase words rule

/-! ### Machine words for the values -/

/-- A number in a range of at most four hundred is that of a machine word. -/
theorem exists_toNat_eq {P : Nat → Prop} (hP : ∀ n, P n → n ≤ 400) (n : Nat) (hn : P n) :
    ∃ word : UInt32, word.toNat = n :=
  ⟨UInt32.ofNat n, UInt32.toNat_ofNat_of_lt' (Nat.lt_of_le_of_lt (hP n hn) (by decide))⟩

theorem exists_toNat_eq_interval (n : Nat) : IsInterval n → ∃ word : UInt32, word.toNat = n :=
  exists_toNat_eq (fun _ hn => hn.2) n

theorem exists_toNat_eq_weekday (n : Nat) : IsWeekday n → ∃ word : UInt32, word.toNat = n :=
  exists_toNat_eq (fun _ hn => hn.2.trans (by decide)) n

theorem exists_toNat_eq_month (n : Nat) : IsMonth n → ∃ word : UInt32, word.toNat = n :=
  exists_toNat_eq (fun _ hn => hn.2.trans (by decide)) n

theorem exists_toInt_eq_monthDay (n : Int) (hn : IsMonthDay n) :
    ∃ word : Int32, word.toInt = n := by
  obtain ⟨-, hle, hge⟩ := hn
  exact ⟨Int32.ofInt n, Int32.toInt_ofInt_of_le (by omega) (by omega)⟩

theorem interval?_iff_natural (word : List Char) (interval : UInt32) :
    interval? word = some interval ↔
      Numeral.Natural word interval.toNat ∧ IsInterval interval.toNat := by
  rw [interval?_eq_some_iff, Numeral.nat?_eq_some_iff]

theorem weekday?_iff_natural (element : List Char) (weekday : UInt32) :
    weekday? element = some weekday ↔
      Numeral.Natural element weekday.toNat ∧ IsWeekday weekday.toNat := by
  rw [weekday?_eq_some_iff, Numeral.nat?_eq_some_iff]

theorem month?_iff_natural (element : List Char) (month : UInt32) :
    month? element = some month ↔ Numeral.Natural element month.toNat ∧ IsMonth month.toNat := by
  rw [month?_eq_some_iff, Numeral.nat?_eq_some_iff]

theorem monthDay?_iff_integer (element : List Char) (entry : Int32) :
    monthDay? element = some entry ↔
      Numeral.Integer element entry.toInt ∧ IsMonthDay entry.toInt := by
  rw [monthDay?_eq_some_iff, Numeral.int?_eq_some_iff]

/-- The sets of weekdays that a list is read as. -/
private theorem exists_weekdays_iff {list : List Char} {days : SortedSet UInt32} :
    (∃ numbers, Lists weekday? list numbers ∧ SortedSet.ofList numbers = days) ↔
      ∃ values, HasValues Numeral.Natural list values ∧ (∀ n ∈ values, IsWeekday n) ∧
        ∀ day, day ∈ days ↔ day.toNat ∈ values :=
  exists_lists_iff weekday?_iff_natural (fun _ _ => UInt32.toNat_inj.1) exists_toNat_eq_weekday

/-- The sets of months that a list is read as. -/
private theorem exists_months_iff {list : List Char} {months : SortedSet UInt32} :
    (∃ numbers, Lists month? list numbers ∧ SortedSet.ofList numbers = months) ↔
      ∃ values, HasValues Numeral.Natural list values ∧ (∀ n ∈ values, IsMonth n) ∧
        ∀ month, month ∈ months ↔ month.toNat ∈ values :=
  exists_lists_iff month?_iff_natural (fun _ _ => UInt32.toNat_inj.1) exists_toNat_eq_month

/-- The sets of days of the month that a list is read as. -/
private theorem exists_monthDays_iff {list : List Char} {days : SortedSet Int32} :
    (∃ numbers, Lists monthDay? list numbers ∧ SortedSet.ofList numbers = days) ↔
      ∃ values, HasValues Numeral.Integer list values ∧ (∀ n ∈ values, IsMonthDay n) ∧
        ∀ day, day ∈ days ↔ day.toInt ∈ values :=
  exists_lists_iff monthDay?_iff_integer (fun _ _ => Int32.toInt_inj.1) exists_toInt_eq_monthDay

/-- The words that are read as a rule are those that name it. -/
theorem spells_iff_phrase {words : List (List Char)} {rule : Rule} :
    Spells words rule ↔ Phrase words rule := by
  constructor
  · intro h
    cases h with
    | once => exact .once
    | daily h =>
      obtain ⟨hword, hrange⟩ := (interval?_iff_natural _ _).1 h
      exact .daily hword hrange
    | yearly => exact .yearly
    | weekly h =>
      obtain ⟨values, hlist, hrange, hdays⟩ := exists_weekdays_iff.1 ⟨_, h, rfl⟩
      exact .weekly hlist hrange hdays
    | everyMonth h =>
      obtain ⟨values, hlist, hrange, hdays⟩ := exists_monthDays_iff.1 ⟨_, h, rfl⟩
      exact .everyMonth hlist hrange hdays
    | monthly h h' =>
      obtain ⟨values, hlist, hrange, hdays⟩ := exists_monthDays_iff.1 ⟨_, h, rfl⟩
      obtain ⟨values', hlist', hrange', hmonths⟩ := exists_months_iff.1 ⟨_, h', rfl⟩
      exact .monthly hlist hrange hdays hlist' hrange' hmonths
  · intro h
    cases h with
    | once => exact .once
    | daily hword hrange => exact .daily ((interval?_iff_natural _ _).2 ⟨hword, hrange⟩)
    | yearly => exact .yearly
    | weekly hlist hrange hdays =>
      obtain ⟨numbers, h, rfl⟩ := exists_weekdays_iff.2 ⟨_, hlist, hrange, hdays⟩
      exact .weekly h
    | everyMonth hlist hrange hdays =>
      obtain ⟨numbers, h, rfl⟩ := exists_monthDays_iff.2 ⟨_, hlist, hrange, hdays⟩
      exact .everyMonth h
    | monthly hlist hrange hdays hlist' hrange' hmonths =>
      obtain ⟨numbers, h, rfl⟩ := exists_monthDays_iff.2 ⟨_, hlist, hrange, hdays⟩
      obtain ⟨numbers', h', rfl⟩ := exists_months_iff.2 ⟨_, hlist', hrange', hmonths⟩
      exact .monthly h h'

/-- Exactly the texts that name a rule are read, as the rule that they name. -/
theorem ofText_eq_ok_iff {text : String} {rule : Rule} :
    ofText text = .ok rule ↔ Named text rule := by
  simp only [Named, Text.hasWords_iff, exists_eq_left', ← spells_iff_phrase]
  exact ofWords_eq_ok_iff

/-! ## Other spellings -/

section Respelled

variable {β : Type} {Number : List Char → β → Prop}

/-- Both lists have the same values, in whatever order and however often. -/
def SameValues (Number : List Char → β → Prop) (list list' : List Char) : Prop :=
  ∃ values values', HasValues Number list values ∧ HasValues Number list' values' ∧
    ∀ n, n ∈ values ↔ n ∈ values'

/-- The values of a list are those of any other list with the same values. -/
theorem SameValues.exists_values (hunique : Relator.RightUnique Number) {list list' : List Char}
    {values : List β} (h : SameValues Number list list') (hvalues : HasValues Number list values) :
    ∃ values', HasValues Number list' values' ∧ ∀ n, n ∈ values' ↔ n ∈ values := by
  obtain ⟨others, values', hothers, hvalues', hsame⟩ := h
  rw [hasValues_iff] at hvalues hothers
  rw [hunique.forall₂ hothers hvalues] at hsame
  exact ⟨values', hvalues', fun n => (hsame n).symm⟩

end Respelled

/-- Two sequences of words with the same letter, whose numbers and lists have the same values. -/
inductive Respelled : List (List Char) → List (List Char) → Prop
  | once : Respelled [] []
  | daily {word word' : List Char} {n : Nat} (h : Numeral.Natural word n)
      (h' : Numeral.Natural word' n) : Respelled [['d'], word] [['d'], word']
  | yearly : Respelled [['y']] [['y']]
  | weekly {list list' : List Char} (h : SameValues Numeral.Natural list list') :
      Respelled [['w'], list] [['w'], list']
  | everyMonth {list list' : List Char} (h : SameValues Numeral.Integer list list') :
      Respelled [['m'], list] [['m'], list']
  | monthly {list list' other other' : List Char} (h : SameValues Numeral.Integer list list')
      (h' : SameValues Numeral.Natural other other') :
      Respelled [['m'], list, other] [['m'], list', other']

/-- Other words with the same letter and values name the same rule. -/
theorem Phrase.respell {words words' : List (List Char)} {rule : Rule} (hphrase : Phrase words rule)
    (h : Respelled words words') : Phrase words' rule := by
  -- The letter decides how the words are respelled; the values are then moved to the other words.
  cases hphrase with
  | once =>
    cases h
    exact .once
  | daily hword hrange =>
    cases h with
    | daily hn hn' =>
      rw [Numeral.rightUnique_natural hn hword] at hn'
      exact .daily hn' hrange
  | yearly =>
    cases h
    exact .yearly
  | weekly hlist hrange hdays =>
    cases h with
    | weekly hsame =>
      obtain ⟨values', hlist', hmem⟩ := hsame.exists_values Numeral.rightUnique_natural hlist
      exact .weekly hlist' (fun n hn => hrange n ((hmem n).1 hn))
        fun day => (hdays day).trans (hmem _).symm
  | everyMonth hlist hrange hdays =>
    cases h with
    | everyMonth hsame =>
      obtain ⟨values', hlist', hmem⟩ := hsame.exists_values Numeral.rightUnique_integer hlist
      exact .everyMonth hlist' (fun n hn => hrange n ((hmem n).1 hn))
        fun day => (hdays day).trans (hmem _).symm
  | monthly hlist hrange hdays hother hrange' hmonths =>
    cases h with
    | monthly hsame hsame' =>
      obtain ⟨values', hlist', hmem⟩ := hsame.exists_values Numeral.rightUnique_integer hlist
      obtain ⟨others', hother', hmem'⟩ := hsame'.exists_values Numeral.rightUnique_natural hother
      exact .monthly hlist' (fun n hn => hrange n ((hmem n).1 hn))
        (fun day => (hdays day).trans (hmem _).symm) hother'
        (fun n hn => hrange' n ((hmem' n).1 hn)) fun month => (hmonths month).trans (hmem' _).symm

/-- The grammar of rules. Exactly the texts that name a rule are read, as the rule that they name. A
text whose words have the same letter and the same values as those of another is read as the same
rule, whatever blanks are between the words, in whatever order and however often the elements of a
list are given, and with however many zeros in front. -/
theorem ofText_grammar :
    (∀ text rule, ofText text = .ok rule ↔ Named text rule) ∧
    (∀ text text' words words' rule, Text.HasWords text.toList words →
      Text.HasWords text'.toList words' → Respelled words words' →
        ofText text = .ok rule → ofText text' = .ok rule) ∧
    ∀ digits n, Numeral.Digits digits n → Numeral.Digits ('0' :: digits) n := by
  refine ⟨fun text rule => ofText_eq_ok_iff, ?_, fun digits n => Numeral.Digits.zero_cons⟩
  intro text text' words words' rule hwords hwords' hrespelled hread
  obtain ⟨others, hothers, hphrase⟩ := ofText_eq_ok_iff.1 hread
  rw [Text.hasWords_iff] at hwords hothers
  rw [← hothers, hwords] at hphrase
  exact ofText_eq_ok_iff.2 ⟨words', hwords', hphrase.respell hrespelled⟩

/-- The 15th and the last day of January and December, with signs, zeros, repetitions and more than
one blank: the texts name the rule, and one is read as the other. -/
theorem ofText_grammar_respelled :
    let rule : Rule := .monthly (.ofList [15, -1]) (.ofList [12, 1])
    let words := [['m'], "15,-1,+15".toList, "012,1".toList]
    let words' := [['m'], "-1,0015".toList, "1,12,012".toList]
    Text.HasWords "m  15,-1,+15 012,1".toList words ∧
      Text.HasWords "\tm -1,0015\u2003 1,12,012".toList words' ∧ Respelled words words' ∧
      (ofText "m  15,-1,+15 012,1" = .ok rule ∧ Named "m  15,-1,+15 012,1" rule) ∧
      (ofText "\tm -1,0015\u2003 1,12,012" = .ok rule ∧
        Named "\tm -1,0015\u2003 1,12,012" rule) ∧
      Numeral.Digits ['1', '2'] 12 ∧ Numeral.Digits ['0', '1', '2'] 12 := by
  intro rule words words'
  have hwords : Text.HasWords "m  15,-1,+15 012,1".toList words :=
    Text.hasWords_iff.2 (by decide)
  have hwords' : Text.HasWords "\tm -1,0015\u2003 1,12,012".toList words' :=
    Text.hasWords_iff.2 (by decide)
  have hread : ofText "m  15,-1,+15 012,1" = .ok rule := by decide
  have integers {list : List Char} {values : List Int}
      (h : List.Forall₂ (Numeral.int? · = some ·) (list.splitOn ',') values) :
      HasValues Numeral.Integer list values :=
    hasValues_iff.2 (h.imp fun _ _ => Numeral.int?_eq_some_iff.1)
  have naturals {list : List Char} {values : List Nat}
      (h : List.Forall₂ (Numeral.nat? · = some ·) (list.splitOn ',') values) :
      HasValues Numeral.Natural list values :=
    hasValues_iff.2 (h.imp fun _ _ => Numeral.nat?_eq_some_iff.1)
  have hdays : SameValues Numeral.Integer "15,-1,+15".toList "-1,0015".toList :=
    ⟨[15, -1, 15], [-1, 15], integers (by decide), integers (by decide), by simp⟩
  have hmonths : SameValues Numeral.Natural "012,1".toList "1,12,012".toList :=
    ⟨[12, 1], [1, 12, 12], naturals (by decide), naturals (by decide), by simp [or_comm]⟩
  obtain ⟨hnamed, hsame, hzero⟩ := ofText_grammar
  have hread' := hsame _ _ _ _ _ hwords hwords' (.monthly hdays hmonths) hread
  have hdigits : Numeral.Digits ['1', '2'] 12 := Numeral.digits?_eq_some_iff.1 (by decide)
  exact ⟨hwords, hwords', .monthly hdays hmonths, ⟨hread, (hnamed _ _).1 hread⟩,
    ⟨hread', (hnamed _ _).1 hread'⟩, hdigits, hzero _ _ hdigits⟩

end Agenda.Rule
