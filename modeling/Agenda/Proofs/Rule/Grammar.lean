import Agenda.Proofs.Except
import Agenda.Rule.Parser
import Mathlib.Data.List.Forall2

/-!
# The grammar of rules

The words that name a rule, apart from how they are read: no errors, no order in which things are
looked at.

- `Rule.Spells`: the words that name a rule.
- `Rule.ofWords_eq_ok_iff`: reading accepts these words, and gives the rule that they name.
- `Rule.inRange_of_ofText`: a rule that was read is in its range.
-/

namespace Agenda.Rule

/-! ## Numbers -/

/-- A number is read as a word if it is in a range that words cover. -/
private theorem word_eq_some_iff {P : Nat → Prop} [DecidablePred P]
    (hP : ∀ n, P n → n < UInt32.size) {number? : Option Nat} {word : UInt32} :
    (number?.filter (P ·)).map UInt32.ofNat = some word ↔
      number? = some word.toNat ∧ P word.toNat := by
  rw [Option.map_eq_some_iff]
  constructor
  · rintro ⟨n, hn, rfl⟩
    rw [Option.filter_eq_some_iff, decide_eq_true_iff] at hn
    rw [UInt32.toNat_ofNat_of_lt' (hP n hn.2)]
    exact hn
  · rintro ⟨hnumber, hword⟩
    refine ⟨word.toNat, ?_, UInt32.ofNat_toNat⟩
    rw [Option.filter_eq_some_iff, decide_eq_true_iff]
    exact ⟨hnumber, hword⟩

theorem interval?_eq_some_iff {word : List Char} {interval : UInt32} :
    interval? word = some interval ↔
      Numeral.nat? word = some interval.toNat ∧ IsInterval interval.toNat :=
  word_eq_some_iff fun _ hn => Nat.lt_of_le_of_lt hn.2 (by decide)

theorem weekday?_eq_some_iff {word : List Char} {weekday : UInt32} :
    weekday? word = some weekday ↔
      Numeral.nat? word = some weekday.toNat ∧ IsWeekday weekday.toNat :=
  word_eq_some_iff fun _ hn => Nat.lt_of_le_of_lt hn.2 (by decide)

theorem month?_eq_some_iff {word : List Char} {month : UInt32} :
    month? word = some month ↔ Numeral.nat? word = some month.toNat ∧ IsMonth month.toNat :=
  word_eq_some_iff fun _ hn => Nat.lt_of_le_of_lt hn.2 (by decide)

theorem monthDay?_eq_some_iff {word : List Char} {entry : Int32} :
    monthDay? word = some entry ↔
      Numeral.int? word = some entry.toInt ∧ IsMonthDay entry.toInt := by
  unfold monthDay?
  rw [Option.map_eq_some_iff]
  constructor
  · rintro ⟨n, hn, rfl⟩
    rw [Option.filter_eq_some_iff, decide_eq_true_iff] at hn
    have hrange := hn.2
    unfold IsMonthDay at hrange
    rw [Int32.toInt_ofInt_of_le (by omega) (by omega)]
    exact hn
  · rintro ⟨hnumber, hentry⟩
    refine ⟨entry.toInt, ?_, Int32.ofInt_toInt entry⟩
    rw [Option.filter_eq_some_iff, decide_eq_true_iff]
    exact ⟨hnumber, hentry⟩

/-! ## Lists -/

section Lists

variable {α : Type} {fault : Fault} {read? : List Char → Option α}

/-- The pieces between the commas of a word are read as the given values. -/
def Lists (read? : List Char → Option α) (word : List Char) (values : List α) : Prop :=
  List.Forall₂ (fun piece value => read? piece = some value) (word.splitOn ',') values

theorem readElement_eq_ok_iff {piece : List Char} {value : α} :
    readElement fault read? piece = .ok value ↔ read? piece = some value := by
  unfold readElement
  cases read? piece <;> simp

theorem readList_eq_ok_iff {word : List Char} {values : List α} :
    readList fault read? word = .ok values ↔ Lists read? word values := by
  unfold readList Lists
  generalize word.splitOn ',' = pieces
  induction pieces generalizing values with
  | nil =>
    rw [List.mapM_nil, List.forall₂_nil_left_iff]
    exact ⟨fun h => (Except.ok.inj h).symm, fun h => congrArg Except.ok h.symm⟩
  | cons piece pieces ih =>
    rw [List.mapM_cons, List.forall₂_cons_left_iff, bind_eq_ok_iff]
    constructor
    · rintro ⟨value, hvalue, h⟩
      obtain ⟨rest, hrest, hall⟩ := bind_eq_ok_iff.1 h
      exact ⟨value, rest, readElement_eq_ok_iff.1 hvalue, ih.1 hrest, (Except.ok.inj hall).symm⟩
    · rintro ⟨value, rest, hvalue, hrest, rfl⟩
      exact ⟨value, readElement_eq_ok_iff.2 hvalue, bind_eq_ok_iff.2 ⟨rest, ih.2 hrest, rfl⟩⟩

/-- All values of a list are read from one of its pieces. -/
theorem Lists.exists_piece {word : List Char} {values : List α} (h : Lists read? word values)
    {value : α} (hvalue : value ∈ values) : ∃ piece, read? piece = some value := by
  unfold Lists at h
  generalize word.splitOn ',' = pieces at h
  induction h with
  | nil => cases hvalue
  | cons hhead _ ih =>
    rcases List.mem_cons.1 hvalue with rfl | htail
    · exact ⟨_, hhead⟩
    · exact ih htail

/-- A list has at least one value. -/
theorem Lists.ne_nil {word : List Char} {values : List α} (h : Lists read? word values) :
    values ≠ [] := by
  rintro rfl
  exact List.splitOn_ne_nil ',' word (List.forall₂_nil_right_iff.1 h)

end Lists

/-! ## Words -/

/-- The words name the rule. -/
inductive Spells : List (List Char) → Rule → Prop
  | once : Spells [] .once
  | daily {word : List Char} {interval : UInt32} (h : interval? word = some interval) :
      Spells [['d'], word] (.daily interval)
  | yearly : Spells [['y']] .yearly
  | weekly {word : List Char} {days : List UInt32} (h : Lists weekday? word days) :
      Spells [['w'], word] (.weekly (.ofList days))
  | everyMonth {word : List Char} {days : List Int32} (h : Lists monthDay? word days) :
      Spells [['m'], word] (.monthly (.ofList days) .empty)
  | monthly {word word' : List Char} {days : List Int32} {months : List UInt32}
      (hdays : Lists monthDay? word days) (hmonths : Lists month? word' months) :
      Spells [['m'], word, word'] (.monthly (.ofList days) (.ofList months))

theorem finish_eq_ok_iff {rule rule' : Rule} {words : List (List Char)} :
    finish rule words = .ok rule' ↔ words = [] ∧ rule = rule' := by
  cases words <;> simp [finish]

theorem argument_eq_ok_iff {fault : Fault} {words rest : List (List Char)} {word : List Char} :
    argument fault words = .ok (word, rest) ↔ words = word :: rest := by
  cases words <;> simp [argument]

/-- Only words that name a rule are accepted, and only as the rule that they name. -/
private theorem spells_of_ofWords {words : List (List Char)} {rule : Rule}
    (h : ofWords words = .ok rule) : Spells words rule := by
  -- One case for every letter that begins a rule, one for no word and one for all other words.
  unfold ofWords at h
  split at h
  · cases h
    exact .once
  · obtain ⟨⟨word, rest⟩, hword, h⟩ := bind_eq_ok_iff.1 h
    obtain ⟨interval, hinterval, h⟩ := bind_eq_ok_iff.1 h
    obtain ⟨rfl, rfl⟩ := finish_eq_ok_iff.1 h
    rw [argument_eq_ok_iff.1 hword]
    exact .daily (readElement_eq_ok_iff.1 hinterval)
  · obtain ⟨rfl, rfl⟩ := finish_eq_ok_iff.1 h
    exact .yearly
  · obtain ⟨⟨word, rest⟩, hword, h⟩ := bind_eq_ok_iff.1 h
    obtain ⟨days, hdays, h⟩ := bind_eq_ok_iff.1 h
    obtain ⟨rfl, rfl⟩ := finish_eq_ok_iff.1 h
    rw [argument_eq_ok_iff.1 hword]
    exact .weekly (readList_eq_ok_iff.1 hdays)
  · obtain ⟨⟨word, rest⟩, hword, h⟩ := bind_eq_ok_iff.1 h
    obtain ⟨days, hdays, h⟩ := bind_eq_ok_iff.1 h
    rw [argument_eq_ok_iff.1 hword]
    cases rest with
    | nil =>
      cases h
      exact .everyMonth (readList_eq_ok_iff.1 hdays)
    | cons word' rest =>
      obtain ⟨months, hmonths, h⟩ := bind_eq_ok_iff.1 h
      obtain ⟨rfl, rfl⟩ := finish_eq_ok_iff.1 h
      exact .monthly (readList_eq_ok_iff.1 hdays) (readList_eq_ok_iff.1 hmonths)
  · cases h

/-- Words that name a rule are accepted as the rule that they name. -/
private theorem ofWords_of_spells {words : List (List Char)} {rule : Rule}
    (h : Spells words rule) : ofWords words = .ok rule := by
  cases h with
  | once => rfl
  | daily h =>
    exact bind_eq_ok_iff.2 ⟨_, rfl, bind_eq_ok_iff.2 ⟨_, readElement_eq_ok_iff.2 h, rfl⟩⟩
  | yearly => rfl
  | weekly h =>
    exact bind_eq_ok_iff.2 ⟨_, rfl, bind_eq_ok_iff.2 ⟨_, readList_eq_ok_iff.2 h, rfl⟩⟩
  | everyMonth h =>
    exact bind_eq_ok_iff.2 ⟨_, rfl, bind_eq_ok_iff.2 ⟨_, readList_eq_ok_iff.2 h, rfl⟩⟩
  | monthly hdays hmonths =>
    exact bind_eq_ok_iff.2 ⟨_, rfl, bind_eq_ok_iff.2 ⟨_, readList_eq_ok_iff.2 hdays,
      bind_eq_ok_iff.2 ⟨_, readList_eq_ok_iff.2 hmonths, rfl⟩⟩⟩

/-- Exactly the words that name a rule are accepted, as the rule that they name. -/
theorem ofWords_eq_ok_iff {words : List (List Char)} {rule : Rule} :
    ofWords words = .ok rule ↔ Spells words rule :=
  ⟨spells_of_ofWords, ofWords_of_spells⟩

/-! ## Ranges -/

/-- A rule that words name is in its range. -/
theorem Spells.inRange {words : List (List Char)} {rule : Rule} (h : Spells words rule) :
    rule.InRange := by
  have monthDays {word : List Char} {days : List Int32} (h : Lists monthDay? word days) :
      (SortedSet.ofList days).isEmpty = false ∧
        ∀ d ∈ SortedSet.ofList days, IsMonthDay d.toInt := by
    refine ⟨SortedSet.isEmpty_ofList_eq_false h.ne_nil, fun d hd => ?_⟩
    obtain ⟨piece, hpiece⟩ := h.exists_piece (SortedSet.mem_ofList.1 hd)
    exact (monthDay?_eq_some_iff.1 hpiece).2
  cases h with
  | once => trivial
  | daily h => exact (interval?_eq_some_iff.1 h).2
  | yearly => trivial
  | weekly h =>
    refine ⟨SortedSet.isEmpty_ofList_eq_false h.ne_nil, fun d hd => ?_⟩
    obtain ⟨piece, hpiece⟩ := h.exists_piece (SortedSet.mem_ofList.1 hd)
    exact (weekday?_eq_some_iff.1 hpiece).2
  | everyMonth h =>
    refine ⟨monthDays h, fun m hm => ?_⟩
    exact absurd hm List.not_mem_nil
  | monthly hdays hmonths =>
    refine ⟨monthDays hdays, fun m hm => ?_⟩
    obtain ⟨piece, hpiece⟩ := hmonths.exists_piece (SortedSet.mem_ofList.1 hm)
    exact (month?_eq_some_iff.1 hpiece).2

/-- A rule that was read is in its range. -/
theorem inRange_of_ofText {text : String} {rule : Rule} (h : ofText text = .ok rule) :
    rule.InRange :=
  (ofWords_eq_ok_iff.1 h).inRange

/-- A rule that was read brings nothing back exactly if its text is blank. -/
theorem eq_once_iff_of_ofText {text : String} {rule : Rule} (h : ofText text = .ok rule) :
    rule = .once ↔ Text.isBlank text.toList = true := by
  have hspells := ofWords_eq_ok_iff.1 h
  rw [← Text.words_eq_nil_iff]
  generalize Text.words text.toList = words at hspells ⊢
  cases hspells <;> simp

/-- A text that is not blank is read as a rule that brings something back. -/
theorem ne_once_of_ofText {text : String} {rule : Rule} (h : ofText text = .ok rule)
    (hrecurs : Text.isBlank text.toList = false) : rule ≠ .once := by
  rw [Ne, eq_once_iff_of_ofText h, hrecurs]
  exact Bool.false_ne_true

end Agenda.Rule
