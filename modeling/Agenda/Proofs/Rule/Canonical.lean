import Agenda.Proofs.Rule.Grammar
import Agenda.Rule.Text
import Mathlib.Tactic.IntervalCases

/-!
# Canonical texts

The canonical text of a rule is read as the rule. Hence different rules have different canonical
texts, and the canonical text of a canonical text is the text itself.

- `Rule.spells_chars`: the words of a canonical text name the rule.
- `Rule.ofText_text`: the canonical text of a rule in its range is read as the rule.
-/

namespace Agenda

/-! ## Numerals have no blanks and no commas -/

namespace Numeral

/-- A digit is neither a blank nor a comma. -/
private theorem separate_of_isDigit {c : Char} (h : c.isDigit = true) :
    Text.isBlankChar c = false ∧ c ≠ ',' := by
  have hrange : 48 ≤ c.toNat ∧ c.toNat ≤ 57 := by
    simp only [Char.isDigit, Bool.and_eq_true, decide_eq_true_eq] at h
    exact h
  obtain ⟨hle, hge⟩ := hrange
  rw [← Char.ofNat_toNat c]
  generalize c.toNat = n at hle hge
  interval_cases n <;> decide

theorem separate_of_mem_ofNat {n : Nat} {c : Char} (h : c ∈ ofNat n) :
    Text.isBlankChar c = false ∧ c ≠ ',' :=
  separate_of_isDigit (isDigit_of_mem_ofNat h)

theorem separate_of_mem_ofInt {n : Int} {c : Char} (h : c ∈ ofInt n) :
    Text.isBlankChar c = false ∧ c ≠ ',' := by
  cases n with
  | ofNat n => exact separate_of_mem_ofNat h
  | negSucc n =>
    rcases List.mem_cons.1 h with rfl | h
    · decide
    · exact separate_of_mem_ofNat h

end Numeral

namespace Rule

/-! ## Lists -/

section Lists

variable {α : Type} {read? : List Char → Option α} {write : α → List Char} {members : List α}

/-- A character of a list is a comma or a character of one of the members. -/
private theorem mem_commaList {c : Char} (h : c ∈ commaList write members) :
    c = ',' ∨ ∃ member ∈ members, c ∈ write member := by
  unfold commaList at h
  induction members with
  | nil => exact absurd h List.not_mem_nil
  | cons member rest ih =>
    cases rest with
    | nil =>
      rw [List.map_singleton, List.intercalate_singleton] at h
      exact Or.inr ⟨member, List.mem_singleton_self member, h⟩
    | cons next rest =>
      rw [List.map_cons, List.map_cons, List.intercalate_cons_cons, List.mem_append,
        List.mem_append] at h
      rcases h with (h | h) | h
      · exact Or.inr ⟨member, List.mem_cons_self, h⟩
      · exact Or.inl (List.mem_singleton.1 h)
      · refine (ih h).imp_right ?_
        rintro ⟨other, hother, hc⟩
        exact ⟨other, List.mem_cons_of_mem member hother, hc⟩

/-- A list is one word, if its members have no blanks. -/
private theorem words_commaList (hne : members ≠ []) (hwrite : ∀ member, write member ≠ [])
    (hblank : ∀ member, ∀ c ∈ write member, Text.isBlankChar c = false) :
    Text.words (commaList write members) = [commaList write members] := by
  refine Text.words_eq_singleton ?_ fun c hc => ?_
  · -- The first member has a character, or else there is a comma after it.
    obtain ⟨member, rest, rfl⟩ := List.exists_cons_of_ne_nil hne
    intro hnil
    unfold commaList at hnil
    cases rest with
    | nil =>
      rw [List.map_singleton, List.intercalate_singleton] at hnil
      exact hwrite member hnil
    | cons next rest =>
      rw [List.map_cons, List.map_cons, List.intercalate_cons_cons] at hnil
      simp at hnil
  · rcases mem_commaList hc with rfl | ⟨member, -, hmember⟩
    · decide
    · exact hblank member c hmember

/-- A list is read as its members, if each of them is read as itself and has no comma. -/
private theorem lists_commaList (hne : members ≠ [])
    (hcomma : ∀ member, ∀ c ∈ write member, c ≠ ',')
    (hread : ∀ member ∈ members, read? (write member) = some member) :
    Lists read? (commaList write members) members := by
  have hpieces : ∀ piece ∈ members.map write, ',' ∉ piece := by
    intro piece hpiece hmem
    obtain ⟨member, -, rfl⟩ := List.mem_map.1 hpiece
    exact hcomma member ',' hmem rfl
  have hmap : members.map write ≠ [] := fun h => hne (List.map_eq_nil_iff.1 h)
  unfold Lists commaList
  rw [List.splitOn_intercalate ',' hpieces hmap, List.forall₂_map_left_iff, List.forall₂_same]
  exact hread

end Lists

/-! ## Rules -/

/-- A list of words with a natural number each: its only word, and what that word is read as. -/
private theorem natList_spec {P : Nat → Prop} {read? : List Char → Option UInt32}
    (hread : ∀ word n, read? word = some n ↔ Numeral.nat? word = some n.toNat ∧ P n.toNat)
    {members : SortedSet UInt32} (hne : members.isEmpty = false)
    (hrange : ∀ n ∈ members, P n.toNat) :
    Text.words (commaList (Numeral.ofNat ·.toNat) members.toList) =
        [commaList (Numeral.ofNat ·.toNat) members.toList] ∧
      Lists read? (commaList (Numeral.ofNat ·.toNat) members.toList) members.toList := by
  have hne' : members.toList ≠ [] := List.isEmpty_eq_false_iff.1 hne
  exact ⟨words_commaList hne' (fun _ => Numeral.ofNat_ne_nil _)
      fun _ _ hc => (Numeral.separate_of_mem_ofNat hc).1,
    lists_commaList hne' (fun _ _ hc => (Numeral.separate_of_mem_ofNat hc).2)
      fun n hn => (hread _ n).2 ⟨Numeral.nat?_ofNat _, hrange n hn⟩⟩

/-- A list of days of the month: its only word, and what that word is read as. -/
private theorem monthDayList_spec {members : SortedSet Int32} (hne : members.isEmpty = false)
    (hrange : ∀ n ∈ members, IsMonthDay n.toInt) :
    Text.words (commaList (Numeral.ofInt ·.toInt) members.toList) =
        [commaList (Numeral.ofInt ·.toInt) members.toList] ∧
      Lists monthDay? (commaList (Numeral.ofInt ·.toInt) members.toList) members.toList := by
  have hne' : members.toList ≠ [] := List.isEmpty_eq_false_iff.1 hne
  exact ⟨words_commaList hne' (fun n => Numeral.ofInt_ne_nil _)
      fun _ _ hc => (Numeral.separate_of_mem_ofInt hc).1,
    lists_commaList hne' (fun _ _ hc => (Numeral.separate_of_mem_ofInt hc).2)
      fun n hn => monthDay?_eq_some_iff.2 ⟨Numeral.int?_ofInt _, hrange n hn⟩⟩

/-- The letter of a kind is a word of its own. -/
private theorem words_letter {letter : Char} (h : Text.isBlankChar letter = false)
    (rest : List Char) : Text.words (letter :: ' ' :: rest) = [letter] :: Text.words rest := by
  have hletter : Text.words [letter] = [[letter]] :=
    Text.words_eq_singleton (List.cons_ne_nil letter []) (by simpa using h)
  change Text.words ([letter] ++ ' ' :: rest) = _
  rw [Text.words_append_cons rfl, hletter]
  rfl

/-- The words of a rule's canonical text name the rule. -/
theorem spells_chars {rule : Rule} (h : rule.InRange) : Spells (Text.words rule.chars) rule := by
  cases rule with
  | once => exact .once
  | daily interval =>
    unfold chars
    have hword : Text.words (Numeral.ofNat interval.toNat) = [Numeral.ofNat interval.toNat] :=
      Text.words_eq_singleton (Numeral.ofNat_ne_nil _)
        fun _ hc => (Numeral.separate_of_mem_ofNat hc).1
    rw [words_letter rfl, hword]
    exact .daily (interval?_eq_some_iff.2 ⟨Numeral.nat?_ofNat _, h⟩)
  | yearly => exact .yearly
  | weekly days =>
    obtain ⟨hword, hlist⟩ := natList_spec (fun _ _ => weekday?_eq_some_iff) h.1 h.2
    unfold chars
    rw [words_letter rfl, hword]
    have hspells := Spells.weekly hlist
    rwa [SortedSet.ofList_toList] at hspells
  | monthly days months =>
    obtain ⟨⟨hdays, hdaysRange⟩, hmonthsRange⟩ := h
    obtain ⟨hword, hlist⟩ := monthDayList_spec hdays hdaysRange
    simp only [chars]
    cases hmonths : months.isEmpty with
    | true =>
      -- No month is written, and two words are read as a rule for every month.
      have hempty : months = .empty := SortedSet.ext (List.isEmpty_iff.1 hmonths)
      rw [if_pos rfl, List.append_nil, words_letter rfl, hword, hempty]
      have hspells := Spells.everyMonth hlist
      rwa [SortedSet.ofList_toList] at hspells
    | false =>
      obtain ⟨hword', hlist'⟩ := natList_spec (fun _ _ => month?_eq_some_iff) hmonths hmonthsRange
      rw [if_neg Bool.false_ne_true, List.cons_append, List.cons_append, words_letter rfl,
        Text.words_append_cons rfl, hword, hword']
      have hspells := Spells.monthly hlist hlist'
      rwa [SortedSet.ofList_toList, SortedSet.ofList_toList] at hspells

/-- The canonical text of a rule in its range is read as the rule. -/
theorem ofText_text {rule : Rule} (h : rule.InRange) : ofText rule.text = .ok rule := by
  unfold ofText text
  rw [String.toList_ofList]
  exact ofWords_eq_ok_iff.2 (spells_chars h)

/-- Reading and writing rules are inverse to each other. A rule that was read, and every rule in
its range, is read again from its canonical text; so rules in their range with the same canonical
text are equal, and a canonical text is its own canonical text. -/
theorem canonical_round_trip :
    (∀ text rule, ofText text = .ok rule → ofText rule.text = .ok rule) ∧
      (∀ rule : Rule, rule.InRange → ofText rule.text = .ok rule) ∧
      (∀ rule rule' : Rule, rule.InRange → rule'.InRange → rule.text = rule'.text →
        rule = rule') ∧
      ∀ text canonical, Rule.text <$> ofText text = .ok canonical →
        Rule.text <$> ofText canonical = .ok canonical := by
  refine ⟨fun text rule h => ofText_text (inRange_of_ofText h), fun rule => ofText_text, ?_, ?_⟩
  · intro rule rule' hrange hrange' htext
    have hread := ofText_text hrange
    rw [htext, ofText_text hrange'] at hread
    exact (Except.ok.inj hread).symm
  · intro text canonical h
    cases hread : ofText text with
    | error error =>
      rw [hread] at h
      cases h
    | ok rule =>
      rw [hread] at h
      cases h
      rw [ofText_text (inRange_of_ofText hread)]
      rfl

/-- A text with signs, zeros, repetitions and more than one blank: its rule, which is the only one
with its canonical text, and that text. -/
theorem canonical_round_trip_monthly :
    (∃ rule, ofText "m  15,-1,+15 012,1" = .ok rule ∧ ofText rule.text = .ok rule ∧
      ∀ rule' : Rule, rule'.InRange → rule.text = rule'.text → rule = rule') ∧
    Rule.text <$> ofText "m  15,-1,+15 012,1" = .ok "m -1,15 1,12" ∧
      Rule.text <$> ofText "m -1,15 1,12" = .ok "m -1,15 1,12" := by
  obtain ⟨hparsed, -, hunique, htext⟩ := canonical_round_trip
  have hread : ofText "m  15,-1,+15 012,1" =
      .ok (.monthly (.ofList [15, -1]) (.ofList [12, 1])) := by decide
  have hcanonical : Rule.text <$> ofText "m  15,-1,+15 012,1" = .ok "m -1,15 1,12" := by decide
  refine ⟨⟨_, hread, hparsed _ _ hread, ?_⟩, hcanonical, htext _ _ hcanonical⟩
  exact fun rule' => hunique _ rule' (inRange_of_ofText hread)

end Rule

end Agenda
