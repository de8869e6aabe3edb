import Agenda.Date.Text
import Agenda.Proofs.Date.Order
import Agenda.Proofs.Text.Pieces

/-!
# The text of a date is read as the date

- `Date.ofText_text`: reading undoes writing.
- `Date.ofText_eq_ok_iff`: nothing but the text of a date is read.
- `Date.text_injective`: different dates have different texts.
-/

namespace Agenda.Date

/-- The year is written with four digits, and the month and the day with two each. -/
private theorem length_parts (date : Date) :
    (Numeral.padded 4 date.year.toNat).length = 4 ∧ (Numeral.padded 2 date.month).length = 2 ∧
      (Numeral.padded 2 date.day).length = 2 := by
  obtain ⟨hyear, hmonth, -, hday⟩ := date.onCalendar
  have hlength := daysInMonth_le date.year date.month
  unfold maxYear at hyear
  refine ⟨Numeral.length_padded (by decide) ?_, Numeral.length_padded (by decide) ?_,
    Numeral.length_padded (by decide) ?_⟩
  · change date.year.toNat < 10000
    omega
  · change date.month < 100
    omega
  · change date.day < 100
    omega

theorem length_digits (date : Date) : date.digits.length = 8 := by
  obtain ⟨hyear, hmonth, hday⟩ := date.length_parts
  rw [digits, List.length_append, List.length_append, hyear, hmonth, hday]

theorem isDigit_of_mem_digits {date : Date} {c : Char} (h : c ∈ date.digits) :
    c.isDigit = true := by
  rcases List.mem_append.1 h with h | h
  · rcases List.mem_append.1 h with h | h
    · exact Numeral.isDigit_of_mem_padded h
    · exact Numeral.isDigit_of_mem_padded h
  · exact Numeral.isDigit_of_mem_padded h

/-- Four digits, two and two are those of a year, a month and a day. -/
theorem ofDigits?_append {year month day : List Char} (hyear : year.length = 4)
    (hmonth : month.length = 2) :
    ofDigits? (year ++ month ++ day) =
      ofYmd? (Nat.ofDigitChars 10 year 0) (Nat.ofDigitChars 10 month 0)
        (Nat.ofDigitChars 10 day 0) := by
  have hfront : (year ++ month).length = 6 := by rw [List.length_append, hyear, hmonth]
  unfold ofDigits?
  rw [List.drop_left' hfront, List.append_assoc, List.take_left' hyear, List.drop_left' hyear,
    List.take_left' hmonth]

/-- The digits of a date name it. -/
theorem ofDigits?_digits (date : Date) : ofDigits? date.digits = some date := by
  obtain ⟨hyear, hmonth, -⟩ := date.length_parts
  rw [digits, ofDigits?_append hyear hmonth]
  simp only [Numeral.ofDigitChars_padded]
  have hpositive : 0 ≤ date.year := by
    have := date.onCalendar.1.1
    omega
  rw [Int.toNat_of_nonneg hpositive, ofYmd?_self]

/-- The text of a date is read as the date. -/
theorem ofText_text (date : Date) : ofText date.text = .ok date := by
  have hdigits : date.digits.all Char.isDigit = true :=
    List.all_eq_true.2 fun _ => isDigit_of_mem_digits
  unfold ofText text
  rw [String.toList_ofList]
  dsimp only
  rw [if_pos ⟨date.length_digits, hdigits⟩, ofDigits?_digits]

/-- Digits that name a date are the digits of the date. -/
private theorem digits_of_ofDigits? {chars : List Char} {date : Date} (hlength : chars.length = 8)
    (hdigits : ∀ c ∈ chars, c.isDigit = true) (h : ofDigits? chars = some date) :
    date.digits = chars := by
  obtain ⟨hyear, hmonth, hday⟩ := ofYmd?_eq_some_iff.1 h
  have padded_part {part : List Char} {width : Nat} (hwidth : part.length = width)
      (hpositive : 0 < width) (hpart : part ⊆ chars) :
      Numeral.padded width (Nat.ofDigitChars 10 part 0) = part := by
    subst hwidth
    have hne : part ≠ [] := List.length_pos_iff.1 hpositive
    exact (Numeral.digits_iff.2 ⟨⟨hne, fun c hc => hdigits c (hpart hc)⟩, rfl⟩).padded_eq
  have hyear' : Numeral.padded 4 date.year.toNat = chars.take 4 := by
    rw [hyear]
    exact padded_part (by simp [hlength]) (by decide) (List.take_subset 4 chars)
  have hmonth' : Numeral.padded 2 date.month = (chars.drop 4).take 2 := by
    rw [hmonth]
    exact padded_part (by simp [hlength]) (by decide)
      (List.Subset.trans (List.take_subset 2 _) (List.drop_subset 4 chars))
  have hday' : Numeral.padded 2 date.day = chars.drop 6 := by
    rw [hday]
    exact padded_part (by simp [hlength]) (by decide) (List.drop_subset 6 chars)
  have hrest : (chars.drop 4).take 2 ++ chars.drop 6 = chars.drop 4 := by
    rw [← List.drop_drop (i := 2) (j := 4), List.take_append_drop]
  rw [digits, hyear', hmonth', hday', List.append_assoc, hrest, List.take_append_drop]

/-- Exactly the text of a date is read as the date. -/
theorem ofText_eq_ok_iff {text : String} {date : Date} :
    ofText text = .ok date ↔ text = date.text := by
  constructor
  · intro h
    unfold ofText at h
    dsimp only at h
    split at h
    next hshape =>
      split at h
      next date' hdate =>
        cases h
        rw [Date.text, digits_of_ofDigits? hshape.1 (List.all_eq_true.1 hshape.2) hdate,
          String.ofList_toList]
      next => cases h
    next => cases h
  · rintro rfl
    exact date.ofText_text

/-- The empty text is no date. -/
theorem isEmpty_eq_false_of_ofText {text : String} {date : Date} (h : ofText text = .ok date) :
    text.isEmpty = false := by
  refine Bool.eq_false_iff.2 fun hempty => ?_
  rw [String.isEmpty_iff.1 hempty] at h
  cases h

/-- The text of a date is not empty. -/
theorem text_ne_empty (date : Date) : date.text ≠ "" := by
  intro hempty
  have hread := isEmpty_eq_false_of_ofText date.ofText_text
  rw [hempty] at hread
  cases hread

/-- Different dates have different texts. -/
theorem text_injective {a b : Date} (h : a.text = b.text) : a = b := by
  have hread := a.ofText_text
  rw [h, b.ofText_text] at hread
  exact (Except.ok.inj hread).symm

end Agenda.Date
