import Agenda.Proofs.Date.Text
import Mathlib.Data.String.Basic

/-!
# Dates and the bytes of their texts

Whether a text has the form of a date can be told from its bytes, and year, month and day stand
between fixed offsets among them. An offset may lie within a character, where no text can be cut.
In a text of the right form it never does.

- `Date.EightDigits`: the form of a date in bytes, and `Date.eightDigits_iff` in characters.
- `Date.ofParts?`: a text is cut at its offsets and the parts are read. `Date.ofParts?_eq` says that
  this is what reading a date is, and that no cut fails.
- `Date.ofText_decided`: the texts of dates are read as the dates, and all others are refused.
-/

namespace Agenda.Date

/-- The text has exactly eight bytes in UTF-8, all of which are ASCII digits. -/
def EightDigits (text : String) : Prop :=
  text.utf8ByteSize = 8 ∧
    ∀ byte ∈ text.toUTF8.data, '0'.toNat ≤ byte.toNat ∧ byte.toNat ≤ '9'.toNat

instance (text : String) : Decidable (EightDigits text) :=
  @instDecidableAnd _ _ _ Array.instDecidableForallForallMemOfDecidablePred

/-- The part of a text between two byte offsets, unless one of them lies within a character or
behind the text. -/
def part? (text : String) (start stop : Nat) : Option String :=
  if String.Pos.Raw.IsValid text ⟨start⟩ ∧ String.Pos.Raw.IsValid text ⟨stop⟩ then
    some (String.Pos.Raw.extract text ⟨start⟩ ⟨stop⟩)
  else none

/-- The date that the numerals of a year, a month and a day name, if they name one. -/
def ofNumerals? (year month day : String) : Option Date := do
  let year ← Numeral.int? year.toList
  let month ← Numeral.nat? month.toList
  let day ← Numeral.nat? day.toList
  ofYmd? year month day

/-- Reads a date from the parts of its text. There is no answer if the text cannot be cut at the
offsets between them. -/
def ofParts? (text : String) : Option (Except TextError Date) :=
  if EightDigits text then do
    let year ← part? text 0 4
    let month ← part? text 4 6
    let day ← part? text 6 8
    match ofNumerals? year month day with
    | some date => return .ok date
    | none => return .error (.calendar text)
  else return .error (.shape text)

/-! ## Digits and their bytes -/

/-- A digit is written as one byte. -/
private theorem utf8Size_of_isDigit {c : Char} (h : c.isDigit = true) : c.utf8Size = 1 := by
  have hnine : '9'.toNat = 57 := rfl
  have hbounds := Char.isDigit_iff_toNat.1 h
  rw [Char.utf8Size_eq_one_iff, UInt32.le_iff_toNat_le]
  change c.toNat ≤ 127
  omega

/-- The first byte of a character beyond ASCII is greater than those of the digits. -/
private theorem exists_byte_of_not_ascii {c : Char} (h : 127 < c.toNat) :
    ∃ byte ∈ String.utf8EncodeChar c, '9'.toNat < byte.toNat := by
  have hnine : '9'.toNat = 57 := rfl
  have hlarge : ¬ c.val.toNat ≤ 127 := not_le.2 h
  unfold String.utf8EncodeChar
  dsimp only
  rw [if_neg hlarge]
  -- Two, three or four bytes.
  split
  next => exact ⟨_, List.mem_cons_self, by rw [UInt8.toNat_ofNat']; omega⟩
  next =>
    split
    next => exact ⟨_, List.mem_cons_self, by rw [UInt8.toNat_ofNat']; omega⟩
    next => exact ⟨_, List.mem_cons_self, by rw [UInt8.toNat_ofNat']; omega⟩

/-- Only a digit is written with bytes of digits. -/
private theorem isDigit_iff_bytes {c : Char} :
    c.isDigit = true ↔
      ∀ byte ∈ String.utf8EncodeChar c, '0'.toNat ≤ byte.toNat ∧ byte.toNat ≤ '9'.toNat := by
  rw [Char.isDigit_iff_toNat]
  rcases Nat.lt_or_ge 127 c.toNat with hlarge | hascii
  · have hnine : '9'.toNat = 57 := rfl
    obtain ⟨byte, hbyte, hlt⟩ := exists_byte_of_not_ascii hlarge
    refine ⟨fun h => absurd h.2 (by omega), fun h => absurd (h byte hbyte).2 (not_le.2 hlt)⟩
  · have hsize : c.utf8Size = 1 := by
      rw [Char.utf8Size_eq_one_iff, UInt32.le_iff_toNat_le]
      exact hascii
    have hbyte : c.val.toUInt8.toNat = c.toNat := by
      rw [UInt32.toNat_toUInt8]
      exact Nat.mod_eq_of_lt (Nat.lt_of_le_of_lt hascii (by decide))
    simp only [String.utf8EncodeChar_eq_singleton hsize, List.mem_singleton, forall_eq, hbyte]

private theorem bytes_iff {text : String} :
    (∀ byte ∈ text.toUTF8.data, '0'.toNat ≤ byte.toNat ∧ byte.toNat ≤ '9'.toNat) ↔
      ∀ c ∈ text.toList, c.isDigit = true := by
  have hbytes : text.toUTF8.data = (text.toList.flatMap String.utf8EncodeChar).toArray := by
    conv_lhs => rw [← String.ofList_toList (s := text)]
    rw [String.toUTF8_eq_toByteArray, String.toByteArray_ofList, List.utf8Encode,
      List.data_toByteArray]
  rw [hbytes]
  simp only [List.mem_toArray, List.mem_flatMap, isDigit_iff_bytes]
  constructor
  · intro h c hc byte hbyte
    exact h byte ⟨c, hc, hbyte⟩
  · rintro h byte ⟨c, hc, hbyte⟩
    exact h c hc byte hbyte

private theorem utf8Len_of_isDigit {chars : List Char} (h : ∀ c ∈ chars, c.isDigit = true) :
    String.utf8Len chars = chars.length := by
  induction chars with
  | nil => rfl
  | cons c chars ih =>
    obtain ⟨hc, hchars⟩ := List.forall_mem_cons.1 h
    rw [String.utf8Len_cons, utf8Size_of_isDigit hc, ih hchars, List.length_cons]

/-- The form of a date in characters. -/
theorem eightDigits_iff {text : String} :
    EightDigits text ↔ text.toList.length = 8 ∧ text.toList.all Char.isDigit = true := by
  rw [EightDigits, bytes_iff, List.all_eq_true, ← String.utf8Len_toList]
  refine and_congr_left fun hdigits => ?_
  rw [utf8Len_of_isDigit hdigits]

/-- Eight digits are read as a date, or they name no day. -/
theorem ofText_of_eightDigits {text : String} (h : EightDigits text) :
    ofText text =
      match ofDigits? text.toList with
      | some date => .ok date
      | none => .error (.calendar text) :=
  if_pos (eightDigits_iff.1 h)

/-- Anything else has not the form of a date. -/
theorem ofText_of_not_eightDigits {text : String} (h : ¬ EightDigits text) :
    ofText text = .error (.shape text) :=
  if_neg (mt eightDigits_iff.2 h)

/-! ## Cutting a text -/

/-- A text can be cut before and behind any of its characters. -/
private theorem part?_ofList (front middle behind : List Char) :
    part? (String.ofList (front ++ middle ++ behind)) (String.utf8Len front)
      (String.utf8Len front + String.utf8Len middle) = some (String.ofList middle) := by
  have hstart : String.Pos.Raw.IsValid (String.ofList (front ++ middle ++ behind))
      ⟨String.utf8Len front⟩ := by
    refine String.Pos.Raw.isValid_ofList.2 ⟨front.length, ?_⟩
    rw [List.append_assoc, List.take_left, String.utf8ByteSize_ofList]
  have hstop : String.Pos.Raw.IsValid (String.ofList (front ++ middle ++ behind))
      ⟨String.utf8Len front + String.utf8Len middle⟩ := by
    refine String.Pos.Raw.isValid_ofList.2 ⟨(front ++ middle).length, ?_⟩
    rw [List.take_left, String.utf8ByteSize_ofList, String.utf8Len_append]
  rw [part?, if_pos ⟨hstart, hstop⟩, String.extract_of_valid]

/-- Before and among digits, byte offsets count the characters. -/
private theorem part?_of_isDigit {front middle : List Char}
    (hfront : ∀ c ∈ front, c.isDigit = true) (hmiddle : ∀ c ∈ middle, c.isDigit = true)
    (behind : List Char) :
    part? (String.ofList (front ++ middle ++ behind)) front.length
      (front.length + middle.length) = some (String.ofList middle) := by
  have hpart := part?_ofList front middle behind
  rwa [utf8Len_of_isDigit hfront, utf8Len_of_isDigit hmiddle] at hpart

/-! ## Reading the parts -/

private theorem ofNumerals?_of_digits {year month day : List Char}
    (hyear : year ≠ [] ∧ ∀ c ∈ year, c.isDigit = true)
    (hmonth : month ≠ [] ∧ ∀ c ∈ month, c.isDigit = true)
    (hday : day ≠ [] ∧ ∀ c ∈ day, c.isDigit = true) :
    ofNumerals? (String.ofList year) (String.ofList month) (String.ofList day) =
      ofYmd? (Nat.ofDigitChars 10 year 0) (Nat.ofDigitChars 10 month 0)
        (Nat.ofDigitChars 10 day 0) := by
  have hyear' : Numeral.int? year = some (Nat.ofDigitChars 10 year 0 : Int) :=
    Numeral.int?_eq_some_iff.2 (.natural (.unsigned (Numeral.digits_iff.2 ⟨hyear, rfl⟩)))
  have hmonth' : Numeral.nat? month = some (Nat.ofDigitChars 10 month 0) :=
    Numeral.nat?_eq_some_iff.2 (.unsigned (Numeral.digits_iff.2 ⟨hmonth, rfl⟩))
  have hday' : Numeral.nat? day = some (Nat.ofDigitChars 10 day 0) :=
    Numeral.nat?_eq_some_iff.2 (.unsigned (Numeral.digits_iff.2 ⟨hday, rfl⟩))
  simp [ofNumerals?, hyear', hmonth', hday']

/-- Eight digits are cut into those of a year, of a month and of a day. -/
private theorem exists_parts {text : String} (h : EightDigits text) :
    ∃ year month day : List Char, text.toList = year ++ month ++ day ∧
      (year.length = 4 ∧ month.length = 2 ∧ day.length = 2) ∧
      ((∀ c ∈ year, c.isDigit = true) ∧ (∀ c ∈ month, c.isDigit = true) ∧
        ∀ c ∈ day, c.isDigit = true) ∧
      part? text 0 4 = some (String.ofList year) ∧ part? text 4 6 = some (String.ofList month) ∧
      part? text 6 8 = some (String.ofList day) := by
  obtain ⟨hlength, hdigits⟩ := eightDigits_iff.1 h
  obtain ⟨year, month, day, hchars, hyear, hmonth, hday⟩ : ∃ year month day : List Char,
      text.toList = year ++ month ++ day ∧ year.length = 4 ∧ month.length = 2 ∧
        day.length = 2 := by
    refine ⟨text.toList.take 4, (text.toList.drop 4).take 2, (text.toList.drop 4).drop 2, ?_⟩
    rw [List.append_assoc, List.take_append_drop, List.take_append_drop]
    simp [hlength]
  have htext : text = String.ofList (year ++ month ++ day) := by
    rw [← hchars, String.ofList_toList]
  rw [hchars, List.all_eq_true] at hdigits
  obtain ⟨hfront, hdays⟩ := List.forall_mem_append.1 hdigits
  obtain ⟨hyears, hmonths⟩ := List.forall_mem_append.1 hfront
  -- Each part is cut out of the digits between those in front of it and those behind it.
  have hcutYear := part?_of_isDigit (List.forall_mem_nil _) hyears (month ++ day)
  have hcutMonth := part?_of_isDigit hyears hmonths day
  have hcutDay := part?_of_isDigit hfront hdays []
  rw [List.nil_append, ← List.append_assoc, ← htext, hyear] at hcutYear
  rw [← htext, hyear, hmonth] at hcutMonth
  rw [List.append_nil, ← htext, List.length_append, hyear, hmonth, hday] at hcutDay
  exact ⟨year, month, day, hchars, ⟨hyear, hmonth, hday⟩, ⟨hyears, hmonths, hdays⟩, hcutYear,
    hcutMonth, hcutDay⟩

/-- A date is read by cutting its text at byte offsets, and no cut fails for any text. -/
theorem ofParts?_eq (text : String) : ofParts? text = some (ofText text) := by
  by_cases h : EightDigits text
  · obtain ⟨year, month, day, hchars, ⟨hyear, hmonth, hday⟩, ⟨hyears, hmonths, hdays⟩, hcutYear,
      hcutMonth, hcutDay⟩ := exists_parts h
    have hnumerals : ofNumerals? (String.ofList year) (String.ofList month) (String.ofList day) =
        ofDigits? text.toList := by
      rw [hchars, ofDigits?_append hyear hmonth]
      exact ofNumerals?_of_digits ⟨List.ne_nil_of_length_eq_add_one hyear, hyears⟩
        ⟨List.ne_nil_of_length_eq_add_one hmonth, hmonths⟩
        ⟨List.ne_nil_of_length_eq_add_one hday, hdays⟩
    rw [ofText_of_eightDigits h, ofParts?, if_pos h, hcutYear, hcutMonth, hcutDay]
    show (match ofNumerals? _ _ _ with | some date => _ | none => _) = _
    rw [hnumerals]
    cases ofDigits? text.toList <;> rfl
  · rw [ofText_of_not_eightDigits h, ofParts?, if_neg h]
    rfl

/-! ## Texts and dates -/

/-- What is refused is refused for its form, if this is not that of a date, and otherwise because it
names no day. -/
theorem ofText_eq_error_iff {text : String} {error : TextError} :
    ofText text = .error error ↔
      (∀ date : Date, text ≠ date.text) ∧
        error = if EightDigits text then .calendar text else .shape text := by
  have hrefused : (∀ date : Date, text ≠ date.text) ↔ ∀ date, ofText text ≠ .ok date :=
    forall_congr' fun _ => not_congr ofText_eq_ok_iff.symm
  rw [hrefused]
  by_cases h : EightDigits text
  · rw [ofText_of_eightDigits h, if_pos h]
    cases ofDigits? text.toList with
    | none => simp [eq_comm]
    | some date => simp
  · rw [ofText_of_not_eightDigits h, if_neg h]
    simp [eq_comm]

/-- A text is read as a date exactly if it is the text of the date, and different dates have
different texts. Any other text is refused. If it is eight bytes that are ASCII digits, then these
name no day, and otherwise it has not the form of a date. Its bytes can be cut into year, month and
day whenever they have to be. -/
theorem ofText_decided :
    (∀ (text : String) (date : Date), ofText text = .ok date ↔ text = date.text) ∧
    Function.Injective Date.text ∧
    (∀ (text : String) (error : TextError), ofText text = .error error ↔
      (∀ date : Date, text ≠ date.text) ∧
        error = if EightDigits text then .calendar text else .shape text) ∧
    ∀ text : String, ofParts? text = some (ofText text) := by
  refine ⟨fun text date => ?_, fun a b h => ?_, fun text error => ?_, fun text => ?_⟩
  · exact ofText_eq_ok_iff
  · exact text_injective h
  · exact ofText_eq_error_iff
  · exact ofParts?_eq text

/-- Seven characters can be eight bytes. The fourth offset among them lies within a character here,
so they must not be cut there, and they are no digits. -/
example : "202é229".utf8ByteSize = 8 ∧ part? "202é229" 0 4 = none ∧
    ofParts? "202é229" = some (.error (.shape "202é229")) := by
  decide

end Agenda.Date
