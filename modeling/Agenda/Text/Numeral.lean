/-!
# Numerals

Decimal numerals as they are written in rules and settings: an optional sign and at least one
ASCII digit, of any length. They are read as unbounded integers, so a range is always a question
of its own, and leading zeros never matter.
-/

namespace Agenda.Numeral

/-- One or more ASCII digits, read in base ten. -/
def digits? (text : List Char) : Option Nat :=
  if text ≠ [] ∧ text.all Char.isDigit then some (Nat.ofDigitChars 10 text 0) else none

/-- A numeral that may begin with a plus sign. -/
def nat? : List Char → Option Nat
  | '+' :: rest => digits? rest
  | text => digits? text

/-- A numeral that may begin with a plus or a minus sign. -/
def int? : List Char → Option Int
  | '-' :: rest => (digits? rest).map fun n => -(n : Int)
  | text => (nat? text).map Int.ofNat

/-- The integer fits 64 bits with a sign. -/
def IsInt64 (n : Int) : Prop := Int64.minValue.toInt ≤ n ∧ n ≤ Int64.maxValue.toInt

instance (n : Int) : Decidable (IsInt64 n) := inferInstanceAs (Decidable (_ ∧ _))

/-- The decimal digits of a natural number, without leading zeros. -/
def ofNat (n : Nat) : List Char :=
  Nat.toDigits 10 n

/-- The decimal text of an integer, with a minus sign if it is negative. -/
def ofInt : Int → List Char
  | .ofNat n => ofNat n
  | .negSucc n => '-' :: ofNat (n + 1)

/-- The digits of a number, with zeros in front up to the given width. -/
def padded (width n : Nat) : List Char :=
  (ofNat n).leftpad width '0'

/-- The digits of a number are digits. -/
theorem isDigit_of_mem_ofNat {n : Nat} {c : Char} (h : c ∈ ofNat n) : c.isDigit = true :=
  Nat.isDigit_of_mem_toDigits (by decide) (by decide) h

/-- Every number has a digit. -/
theorem ofNat_ne_nil (n : Nat) : ofNat n ≠ [] :=
  Nat.toDigits_ne_nil

/-- Every integer has a character. -/
theorem ofInt_ne_nil (n : Int) : ofInt n ≠ [] := by
  cases n with
  | ofNat n => exact ofNat_ne_nil n
  | negSucc n => exact List.cons_ne_nil _ _

/-- Reading the digits of a number gives the number. -/
@[simp]
theorem digits?_ofNat (n : Nat) : digits? (ofNat n) = some n := by
  have hdigits : (ofNat n).all Char.isDigit = true :=
    List.all_eq_true.2 fun c hc => isDigit_of_mem_ofNat hc
  rw [digits?, if_pos ⟨ofNat_ne_nil n, hdigits⟩, ofNat, Nat.ofDigitChars_ten_toDigits]

/-- A text that begins with a digit has no sign. -/
private theorem nat?_eq_digits? {c : Char} {rest : List Char} (h : c.isDigit = true) :
    nat? (c :: rest) = digits? (c :: rest) := by
  unfold nat?
  split
  next heq =>
    cases heq
    exact absurd h (by decide)
  next => rfl

/-- Reading the text of a natural number gives the number. -/
@[simp]
theorem nat?_ofNat (n : Nat) : nat? (ofNat n) = some n := by
  obtain ⟨c, rest, hn⟩ := List.exists_cons_of_ne_nil (ofNat_ne_nil n)
  have hc : c.isDigit = true := isDigit_of_mem_ofNat (hn ▸ List.mem_cons_self)
  rw [hn, nat?_eq_digits? hc, ← hn, digits?_ofNat]

/-- Reading the text of an integer gives the integer. -/
@[simp]
theorem int?_ofInt (n : Int) : int? (ofInt n) = some n := by
  cases n with
  | ofNat n =>
    obtain ⟨c, rest, hn⟩ := List.exists_cons_of_ne_nil (ofNat_ne_nil n)
    have hc : c.isDigit = true := isDigit_of_mem_ofNat (hn ▸ List.mem_cons_self)
    have hint : int? (ofNat n) = (nat? (ofNat n)).map Int.ofNat := by
      rw [hn]
      unfold int?
      split
      next heq =>
        cases heq
        exact absurd hc (by decide)
      next => rfl
    rw [ofInt, hint, nat?_ofNat, Option.map_some]
  | negSucc n =>
    simp [ofInt, int?, Int.negSucc_eq]

/-! ## Padded numerals -/

/-- Padding adds digits only. -/
theorem isDigit_of_mem_padded {width n : Nat} {c : Char} (h : c ∈ padded width n) :
    c.isDigit = true := by
  rcases List.mem_append.1 h with hzero | hdigit
  · rw [List.eq_of_mem_replicate hzero]
    rfl
  · exact isDigit_of_mem_ofNat hdigit

/-- A number that fits in the width is padded to it. -/
theorem length_padded {width n : Nat} (hwidth : 0 < width) (h : n < Nat.pow 10 width) :
    (padded width n).length = width := by
  have hlength : (ofNat n).length ≤ width :=
    (Nat.length_toDigits_le_iff (by decide) hwidth).2 h
  rw [padded, List.length_leftpad]
  exact Nat.max_eq_left hlength

/-- Zeros in front do not change the number. -/
@[simp]
theorem ofDigitChars_padded (width n : Nat) : Nat.ofDigitChars 10 (padded width n) 0 = n := by
  unfold padded List.leftpad
  rw [Nat.ofDigitChars_append, Nat.ofDigitChars_replicate_zero, Nat.mul_zero, ofNat,
    Nat.ofDigitChars_ten_toDigits]

end Agenda.Numeral
