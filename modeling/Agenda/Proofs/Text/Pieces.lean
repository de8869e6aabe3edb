import Agenda.Text.Blank
import Agenda.Text.Numeral
import Mathlib.Data.List.Induction
import Mathlib.Logic.Relator

/-!
# Words, list elements and numerals

What a text consists of, apart from how it is taken to pieces: the words between the blanks, the
elements between the commas and the number that a numeral stands for.

- `Text.HasWords`: the words of a text. `Text.hasWords_iff` says that they are found.
- `Text.HasElements`: the elements of a comma-separated list, found by `Text.hasElements_iff`.
- `Numeral.Digits`, `Numeral.Natural` and `Numeral.Integer`: what a numeral stands for. The iffs
  with `digits?`, `nat?` and `int?` say that it is read as this number and that nothing else is
  read.
- `Numeral.Digits.padded_eq`: digits are the padded numeral of the number that they stand for.
-/

namespace Agenda

/-! ## Words -/

namespace Text

/-- The words of a text, in their order. A word has a character and no blank; between two words
there is at least one blank, and there may be any number of blanks before the first and after the
last. -/
inductive HasWords : List Char → List (List Char) → Prop
  /-- Blanks only. -/
  | blank {text : List Char} (h : isBlank text = true) : HasWords text []
  /-- A word with which the text ends. -/
  | last {gap word : List Char} (hgap : isBlank gap = true) (hne : word ≠ [])
      (hword : ∀ c ∈ word, isBlankChar c = false) : HasWords (gap ++ word) [word]
  /-- A word and a blank after it. -/
  | more {gap word rest : List Char} {c : Char} {words : List (List Char)}
      (hgap : isBlank gap = true) (hne : word ≠ []) (hword : ∀ c ∈ word, isBlankChar c = false)
      (hc : isBlankChar c = true) (hrest : HasWords rest words) :
      HasWords (gap ++ word ++ c :: rest) (word :: words)

/-- Blanks in front belong to no word. -/
theorem words_append_of_isBlank {gap : List Char} (h : isBlank gap = true) (text : List Char) :
    words (gap ++ text) = words text := by
  induction gap with
  | nil => rfl
  | cons c gap ih =>
    simp only [isBlank, List.all_cons, Bool.and_eq_true] at h
    rw [List.cons_append, words_cons_of_isBlankChar h.1]
    exact ih h.2

private theorem words_of_hasWords {text : List Char} {ws : List (List Char)}
    (h : HasWords text ws) : words text = ws := by
  induction h with
  | blank h => exact words_eq_nil_iff.2 h
  | last hgap hne hword => rw [words_append_of_isBlank hgap, words_eq_singleton hne hword]
  | more hgap hne hword hc _ ih =>
    rw [words_append_cons hc, words_append_of_isBlank hgap, words_eq_singleton hne hword, ih]
    rfl

/-- A text begins with characters of a class, and what follows them begins with a character that is
not of the class, unless it is empty. -/
private theorem exists_span (p : Char → Bool) (text : List Char) :
    ∃ front rest, text = front ++ rest ∧ (∀ c ∈ front, p c = true) ∧
      (rest = [] ∨ ∃ c behind, rest = c :: behind ∧ p c = false) := by
  induction text with
  | nil => exact ⟨[], [], rfl, nofun, Or.inl rfl⟩
  | cons c text ih =>
    cases hc : p c with
    | false => exact ⟨[], c :: text, rfl, nofun, Or.inr ⟨c, text, rfl, hc⟩⟩
    | true =>
      obtain ⟨front, rest, rfl, hfront, hrest⟩ := ih
      exact ⟨c :: front, rest, rfl, List.forall_mem_cons.2 ⟨hc, hfront⟩, hrest⟩

private theorem hasWords_words (text : List Char) : HasWords text (words text) := by
  -- On the length of the text: behind a word and its blank the rest is shorter.
  induction hlength : text.length using Nat.strongRecOn generalizing text with
  | _ length ih =>
    obtain ⟨gap, tail, rfl, hgap, htail⟩ := exists_span isBlankChar text
    have hblank : isBlank gap = true := List.all_eq_true.2 hgap
    rw [words_append_of_isBlank hblank]
    rcases htail with rfl | ⟨c, behind, rfl, hc⟩
    · rw [List.append_nil]
      exact .blank hblank
    · obtain ⟨word, rest, hsplit, hword, hrest⟩ :=
        exists_span (fun c => !isBlankChar c) (c :: behind)
      have hword' : ∀ c ∈ word, isBlankChar c = false := by simpa using hword
      have hne : word ≠ [] := by
        -- The character behind the gap is no blank, so it belongs to the word.
        rintro rfl
        rcases hrest with rfl | ⟨d, rest, rfl, hd⟩
        · cases hsplit
        · cases hsplit
          simp [hc] at hd
      rw [hsplit] at hlength ⊢
      rcases hrest with rfl | ⟨d, rest, rfl, hd⟩
      · rw [List.append_nil, words_eq_singleton hne hword']
        exact .last hblank hne hword'
      · have hd' : isBlankChar d = true := by simpa using hd
        have hshorter : rest.length < length := by
          simp only [List.length_append, List.length_cons] at hlength
          omega
        rw [words_append_cons hd', words_eq_singleton hne hword', ← List.append_assoc]
        exact .more hblank hne hword' hd' (ih _ hshorter rest rfl)

/-- The words of a text are those that it is cut into. -/
theorem hasWords_iff {text : List Char} {ws : List (List Char)} :
    HasWords text ws ↔ words text = ws := by
  refine ⟨words_of_hasWords, ?_⟩
  rintro rfl
  exact hasWords_words text

/-! ## Elements -/

/-- The elements of a comma-separated list: at least one, none of which has a comma. An element may
be empty. -/
def HasElements (list : List Char) (elements : List (List Char)) : Prop :=
  elements ≠ [] ∧ (∀ element ∈ elements, ',' ∉ element) ∧ list = [','].intercalate elements

/-- No piece between the commas has a comma. -/
private theorem comma_notMem_of_mem_splitOn {list piece : List Char}
    (h : piece ∈ list.splitOn ',') : ',' ∉ piece := by
  induction list generalizing piece with
  | nil =>
    rw [List.splitOn_nil, List.mem_singleton] at h
    rw [h]
    exact List.not_mem_nil
  | cons c list ih =>
    obtain ⟨first, others, hsplit⟩ :=
      List.exists_cons_of_ne_nil (List.splitOn_ne_nil ',' list)
    rw [List.splitOn_cons_eq_if_modifyHead, hsplit] at h
    rw [hsplit] at ih
    split at h
    next =>
      rcases List.mem_cons.1 h with rfl | h
      · exact List.not_mem_nil
      · exact ih h
    next hc =>
      -- A character other than a comma is put in front of the first piece.
      rcases List.mem_cons.1 h with rfl | h
      · intro hmem
        rcases List.mem_cons.1 hmem with hcomma | hmem
        · exact hc (beq_iff_eq.2 hcomma.symm)
        · exact ih List.mem_cons_self hmem
      · exact ih (List.mem_cons_of_mem first h)

/-- The elements of a list are the pieces between its commas. -/
theorem hasElements_iff {list : List Char} {elements : List (List Char)} :
    HasElements list elements ↔ list.splitOn ',' = elements := by
  constructor
  · rintro ⟨hne, hcomma, rfl⟩
    exact List.splitOn_intercalate ',' hcomma hne
  · rintro rfl
    exact ⟨List.splitOn_ne_nil ',' list, fun _ => comma_notMem_of_mem_splitOn,
      (List.intercalate_splitOn ',').symm⟩

end Text

/-! ## Numerals -/

namespace Numeral

/-- One or more ASCII digits, and the number that they stand for in base ten. -/
inductive Digits : List Char → Nat → Prop
  | single {c : Char} (hc : c.isDigit = true) : Digits [c] (c.toNat - '0'.toNat)
  | append {text : List Char} {n : Nat} {c : Char} (htext : Digits text n)
      (hc : c.isDigit = true) : Digits (text ++ [c]) (10 * n + (c.toNat - '0'.toNat))

/-- A numeral of a natural number: digits, which may have a plus sign in front. -/
inductive Natural : List Char → Nat → Prop
  | unsigned {text : List Char} {n : Nat} (h : Digits text n) : Natural text n
  | plus {text : List Char} {n : Nat} (h : Digits text n) : Natural ('+' :: text) n

/-- A numeral of an integer: that of a natural number, or digits with a minus sign in front. -/
inductive Integer : List Char → Int → Prop
  | natural {text : List Char} {n : Nat} (h : Natural text n) : Integer text n
  | minus {text : List Char} {n : Nat} (h : Digits text n) : Integer ('-' :: text) (-n)

/-- Digits read from the left: what they stand for is the value of their base ten text. -/
theorem digits_iff {text : List Char} {n : Nat} :
    Digits text n ↔
      (text ≠ [] ∧ ∀ c ∈ text, c.isDigit = true) ∧ Nat.ofDigitChars 10 text 0 = n := by
  constructor
  · intro h
    induction h with
    | single hc => simpa [Nat.ofDigitChars] using hc
    | append _ hc ih =>
      obtain ⟨⟨-, hdigits⟩, hvalue⟩ := ih
      refine ⟨⟨by simp, fun d hd => ?_⟩, ?_⟩
      · rcases List.mem_append.1 hd with hd | hd
        · exact hdigits d hd
        · rwa [List.mem_singleton.1 hd]
      · rw [Nat.ofDigitChars_append, hvalue]
        rfl
  · rintro ⟨⟨hne, hdigits⟩, rfl⟩
    -- On the digits from the right: the last one is added to ten times the others.
    induction text using List.reverseRecOn with
    | nil => exact absurd rfl hne
    | append_singleton text c ih =>
      have hc : c.isDigit = true := hdigits c (by simp)
      cases text with
      | nil => simpa [Nat.ofDigitChars] using Digits.single hc
      | cons d text =>
        have htext := ih (List.cons_ne_nil d text) fun e he =>
          hdigits e (List.mem_append_left [c] he)
        rw [Nat.ofDigitChars_append]
        exact htext.append hc

/-- Digits are read as the number that they stand for, and nothing else is read. -/
theorem digits?_eq_some_iff {text : List Char} {n : Nat} :
    digits? text = some n ↔ Digits text n := by
  simp only [digits_iff, digits?, List.all_eq_true, Option.ite_none_right_eq_some,
    Option.some.injEq]

/-- A zero in front does not change what digits stand for. -/
theorem Digits.zero_cons {text : List Char} {n : Nat} (h : Digits text n) :
    Digits ('0' :: text) n := by
  rw [digits_iff] at h ⊢
  obtain ⟨⟨-, hdigits⟩, hvalue⟩ := h
  refine ⟨⟨List.cons_ne_nil _ _, List.forall_mem_cons.2 ⟨rfl, hdigits⟩⟩, ?_⟩
  rw [← hvalue]
  rfl

theorem Digits.ne_nil {text : List Char} {n : Nat} (h : Digits text n) : text ≠ [] :=
  (digits_iff.1 h).1.1

/-- A digit stands for a number below ten. -/
private theorem digit_lt_ten {c : Char} (hc : c.isDigit = true) : c.toNat - '0'.toNat < 10 := by
  have hzero : '0'.toNat = 48 := rfl
  have hnine : '9'.toNat = 57 := rfl
  have hbounds := Char.isDigit_iff_toNat.1 hc
  omega

/-- The last digit of a number and the number before it can be told from the number. -/
private theorem digit_unique {c d : Char} {m n : Nat} (hc : c.isDigit = true)
    (hd : d.isDigit = true)
    (h : 10 * m + (c.toNat - '0'.toNat) = 10 * n + (d.toNat - '0'.toNat)) : m = n ∧ c = d := by
  have hlt := digit_lt_ten hc
  have hlt' := digit_lt_ten hd
  have hbounds := Char.isDigit_iff_toNat.1 hc
  have hbounds' := Char.isDigit_iff_toNat.1 hd
  have hvalue : c.toNat = d.toNat := by omega
  exact ⟨by omega, Char.toNat_inj.1 hvalue⟩

/-- Equally many digits that stand for the same number are the same digits. -/
theorem Digits.eq_of_length_eq {text text' : List Char} {n n' : Nat} (h : Digits text n)
    (h' : Digits text' n') (hlength : text.length = text'.length) (hvalue : n = n') :
    text = text' := by
  -- On the digits from the right. A single digit is not as long as several.
  induction h generalizing text' n' with
  | single hc =>
    cases h' with
    | single hd =>
      obtain ⟨-, rfl⟩ := digit_unique (m := 0) (n := 0) hc hd (by omega)
      rfl
    | append htext' hd =>
      exact absurd (List.length_eq_zero_iff.1 (by simpa using hlength.symm)) htext'.ne_nil
  | append htext hc ih =>
    cases h' with
    | single hd =>
      exact absurd (List.length_eq_zero_iff.1 (by simpa using hlength)) htext.ne_nil
    | append htext' hd =>
      obtain ⟨hrest, rfl⟩ := digit_unique hc hd hvalue
      rw [ih htext' (by simpa using hlength) hrest]

/-- A number has no more digits than those that stand for it. -/
theorem Digits.lt_pow {text : List Char} {n : Nat} (h : Digits text n) :
    n < Nat.pow 10 text.length := by
  rw [Nat.pow_eq]
  induction h with
  | single hc => exact digit_lt_ten hc
  | append _ hc ih =>
    have hlt := digit_lt_ten hc
    rw [List.length_append, List.length_singleton, Nat.pow_succ]
    omega

/-- Digits are the padded numeral of the number that they stand for. -/
theorem Digits.padded_eq {text : List Char} {n : Nat} (h : Digits text n) :
    padded text.length n = text := by
  have hpositive : 0 < text.length := List.length_pos_iff.2 h.ne_nil
  have hlength : (padded text.length n).length = text.length := length_padded hpositive h.lt_pow
  have hne : padded text.length n ≠ [] := by
    rw [← List.length_pos_iff, hlength]
    exact hpositive
  have hpadded : Digits (padded text.length n) n :=
    digits_iff.2 ⟨⟨hne, fun _ => isDigit_of_mem_padded⟩, ofDigitChars_padded _ n⟩
  exact hpadded.eq_of_length_eq h hlength rfl

/-- Digits do not begin with a sign. -/
private theorem not_digits_cons {sign : Char} (hsign : sign.isDigit = false) (rest : List Char)
    (n : Nat) : ¬ Digits (sign :: rest) n := by
  intro h
  obtain ⟨⟨-, hdigits⟩, -⟩ := digits_iff.1 h
  rw [hdigits sign List.mem_cons_self] at hsign
  cases hsign

/-- A numeral of a natural number is read as this number, and nothing else is read. -/
theorem nat?_eq_some_iff {text : List Char} {n : Nat} :
    nat? text = some n ↔ Natural text n := by
  unfold nat?
  split
  next rest =>
    rw [digits?_eq_some_iff]
    refine ⟨.plus, fun h => ?_⟩
    cases h with
    | unsigned h => exact absurd h (not_digits_cons rfl rest n)
    | plus h => exact h
  next hplus =>
    rw [digits?_eq_some_iff]
    refine ⟨.unsigned, fun h => ?_⟩
    cases h with
    | unsigned h => exact h
    | plus h => exact absurd rfl (hplus _)

/-- A numeral of a natural number does not begin with a minus sign. -/
private theorem not_natural_minus (rest : List Char) (n : Nat) : ¬ Natural ('-' :: rest) n := by
  intro h
  cases h with
  | unsigned h => exact not_digits_cons rfl rest n h

/-- A numeral stands for one number. -/
theorem rightUnique_natural : Relator.RightUnique Natural := by
  intro text n n' h h'
  rw [← nat?_eq_some_iff] at h h'
  exact Option.some.inj (h.symm.trans h')

/-- A numeral of an integer is read as this integer, and nothing else is read. -/
theorem int?_eq_some_iff {text : List Char} {n : Int} :
    int? text = some n ↔ Integer text n := by
  unfold int?
  split
  next rest =>
    simp only [Option.map_eq_some_iff, Option.bind_eq_bind, Option.bind_eq_some_iff,
      Option.pure_def, Option.some.injEq, digits?_eq_some_iff]
    constructor
    · rintro ⟨-, ⟨k, hk, rfl⟩, rfl⟩
      exact .minus hk
    · intro h
      cases h with
      | natural h => exact absurd h (not_natural_minus rest _)
      | minus h => exact ⟨_, ⟨_, h, rfl⟩, rfl⟩
  next hminus =>
    simp only [Option.map_eq_some_iff, nat?_eq_some_iff]
    constructor
    · rintro ⟨k, hk, rfl⟩
      exact .natural hk
    · intro h
      cases h with
      | natural h => exact ⟨_, h, rfl⟩
      | minus h => exact absurd rfl (hminus _)

/-- A numeral stands for one integer. -/
theorem rightUnique_integer : Relator.RightUnique Integer := by
  intro text n n' h h'
  rw [← int?_eq_some_iff] at h h'
  exact Option.some.inj (h.symm.trans h')

end Numeral

end Agenda
