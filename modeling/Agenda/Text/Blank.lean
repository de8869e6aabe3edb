/-!
# Blanks

White space as Unicode defines it (the property `White_Space`), which separates the words of a
rule text and makes a title or a level blank. Core's `Char.isWhitespace` knows four ASCII
characters only; `isBlankChar_of_isWhitespace` states that they are all blanks here.

The words of a text are pinned down by two equations: a blank cuts a text into two that have their
words by themselves (`words_append_cons`), and a text without blanks is one word
(`words_eq_singleton`).
-/

namespace Agenda.Text

/-- A character with the Unicode property `White_Space`. -/
def isBlankChar (c : Char) : Bool :=
  ('\t' ≤ c && c ≤ '\r') || c == ' ' || c == '\u0085' || c == '\u00a0' || c == '\u1680' ||
    ('\u2000' ≤ c && c ≤ '\u200a') || c == '\u2028' || c == '\u2029' || c == '\u202f' ||
    c == '\u205f' || c == '\u3000'

/-- A text without any character other than blanks; the empty text is one. -/
def isBlank (text : List Char) : Bool :=
  text.all isBlankChar

/-- The maximal runs of characters that are not blanks, in order. -/
def words (text : List Char) : List (List Char) :=
  (text.splitOnP isBlankChar).filter (! ·.isEmpty)

/-- Every character that core counts as white space is a blank. -/
theorem isBlankChar_of_isWhitespace {c : Char} (h : c.isWhitespace = true) :
    isBlankChar c = true := by
  simp only [Char.isWhitespace, Bool.or_eq_true, decide_eq_true_eq] at h
  rcases h with ((rfl | rfl) | rfl) | rfl <;> decide

/-- A blank cuts a text into two that have their words by themselves. -/
theorem words_append_cons {c : Char} (h : isBlankChar c = true) (before behind : List Char) :
    words (before ++ c :: behind) = words before ++ words behind := by
  simp only [words]
  rw [List.splitOnP_append_cons before behind h, List.filter_append]

/-- The empty text has no words. -/
@[simp]
theorem words_nil : words [] = [] := by
  simp [words, List.splitOnP_nil]

/-- A blank in front belongs to no word. -/
theorem words_cons_of_isBlankChar {c : Char} (h : isBlankChar c = true) (text : List Char) :
    words (c :: text) = words text := by
  simpa using words_append_cons h [] text

/-- A text without blanks is one word, unless it is empty. -/
theorem words_eq_singleton {text : List Char} (hne : text ≠ [])
    (h : ∀ c ∈ text, isBlankChar c = false) : words text = [text] := by
  rw [words, List.splitOnP_eq_singleton h]
  simp [hne]

/-- Only a blank text has no words. -/
theorem words_eq_nil_iff {text : List Char} : words text = [] ↔ isBlank text = true := by
  induction text with
  | nil => simp [isBlank]
  | cons c text ih =>
    by_cases hc : isBlankChar c = true
    · rw [words_cons_of_isBlankChar hc, ih]
      simp [isBlank, hc]
    · -- A character that is no blank belongs to the first piece, which is then not empty.
      obtain ⟨piece, pieces, hsplit⟩ :=
        List.exists_cons_of_ne_nil (List.splitOnP_ne_nil isBlankChar text)
      simp [words, isBlank, List.splitOnP_cons_eq_if_modifyHead, hc, hsplit]

end Agenda.Text
