import Agenda.Proofs.Json.Scanning

/-!
# Scanning numbers and words

A word ends with its last letter. A number has no last character of its own: the machine stays in it
until a character comes that does not go on with it. So the parts of a number are followed through
the machine's table of parts first, and the number becomes a token with the separator behind it.

- `Json.IsInteger.exists_part`, `Json.IsFraction.exists_part` and `Json.IsExponent.exists_part`: the
  part of the table in which each of the three ends.
- `Json.IsScalar.scansBefore`: a number or a word is one token.
-/

namespace Agenda.Json

open Token (Scan NumberPart)

variable {part : NumberPart} {text : List Char}

/-! ## The parts of a number -/

theorem ne_of_isDigit {c d : Char} (hc : c.isDigit = true) (hd : d.isDigit = false) : c ≠ d := by
  rintro rfl
  simp [hd] at hc

/-- Digits that change nothing are passed over. -/
private theorem foldlM_next?_digits
    (hpart : ∀ c : Char, c.isDigit = true → part.next? c = some part)
    (htext : ∀ c ∈ text, c.isDigit = true) : text.foldlM NumberPart.next? part = some part := by
  induction text with
  | nil => rfl
  | cons c text ih =>
    rw [List.foldlM_cons, hpart c (htext c List.mem_cons_self)]
    exact ih fun d hd => htext d (List.mem_cons_of_mem c hd)

/-- The first digit may lead to another part, in which the others then stay. -/
private theorem IsDigits.foldlM_next? {after : NumberPart} (h : IsDigits text)
    (hfirst : ∀ c : Char, c.isDigit = true → part.next? c = some after)
    (hrest : ∀ c : Char, c.isDigit = true → after.next? c = some after) :
    text.foldlM NumberPart.next? part = some after := by
  obtain ⟨hne, hdigits⟩ := h
  cases text with
  | nil => exact absurd rfl hne
  | cons c text =>
    rw [List.foldlM_cons, hfirst c (hdigits c List.mem_cons_self)]
    exact foldlM_next?_digits hrest fun d hd => hdigits d (List.mem_cons_of_mem c hd)

/-- An integer ends as a zero or as other digits. It is read alike as the beginning of a number and
behind a minus sign. -/
theorem IsInteger.exists_part (h : IsInteger text) :
    ∃ c rest, ∃ part : NumberPart, text = c :: rest ∧ c.isDigit = true ∧
      NumberPart.first? c = some part ∧ NumberPart.sign.next? c = some part ∧
      rest.foldlM NumberPart.next? part = some part ∧ (part = .zero ∨ part = .integer) := by
  cases h with
  | zero => exact ⟨'0', [], .zero, rfl, rfl, rfl, rfl, rfl, Or.inl rfl⟩
  | @digits c rest hc hzero hrest =>
    have hminus : c ≠ '-' := ne_of_isDigit hc rfl
    refine ⟨c, rest, .integer, rfl, hc, ?_, ?_, ?_, Or.inr rfl⟩
    · simp [NumberPart.first?, hminus, hzero, hc]
    · simp [NumberPart.next?, hzero, hc]
    · exact foldlM_next?_digits (fun d hd => by simp [NumberPart.next?, hd]) hrest

/-- Behind an integer, a fraction ends as such or leaves all as it was. -/
theorem IsFraction.exists_part (h : IsFraction text)
    (hpart : part = .zero ∨ part = .integer) :
    ∃ after, text.foldlM NumberPart.next? part = some after ∧
      (after = .zero ∨ after = .integer ∨ after = .fraction) := by
  cases h with
  | missing => exact ⟨part, rfl, by tauto⟩
  | point h =>
    have hpoint : part.next? '.' = some .point := by rcases hpart with rfl | rfl <;> rfl
    refine ⟨.fraction, ?_, Or.inr (Or.inr rfl)⟩
    rw [List.foldlM_cons, hpoint]
    exact h.foldlM_next? (fun c hc => by simp [NumberPart.next?, hc])
      (fun c hc => by simp [NumberPart.next?, hc])

/-- With its exponent, if there is one, a number is complete. -/
theorem IsExponent.exists_part (h : IsExponent text)
    (hpart : part = .zero ∨ part = .integer ∨ part = .fraction) :
    ∃ after : NumberPart, text.foldlM NumberPart.next? part = some after ∧
      after.isComplete = true := by
  cases h with
  | missing => exact ⟨part, rfl, by rcases hpart with rfl | rfl | rfl <;> rfl⟩
  | @mark mark sign digits hmark hsign h =>
    have hstay : ∀ c : Char, c.isDigit = true → NumberPart.exponent.next? c = some .exponent :=
      fun c hc => by simp [NumberPart.next?, hc]
    have hfirst : part.next? mark = some .exponentMark := by
      rcases hpart with rfl | rfl | rfl <;> rcases hmark with rfl | rfl <;> rfl
    refine ⟨.exponent, ?_, rfl⟩
    rw [List.foldlM_cons, hfirst]
    show List.foldlM NumberPart.next? _ (sign ++ digits) = _
    rw [List.foldlM_append]
    -- Digits follow the sign if there is one, and the mark if there is none.
    rcases hsign with rfl | hsign
    · refine h.foldlM_next? (fun c hc => ?_) hstay
      have hplus : c ≠ '+' := ne_of_isDigit hc rfl
      have hminus : c ≠ '-' := ne_of_isDigit hc rfl
      simp [NumberPart.next?, hplus, hminus, hc]
    · have hmarked : sign.foldlM NumberPart.next? .exponentMark = some .exponentSign := by
        rcases hsign with rfl | rfl <;> rfl
      rw [hmarked]
      exact h.foldlM_next? (fun c hc => by simp [NumberPart.next?, hc]) hstay

/-! ## Tokens -/

/-- Within a number, the machine does what the table of parts says. -/
private theorem foldlM_step_number {after : NumberPart}
    (h : text.foldlM NumberPart.next? part = some after) (tokens : List Token) :
    text.foldlM Scan.step ⟨.number part, tokens⟩ = some ⟨.number after, tokens⟩ := by
  induction text generalizing part with
  | nil =>
    cases h
    rfl
  | cons c text ih =>
    obtain ⟨next, hnext, hrest⟩ := Option.bind_eq_some_iff.1 h
    have hstep : Scan.step ⟨.number part, tokens⟩ c = some ⟨.number next, tokens⟩ := by
      simp [Scan.step, hnext]
    rw [List.foldlM_cons, hstep]
    exact ih hrest

/-- A digit or a minus sign begins a number. -/
private theorem start_number {c : Char} (hc : c.isDigit = true ∨ c = '-')
    (hpart : NumberPart.first? c = some part) (tokens : List Token) :
    Scan.start tokens c = some ⟨.number part, tokens⟩ := by
  have hne : ∀ d : Char, d.isDigit = false → d ≠ '-' → c ≠ d := by
    intro d hd hminus
    rcases hc with hc | rfl
    · exact ne_of_isDigit hc hd
    · exact hminus.symm
  have hspace : Token.isSpace c = false := by
    simp [Token.isSpace, hne ' ', hne '\t', hne '\n', hne '\r']
  have hquote : c ≠ '"' := hne '"' rfl (by decide)
  have hmark : Token.ofChar? c = none := by
    unfold Token.ofChar?
    split <;> simp at hc ⊢
  have hword : Token.wordRest? c = none := by
    unfold Token.wordRest?
    split <;> simp at hc ⊢
  simp [Scan.start, hspace, hquote, hmark, hword, hpart]

/-- A number is complete when a separator comes. -/
private theorem scansBefore_number {c : Char} {rest : List Char} {after : NumberPart}
    (hc : c.isDigit = true ∨ c = '-') (hfirst : NumberPart.first? c = some part)
    (hrest : rest.foldlM NumberPart.next? part = some after) (hafter : after.isComplete = true) :
    ScansBefore (c :: rest) [.scalar] := by
  intro separator following tokens hseparator hfollowing before
  have hstart : Scan.step ⟨.between, before⟩ c = some ⟨.number part, before⟩ :=
    start_number hc hfirst before
  -- The separator is taken as if the machine had been between two tokens already.
  have hend : Scan.step ⟨.number after, before⟩ separator =
      Scan.step ⟨.between, .scalar :: before⟩ separator := by
    simp [Scan.step, hseparator after, hafter]
  have hbehind := hfollowing (.scalar :: before)
  rw [List.foldlM_cons, ← hend] at hbehind
  rw [List.cons_append, List.foldlM_cons, hstart]
  show List.foldlM Scan.step _ (rest ++ separator :: following) = _
  rw [List.foldlM_append, foldlM_step_number hrest]
  simpa using hbehind

/-- A number or a word is one token. -/
theorem IsScalar.scansBefore (h : IsScalar text) : ScansBefore text [.scalar] := by
  cases h with
  | @number sign integer fraction exponent hsign hinteger hfraction hexponent =>
    -- Each piece goes on from the part in which the one before it ends.
    obtain ⟨c, rest, part, rfl, hc, hfirst, hsigned, hrest, hpart⟩ := hinteger.exists_part
    obtain ⟨middle, hmiddle, hmiddlePart⟩ := hfraction.exists_part hpart
    obtain ⟨after, hexponent, hafter⟩ := hexponent.exists_part hmiddlePart
    have hnumber : (rest ++ fraction ++ exponent).foldlM NumberPart.next? part = some after := by
      simp [List.foldlM_append, hrest, hmiddle, hexponent]
    rcases hsign with rfl | rfl
    · exact scansBefore_number (Or.inl hc) hfirst hnumber hafter
    · refine @scansBefore_number .sign '-' _ after (Or.inr rfl) rfl ?_ hafter
      simpa [hsigned] using hnumber
  | true => exact Scans.scansBefore fun _ => rfl
  | false => exact Scans.scansBefore fun _ => rfl
  | null => exact Scans.scansBefore fun _ => rfl

end Agenda.Json
