import Agenda.Proofs.Json.Quoted
import Mathlib.Data.List.Forall2

/-!
# Scanning between tokens

The machine that cuts a text into tokens takes one character at a time, so it can be followed
through a text piece by piece. A piece is a number of whole tokens, with the exception of a number:
it ends only with what comes behind it.

- `Json.Scans`: pieces between tokens, and the tokens that they form. `Json.ScansBefore` is the same
  for a piece with a separator behind it.
- `Json.exists_scans_quote`: a text that was quoted is scanned as one token, which stands for it.
- `Json.Encloses.scans`: pieces with commas between them and brackets around them.
-/

namespace Agenda.Json

open Token (Scan)

/-! ## Tokens -/

/-- Between two tokens, the machine reads `text` as `tokens` and is between two tokens again. -/
def Scans (text : List Char) (tokens : List Token) : Prop :=
  ∀ before, text.foldlM Scan.step ⟨.between, before⟩ =
    some ⟨.between, tokens.reverse ++ before⟩

theorem Scans.nil : Scans [] [] := fun _ => rfl

theorem Scans.append {text text' : List Char} {tokens tokens' : List Token}
    (h : Scans text tokens) (h' : Scans text' tokens') :
    Scans (text ++ text') (tokens ++ tokens') := by
  intro before
  simp [List.foldlM_append, h before, h' _]

/-- A brace, a bracket, a comma or a colon is a token. -/
theorem scans_mark {c : Char} {token : Token} (h : Token.ofChar? c = some token) :
    Scans [c] [token] := by
  intro before
  unfold Token.ofChar? at h
  split at h <;> cases h <;> rfl

/-- White space is no token. -/
theorem scans_space {space : List Char} (h : space.all Token.isSpace = true) :
    Scans space [] := by
  induction space with
  | nil => exact .nil
  | cons c space ih =>
    obtain ⟨hc, hspace⟩ := Bool.and_eq_true_iff.1 (List.all_cons ▸ h)
    -- Whether a character is a space is asked before anything else.
    have hsingle : Scans [c] [] := by
      intro before
      simp [Scan.step, Scan.start, hc]
    exact hsingle.append (ih hspace)

/-- Units between quotes are a token. -/
theorem Written.scans {text : List Char} {units : List CodeUnit} (h : Written text units) :
    Scans (inQuotes text) [.text units] := by
  intro before
  have hopen : Scan.step ⟨.between, before⟩ '"' = some ⟨.quoted [], before⟩ := rfl
  have hclose : Scan.step ⟨.quoted (units.reverse ++ []), before⟩ '"' =
      some ⟨.between, .text units :: before⟩ := by simp [Scan.step]
  rw [inQuotes, List.cons_append, List.foldlM_cons, hopen]
  show List.foldlM Scan.step _ (text ++ ['"']) = _
  rw [List.foldlM_append, h.foldlM_step]
  exact hclose

/-- A text that was quoted is scanned as one token, which stands for the text. -/
theorem exists_scans_quote (text : List Char) :
    ∃ units, CodeUnit.decode units = some text ∧ Scans (quote text) [.text units] := by
  obtain ⟨units, hwritten, hdecodes⟩ := denotes_flatMap_escape text
  exact ⟨units, hdecodes.decode, hwritten.scans⟩

/-- The tokens of a whole text. -/
theorem Scans.ofChars? {text : List Char} {tokens : List Token} (h : Scans text tokens) :
    Token.ofChars? text = some tokens := by
  simp [Token.ofChars?, h [], Scan.finish]

/-! ## Separators and brackets -/

/-- The character ends a number: no part of a number goes on with it. -/
def Separates (c : Char) : Prop :=
  ∀ part : Token.NumberPart, part.next? c = none

/-- The machine reads `text` as `tokens` if a separator comes next. -/
def ScansBefore (text : List Char) (tokens : List Token) : Prop :=
  ∀ ⦃c rest restTokens⦄, Separates c → Scans (c :: rest) restTokens →
    Scans (text ++ c :: rest) (tokens ++ restTokens)

theorem Scans.scansBefore {text : List Char} {tokens : List Token} (h : Scans text tokens) :
    ScansBefore text tokens :=
  fun _ _ _ _ hrest => h.append hrest

theorem separates_mark {c : Char} {token : Token} (h : Token.ofChar? c = some token) :
    Separates c := by
  unfold Token.ofChar? at h
  split at h <;> cases h <;> (intro part; cases part <;> rfl)

theorem IsSpace.separates {c : Char} {space : List Char} (h : IsSpace (c :: space)) :
    Separates c := by
  rcases h c List.mem_cons_self with rfl | rfl | rfl | rfl <;> (intro part; cases part <;> rfl)

theorem IsSpace.scans {space : List Char} (h : IsSpace space) : Scans space [] := by
  apply scans_space
  rw [List.all_eq_true]
  intro c hc
  rcases h c hc with rfl | rfl | rfl | rfl <;> rfl

/-- White space may stand around a text, and separates it as well. -/
theorem ScansBefore.around {text : List Char} {tokens : List Token} (h : ScansBefore text tokens)
    (spaces : Spaces) : ScansBefore (spaces.around text) tokens := by
  intro c rest restTokens hc hrest
  have hbehind : Scans (text ++ (spaces.behind ++ c :: rest)) (tokens ++ restTokens) := by
    have hspaces := spaces.isSpace_behind
    cases hspace : spaces.behind with
    | nil => exact h hc hrest
    | cons space more =>
      rw [hspace] at hspaces
      exact h hspaces.separates (hspaces.scans.append hrest)
  simpa [Spaces.around] using spaces.isSpace_before.scans.append hbehind

/-- Pieces with commas between them are read one after the other. -/
private theorem scansBefore_intercalate {texts : List (List Char)} {tokens : List (List Token)}
    (h : List.Forall₂ ScansBefore texts tokens) (htexts : texts ≠ []) :
    ScansBefore ([','].intercalate texts) ([Token.comma].intercalate tokens) := by
  induction h with
  | nil => exact absurd rfl htexts
  | @cons text first texts tokens hfirst hrest ih =>
    cases hrest with
    | nil => simpa only [List.intercalate_singleton] using hfirst
    | @cons text' second texts tokens hsecond hrest =>
      intro c rest restTokens hc hbehind
      -- The comma is the separator behind the first piece, and `c` the one behind the last.
      have hcomma : Scans [','] [.comma] := scans_mark rfl
      have hfollowing := hcomma.append (ih (List.cons_ne_nil text' texts) hc hbehind)
      simpa [List.intercalate_cons_cons] using hfirst (separates_mark rfl) hfollowing

variable {left right : Char} {opening closing : Token}

/-- Pieces with commas between them are read between brackets. -/
theorem scans_enclosed (hleft : Token.ofChar? left = some opening)
    (hright : Token.ofChar? right = some closing) {texts : List (List Char)}
    {tokens : List (List Token)} (h : List.Forall₂ ScansBefore texts tokens) :
    Scans (left :: [','].intercalate texts ++ [right])
      (opening :: [Token.comma].intercalate tokens ++ [closing]) := by
  have hpieces : Scans ([','].intercalate texts ++ [right])
      ([Token.comma].intercalate tokens ++ [closing]) := by
    by_cases htexts : texts = []
    · subst htexts
      cases h
      exact scans_mark hright
    · exact scansBefore_intercalate h htexts (separates_mark hright) (scans_mark hright)
  exact (scans_mark hleft).append hpieces

/-- Pieces that have tokens one by one have them together, and so what the tokens stand for. -/
theorem exists_scans_pieces {α β : Type} [Nonempty β] {text : α → List Char}
    {forms : List Token → β → Prop} {isRead : α → β → Prop} {pieces : List α}
    (h : ∀ piece ∈ pieces, ∃ tokens read, ScansBefore (text piece) tokens ∧ forms tokens read ∧
      isRead piece read) :
    ∃ (tokens : List (List Token)) (read : α → β),
      List.Forall₂ ScansBefore (pieces.map text) tokens ∧
        List.Forall₂ forms tokens (pieces.map read) ∧
          ∀ piece ∈ pieces, isRead piece (read piece) := by
  choose! tokens read hscan hforms hread using h
  refine ⟨pieces.map tokens, read, ?_, ?_, hread⟩
  · rw [List.forall₂_map_left_iff, List.forall₂_map_right_iff, List.forall₂_same]
    exact hscan
  · rw [List.forall₂_map_left_iff, List.forall₂_map_right_iff, List.forall₂_same]
    exact hforms

/-- What two brackets enclose is read piece by piece. -/
theorem Encloses.scans {texts : List (List Char)} {text : List Char}
    (htext : Encloses left right texts text) (hleft : Token.ofChar? left = some opening)
    (hright : Token.ofChar? right = some closing) {tokens : List (List Token)}
    (h : List.Forall₂ ScansBefore texts tokens) :
    Scans text (opening :: [Token.comma].intercalate tokens ++ [closing]) := by
  cases htext with
  | empty hspace =>
    cases h
    exact (scans_mark hleft).append (hspace.scans.append (scans_mark hright))
  | pieces _ => exact scans_enclosed hleft hright h

end Agenda.Json
