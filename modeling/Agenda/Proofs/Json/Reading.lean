import Agenda.Json.Parser
import Agenda.Proofs.Json.Scanning

/-!
# Reading arrays and objects

The reader takes one token at a time and keeps what is open on a list of its own. What it makes of
the tokens of a value does not depend on that list, so the tokens of an array or an object can be
put together from those of its elements or members. The two differ in their brackets and in what may
follow them, and are read alike otherwise.

- `Json.Forms`: tokens, and the value that they form wherever a value may stand.
- `Json.Bracket.forms`: the tokens of pieces between brackets, with `Json.forms_array` and
  `Json.forms_object` for the two kinds.
- `Json.ofChars?_of_scans`: the value of a whole text.
-/

namespace Agenda.Json

instance : Nonempty Value :=
  ⟨.scalar⟩

/-- Where a value may stand, the tokens are read as the given one, whatever is open there. -/
def Forms (tokens : List Token) (value : Value) : Prop :=
  ∀ frames, tokens.foldlM Reading.step ⟨frames, .value⟩ = Reading.complete value frames

theorem forms_text (units : List CodeUnit) : Forms [.text units] (.text units) := by
  intro frames
  simp [Reading.step, Reading.begin]

theorem forms_scalar : Forms [.scalar] .scalar := by
  intro frames
  simp [Reading.step, Reading.begin]

/-- The tokens of a value are some tokens, and the first of them ends no array. -/
theorem Forms.exists_cons {tokens : List Token} {value : Value} (h : Forms tokens value) :
    ∃ first rest, tokens = first :: rest ∧ first ≠ .closeBracket := by
  -- With nothing open, neither an empty sequence nor a closing bracket leads to a value.
  have hread := h []
  cases tokens with
  | nil => simp [Reading.complete] at hread
  | cons first rest =>
    refine ⟨first, rest, rfl, ?_⟩
    rintro rfl
    simp [Reading.step, Reading.begin, Reading.complete] at hread

/-! ## Brackets -/

/-- How arrays, or objects, are read. The pieces between the brackets are of type `α`. -/
structure Bracket (α : Type) where
  /-- The opening bracket. -/
  opening : Token
  /-- The closing bracket. -/
  closing : Token
  /-- What is kept of the pieces while the bracket is open. -/
  frame : List α → Frame
  /-- The value that the pieces form. -/
  value : List α → Value
  /-- What may follow the opening bracket. -/
  first : Expect
  /-- What may follow a comma. -/
  next : Expect
  /-- The opening bracket begins a value. -/
  step_opening (frames : List Frame) :
    Reading.step ⟨frames, .value⟩ opening = some ⟨frame [] :: frames, first⟩
  /-- A comma may follow a piece. -/
  step_comma (before : List α) (frames : List Frame) :
    Reading.step ⟨frame before :: frames, .commaOrEnd⟩ .comma = some ⟨frame before :: frames, next⟩
  /-- The closing bracket may follow the opening one or a piece. -/
  step_closing (before : List α) (frames : List Frame) {expect : Expect}
    (h : expect = first ∨ expect = .commaOrEnd) :
    Reading.step ⟨frame before :: frames, expect⟩ closing =
      Reading.complete (value before.reverse) frames

namespace Bracket

variable {α : Type} (bracket : Bracket α)

/-- The tokens are read as a piece, whether it is the first one or comes after a comma. -/
def FormsPiece (tokens : List Token) (piece : α) : Prop :=
  ∀ before frames expect, expect = bracket.first ∨ expect = bracket.next →
    tokens.foldlM Reading.step ⟨bracket.frame before :: frames, expect⟩ =
      some ⟨bracket.frame (piece :: before) :: frames, .commaOrEnd⟩

/-- Pieces with commas between them are read one after the other. -/
private theorem foldlM_step {tokens : List (List Token)} {pieces : List α}
    (h : List.Forall₂ bracket.FormsPiece tokens pieces) (hpieces : pieces ≠ []) (before : List α)
    (frames : List Frame) {expect : Expect}
    (hexpect : expect = bracket.first ∨ expect = bracket.next) :
    ([Token.comma].intercalate tokens).foldlM Reading.step
        ⟨bracket.frame before :: frames, expect⟩ =
      some ⟨bracket.frame (pieces.reverse ++ before) :: frames, .commaOrEnd⟩ := by
  induction h generalizing before expect with
  | nil => exact absurd rfl hpieces
  | @cons first piece tokens pieces hfirst hrest ih =>
    cases hrest with
    | nil =>
      rw [List.intercalate_singleton]
      exact hfirst before frames expect hexpect
    | @cons second piece' tokens pieces hsecond hrest =>
      -- All that the rest of the pieces need is that they come after a comma.
      have hfollowing := ih (List.cons_ne_nil piece' pieces) (piece :: before) (Or.inr rfl)
      rw [List.intercalate_cons_cons, List.foldlM_append, List.foldlM_append,
        hfirst before frames expect hexpect]
      simpa [bracket.step_comma] using hfollowing

/-- Pieces form a value when they stand between brackets. -/
theorem forms {tokens : List (List Token)} {pieces : List α}
    (h : List.Forall₂ bracket.FormsPiece tokens pieces) :
    Forms (bracket.opening :: [Token.comma].intercalate tokens ++ [bracket.closing])
      (bracket.value pieces) := by
  intro frames
  rw [List.cons_append, List.foldlM_cons, bracket.step_opening]
  show List.foldlM Reading.step _ (_ ++ [bracket.closing]) = _
  rw [List.foldlM_append]
  -- The closing bracket may come at once, but not behind a comma, so the two cases end apart.
  by_cases hpieces : pieces = []
  · subst hpieces
    cases h
    have hend := bracket.step_closing [] frames (Or.inl rfl)
    simpa using hend
  · rw [bracket.foldlM_step h hpieces [] frames (Or.inl rfl)]
    have hend := bracket.step_closing (pieces.reverse ++ []) frames (Or.inr rfl)
    simpa using hend

/-- The brackets around the elements of an array. -/
def array : Bracket Value where
  opening := .openBracket
  closing := .closeBracket
  frame := .array
  value := .array
  first := .elementOrEnd
  next := .value
  step_opening _ := rfl
  step_comma _ _ := rfl
  step_closing := by rintro _ _ _ (rfl | rfl) <;> rfl

/-- The braces around the members of an object. -/
def object : Bracket (List CodeUnit × Value) where
  opening := .openBrace
  closing := .closeBrace
  frame := .object
  value := .object
  first := .keyOrEnd
  next := .key
  step_opening _ := rfl
  step_comma _ _ := rfl
  step_closing := by rintro _ _ _ (rfl | rfl) <;> rfl

end Bracket

/-! ## Arrays -/

/-- An element may stand where a value may, and its first token is not taken for the end. -/
private theorem Forms.formsPiece {tokens : List Token} {value : Value} (h : Forms tokens value) :
    Bracket.array.FormsPiece tokens value := by
  rintro before frames _ (rfl | rfl)
  · obtain ⟨first, rest, rfl, hfirst⟩ := h.exists_cons
    have hstep : Reading.step ⟨.array before :: frames, .elementOrEnd⟩ first =
        Reading.step ⟨.array before :: frames, .value⟩ first := by
      simp [Reading.step, hfirst]
    have hvalue := h (.array before :: frames)
    rw [List.foldlM_cons, ← hstep] at hvalue
    exact hvalue
  · exact h (.array before :: frames)

/-- An array is read from the tokens of its elements between brackets. -/
theorem forms_array {tokens : List (List Token)} {elements : List Value}
    (h : List.Forall₂ Forms tokens elements) :
    Forms (.openBracket :: [Token.comma].intercalate tokens ++ [.closeBracket])
      (.array elements) :=
  Bracket.array.forms (h.imp fun _ _ => Forms.formsPiece)

/-! ## Objects -/

/-- The tokens of a member of an object: its key, a colon and the tokens of its value. -/
def FormsMember (tokens : List Token) (member : List CodeUnit × Value) : Prop :=
  ∃ valueTokens, tokens = .text member.1 :: .colon :: valueTokens ∧ Forms valueTokens member.2

/-- A member may stand where a key may. -/
private theorem FormsMember.formsPiece {tokens : List Token} {member : List CodeUnit × Value}
    (h : FormsMember tokens member) : Bracket.object.FormsPiece tokens member := by
  intro before frames expect hexpect
  obtain ⟨valueTokens, rfl, hvalue⟩ := h
  have hkey : Reading.step ⟨.object before :: frames, expect⟩ (.text member.1) =
      some ⟨.member before member.1 :: frames, .colon⟩ := by
    rcases hexpect with rfl | rfl <;> rfl
  show List.foldlM Reading.step ⟨.object before :: frames, expect⟩ _ = _
  rw [List.foldlM_cons, hkey]
  -- Behind the colon a value is expected, and the open member takes it.
  exact hvalue (.member before member.1 :: frames)

/-- An object is read from the tokens of its members between braces. -/
theorem forms_object {tokens : List (List Token)} {members : List (List CodeUnit × Value)}
    (h : List.Forall₂ FormsMember tokens members) :
    Forms (.openBrace :: [Token.comma].intercalate tokens ++ [.closeBrace]) (.object members) :=
  Bracket.object.forms (h.imp fun _ _ => FormsMember.formsPiece)

/-! ## Whole texts -/

/-- The value of a whole text. -/
theorem ofChars?_of_scans {text : List Char} {tokens : List Token} {value : Value}
    (hscan : Scans text tokens) (hvalue : Forms tokens value) :
    Value.ofChars? text = some value := by
  unfold Value.ofChars? Value.ofTokens?
  rw [hscan.ofChars?]
  show (tokens.foldlM Reading.step ⟨[], .value⟩).bind Reading.finish = _
  rw [hvalue []]
  rfl

end Agenda.Json
