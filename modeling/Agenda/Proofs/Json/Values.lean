import Agenda.Proofs.Json.Reading
import Agenda.Proofs.Json.Scalar

/-!
# Reading what the grammar describes

Every text that is a value by the grammar is read as one value, whatever it holds and however deep
it goes, and the reader stands exactly behind it then. So in an object each member is read as what
it says, and no member is affected by the others.

- `Json.Reads`: a text and the value as which it is read.
- `Json.IsValue.exists_reads`: every value of the grammar is read.
- `Json.Member.ReadAs`: what is read of a member.
- `Json.IsObject.exists_readAs`: an object is read member by member.
-/

namespace Agenda.Json

/-- The text is read as the value where a value may stand and a separator comes next. -/
structure Reads (text : List Char) (value : Value) : Prop where
  /-- The text has tokens, and they form the value. -/
  exists_tokens : ∃ tokens, ScansBefore text tokens ∧ Forms tokens value
  /-- Of a quoted text the units are read. -/
  quoted {inner : List Char} (h : text = inQuotes inner) :
    ∃ units, Written inner units ∧ value = .text units
  /-- Nothing else has characters. -/
  other (h : ∀ inner, text ≠ inQuotes inner) : value.chars? = none

theorem inQuotes_injective : Function.Injective inQuotes := by
  intro text text' h
  simpa [inQuotes] using h

/-! ## Members -/

/-- What is read of a member: the units of its key, and its value. -/
structure Member.ReadAs (member : Member) (read : List CodeUnit × Value) : Prop where
  /-- The key is read as the characters that it denotes. -/
  key {name : List Char} (h : Denotes member.key name) : CodeUnit.decode read.1 = some name
  /-- A quoted text is read as the characters that it denotes. -/
  text {inner chars : List Char} (hvalue : member.value = inQuotes inner)
    (h : Denotes inner chars) : read.2.chars? = some chars
  /-- No other value has characters. -/
  other (h : ∀ inner, member.value ≠ inQuotes inner) : read.2.chars? = none

/-- The tokens of a member are those of its key and its value. -/
private theorem Member.scansBefore (member : Member) {units : List CodeUnit}
    (hkey : Written member.key units) {valueTokens : List Token}
    (hvalue : ScansBefore member.value valueTokens) :
    ScansBefore member.text (.text units :: .colon :: valueTokens) := by
  intro c rest restTokens hc hrest
  have hcolon : Scans [':'] [.colon] := scans_mark rfl
  have hbehind := hcolon.append (hvalue.around member.valueSpaces hc hrest)
  have hall := hkey.scans.scansBefore.around member.keySpaces (separates_mark rfl) hbehind
  simpa [Member.text] using hall

/-- A member is read if its value is. -/
theorem Member.exists_readAs (member : Member) {value : Value} (h : Reads member.value value) :
    ∃ tokens read, ScansBefore member.text tokens ∧ FormsMember tokens read ∧
      member.ReadAs read := by
  obtain ⟨units, hkey⟩ := member.isQuotable_key
  obtain ⟨valueTokens, hscan, hforms⟩ := h.exists_tokens
  refine ⟨_, (units, value), member.scansBefore hkey hscan, ⟨valueTokens, rfl, hforms⟩, ?_⟩
  refine ⟨hkey.decode_eq, fun hvalue hdenotes => ?_, h.other⟩
  obtain ⟨valueUnits, hwritten, rfl⟩ := h.quoted hvalue
  exact hwritten.decode_eq hdenotes

/-- Members between braces are an object that is read member by member. -/
private theorem Encloses.exists_readAs {members : List Member} {text : List Char}
    (htext : Encloses '{' '}' (members.map Member.text) text)
    (h : ∀ member ∈ members, ∃ value, Reads member.value value) :
    ∃ tokens, ∃ read : Member → List CodeUnit × Value, Scans text tokens ∧
      Forms tokens (.object (members.map read)) ∧
        ∀ member ∈ members, member.ReadAs (read member) := by
  have hmembers : ∀ member ∈ members, ∃ tokens read, ScansBefore member.text tokens ∧
      FormsMember tokens read ∧ member.ReadAs read := by
    intro member hmember
    obtain ⟨value, hreads⟩ := h member hmember
    exact member.exists_readAs hreads
  obtain ⟨tokens, read, hscans, hforms, hreadAs⟩ := exists_scans_pieces hmembers
  exact ⟨_, read, htext.scans rfl rfl hscans, forms_object hforms, hreadAs⟩

/-! ## Values -/

private theorem IsScalar.ne_inQuotes {text : List Char} (h : IsScalar text) (inner : List Char) :
    text ≠ inQuotes inner := by
  cases h with
  | number hsign hinteger _ _ =>
    obtain ⟨c, rest, -, rfl, hc, -⟩ := hinteger.exists_part
    have hquote : c ≠ '"' := ne_of_isDigit hc rfl
    rcases hsign with rfl | rfl <;> simp [inQuotes, hquote]
  | true => simp [inQuotes]
  | false => simp [inQuotes]
  | null => simp [inQuotes]

private theorem Encloses.ne_inQuotes {left right : Char} {pieces : List (List Char)}
    {text : List Char} (h : Encloses left right pieces text) (hleft : left ≠ '"')
    (inner : List Char) : text ≠ inQuotes inner := by
  cases h <;> simp [inQuotes, hleft]

/-- A text without quotes is read as soon as its tokens form a value without characters. -/
private theorem reads_of_ne {text : List Char} {tokens : List Token} {value : Value}
    (hscan : ScansBefore text tokens) (hforms : Forms tokens value)
    (htext : ∀ inner, text ≠ inQuotes inner) (hvalue : value.chars? = none) : Reads text value :=
  ⟨⟨tokens, hscan, hforms⟩, fun h => absurd h (htext _), fun _ => hvalue⟩

/-- Every value of the grammar is read. -/
theorem IsValue.exists_reads {text : List Char} (h : IsValue text) :
    ∃ value, Reads text value := by
  -- Along the grammar: what is within a value is read by itself, and the value is put together.
  induction h with
  | scalar h =>
    exact ⟨.scalar, reads_of_ne h.scansBefore forms_scalar h.ne_inQuotes rfl⟩
  | text h =>
    obtain ⟨units, hwritten⟩ := h
    refine ⟨.text units, ⟨_, hwritten.scans.scansBefore, forms_text units⟩, fun htext => ?_,
      fun htext => absurd rfl (htext _)⟩
    cases inQuotes_injective htext
    exact ⟨units, hwritten, rfl⟩
  | @array elements text htext _ ih =>
    have helements : ∀ element ∈ elements, ∃ tokens value, ScansBefore element.text tokens ∧
        Forms tokens value ∧ Reads element.value value := by
      intro element helement
      obtain ⟨value, hreads⟩ := ih element helement
      obtain ⟨tokens, hscan, hforms⟩ := hreads.exists_tokens
      exact ⟨tokens, value, hscan.around element.spaces, hforms, hreads⟩
    obtain ⟨tokens, values, hscans, hforms, -⟩ := exists_scans_pieces helements
    exact ⟨.array (elements.map values), reads_of_ne (htext.scans rfl rfl hscans).scansBefore
      (forms_array hforms) (htext.ne_inQuotes (by decide)) rfl⟩
  | @object members text htext _ ih =>
    obtain ⟨tokens, read, hscan, hforms, -⟩ := htext.exists_readAs ih
    exact ⟨.object (members.map read), reads_of_ne hscan.scansBefore hforms
      (htext.ne_inQuotes (by decide)) rfl⟩

/-- An object is read member by member. -/
theorem IsObject.exists_readAs {members : List Member} {text : List Char}
    (h : IsObject members text) :
    ∃ read : Member → List CodeUnit × Value,
      Value.ofChars? text = some (.object (members.map read)) ∧
        ∀ member ∈ members, member.ReadAs (read member) := by
  obtain ⟨⟨spaces, object, rfl, hobject⟩, hvalues⟩ := h
  obtain ⟨tokens, read, hscan, hforms, hreadAs⟩ :=
    hobject.exists_readAs fun member hmember => (hvalues member hmember).exists_reads
  have hall := (spaces.isSpace_before.scans.append hscan).append spaces.isSpace_behind.scans
  rw [List.append_nil] at hall
  exact ⟨read, ofChars?_of_scans hall hforms, hreadAs⟩

end Agenda.Json
