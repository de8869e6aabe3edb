import Agenda.Json.Quoted
import Agenda.Json.Token
import Agenda.Proofs.Json.Grammar

/-!
# Reading what stands between quotes

Between quotes, the machine that cuts a text into tokens reads one unit after the other, each in the
way in which it is written. So what is written between quotes has one meaning only, and a text that
was quoted means itself.

- `Json.Written.foldlM_step`: the units of a text, with `Json.Written.unique`.
- `Json.Decodes.decode`: the characters of units, with `Json.Denotes.unique`.
- `Json.denotes_flatMap_escape`: a text that was escaped denotes the text.
-/

namespace Agenda.Json

open Token (Scan)

/-! ## Units and characters -/

/-- A hexadecimal digit is read as its value. -/
theorem HexDigit.hexValue? {c : Char} {value : Nat} (h : HexDigit c value) :
    Token.hexValue? c = some value := by
  have hlower : ∀ n : Fin 16, Token.hexValue? ("0123456789abcdef".toList[n]) = some n.val := by
    decide
  have hupper : ∀ n : Fin 16, Token.hexValue? ("0123456789ABCDEF".toList[n]) = some n.val := by
    decide
  rcases h with h | h
  · obtain ⟨hlt, rfl⟩ := List.getElem?_eq_some_iff.1 h
    exact hlower ⟨value, hlt⟩
  · obtain ⟨hlt, rfl⟩ := List.getElem?_eq_some_iff.1 h
    exact hupper ⟨value, hlt⟩

/-- The machine reads a unit in the way in which it is written. -/
theorem WrittenUnit.foldlM_step {piece : List Char} {unit : CodeUnit} (h : WrittenUnit piece unit)
    (before : List CodeUnit) (tokens : List Token) :
    piece.foldlM Scan.step ⟨.quoted before, tokens⟩ = some ⟨.quoted (unit :: before), tokens⟩ := by
  cases h with
  | plain h =>
    obtain ⟨hquote, hbackslash, hcontrol⟩ := h
    simp [Scan.step, hquote, hbackslash, hcontrol]
  | short h =>
    simp only [shortEscapes, List.mem_cons, Prod.mk.injEq, List.not_mem_nil, or_false] at h
    rcases h with ⟨rfl, rfl⟩ | ⟨rfl, rfl⟩ | ⟨rfl, rfl⟩ | ⟨rfl, rfl⟩ | ⟨rfl, rfl⟩ | ⟨rfl, rfl⟩ |
      ⟨rfl, rfl⟩ | ⟨rfl, rfl⟩ <;> rfl
  | hex ha hb hc hd =>
    simp [Scan.step, ha.hexValue?, hb.hexValue?, hc.hexValue?, hd.hexValue?]

theorem Written.foldlM_step {text : List Char} {units : List CodeUnit} (h : Written text units)
    (before : List CodeUnit) (tokens : List Token) :
    text.foldlM Scan.step ⟨.quoted before, tokens⟩ =
      some ⟨.quoted (units.reverse ++ before), tokens⟩ := by
  induction h generalizing before with
  | nil => rfl
  | cons hpiece _ ih => simp [List.foldlM_append, hpiece.foldlM_step, ih]

/-- A text is written as one sequence of units only. -/
theorem Written.unique {text : List Char} {units units' : List CodeUnit} (h : Written text units)
    (h' : Written text units') : units = units' := by
  have hread := h.foldlM_step [] []
  rw [h'.foldlM_step [] []] at hread
  simpa using hread.symm

/-- The characters that units stand for are found behind any others. -/
private theorem Decodes.decodeOnto {units : List CodeUnit} {chars : List Char}
    (h : Decodes units chars) (soFar : List Char) :
    CodeUnit.decodeOnto soFar units = some (soFar.reverse ++ chars) := by
  induction h generalizing soFar with
  | nil => simp [CodeUnit.decodeOnto]
  | char _ ih => simp [CodeUnit.decodeOnto, ih]
  | @unit value units chars hvalue _ ih =>
    -- The number of a character is neither half of a pair, so it is taken by itself.
    have hhigh : isHighSurrogate value = false := by simp [isHighSurrogate]; omega
    have hlow : isLowSurrogate value = false := by simp [isLowSurrogate]; omega
    rw [CodeUnit.decodeOnto.eq_def]
    simp [hhigh, hlow, ih]
  | @pair high low units chars hhigh hlow _ ih =>
    have hfirst : isHighSurrogate (0xD800 + high) = true := by simp [isHighSurrogate]; omega
    have hsecond : isLowSurrogate (0xDC00 + low) = true := by simp [isLowSurrogate]; omega
    rw [CodeUnit.decodeOnto.eq_def]
    simp [hfirst, hsecond, ih, pairChar]

theorem Decodes.decode {units : List CodeUnit} {chars : List Char} (h : Decodes units chars) :
    CodeUnit.decode units = some chars :=
  h.decodeOnto []

/-- The units of a text decode to the characters that it denotes. -/
theorem Written.decode_eq {text chars : List Char} {units : List CodeUnit}
    (h : Written text units) (hdenotes : Denotes text chars) :
    CodeUnit.decode units = some chars := by
  obtain ⟨units', hwritten, hdecodes⟩ := hdenotes
  rw [h.unique hwritten]
  exact hdecodes.decode

/-- A text denotes one sequence of characters only. -/
theorem Denotes.unique {text chars chars' : List Char} (h : Denotes text chars)
    (h' : Denotes text chars') : chars = chars' := by
  obtain ⟨units, hwritten, hdecodes⟩ := h
  have hread := hwritten.decode_eq h'
  rw [hdecodes.decode] at hread
  exact Option.some.inj hread

/-! ## Writing -/

theorem Written.append {text text' : List Char} {units units' : List CodeUnit}
    (h : Written text units) (h' : Written text' units') :
    Written (text ++ text') (units ++ units') := by
  induction h with
  | nil => exact h'
  | cons hpiece _ ih =>
    rw [List.append_assoc]
    exact .cons hpiece ih

theorem Decodes.append {units units' : List CodeUnit} {chars chars' : List Char}
    (h : Decodes units chars) (h' : Decodes units' chars') :
    Decodes (units ++ units') (chars ++ chars') := by
  induction h with
  | nil => exact h'
  | char _ ih => exact ih.char
  | unit hvalue _ ih => exact ih.unit hvalue
  | pair hhigh hlow _ ih => exact ih.pair hhigh hlow

theorem Denotes.nil : Denotes [] [] :=
  ⟨[], .nil, .nil⟩

/-- What is written one after the other denotes the characters one after the other. -/
theorem Denotes.append {text text' chars chars' : List Char} (h : Denotes text chars)
    (h' : Denotes text' chars') : Denotes (text ++ text') (chars ++ chars') := by
  obtain ⟨units, hwritten, hdecodes⟩ := h
  obtain ⟨units', hwritten', hdecodes'⟩ := h'
  exact ⟨units ++ units', hwritten.append hwritten', hdecodes.append hdecodes'⟩

/-- One unit denotes what it decodes to. -/
theorem WrittenUnit.denotes {piece chars : List Char} {unit : CodeUnit}
    (h : WrittenUnit piece unit) (hdecodes : Decodes [unit] chars) : Denotes piece chars := by
  have hwritten : Written (piece ++ []) [unit] := .cons h .nil
  rw [List.append_nil] at hwritten
  exact ⟨[unit], hwritten, hdecodes⟩

/-- Characters that stand for themselves denote themselves. -/
theorem ArePlain.denotes {text : List Char} (h : ArePlain text) : Denotes text text := by
  induction text with
  | nil => exact .nil
  | cons c text ih =>
    have hfirst : Denotes [c] [c] :=
      WrittenUnit.denotes (.plain (h c List.mem_cons_self)) (.char .nil)
    exact hfirst.append (ih fun d hd => h d (List.mem_cons_of_mem c hd))

/-- A number below 16 is written as its hexadecimal digit. -/
private theorem hexDigit_hexDigit {n : Nat} (h : n < 16) : HexDigit (hexDigit n) n := by
  have hdigits : ∀ n : Fin 16, "0123456789abcdef".toList[n.val]? = some (hexDigit n.val) := by
    decide
  exact Or.inl (hdigits ⟨n, h⟩)

/-- A control character is written by its number. -/
private theorem denotes_control {c : Char} (h : c.toNat < 0x20) :
    Denotes ['\\', 'u', '0', '0', hexDigit (c.toNat / 16), hexDigit (c.toNat % 16)] [c] := by
  have hzero : HexDigit '0' 0 := Or.inl rfl
  have hunit := WrittenUnit.hex hzero hzero (hexDigit_hexDigit (n := c.toNat / 16) (by omega))
    (hexDigit_hexDigit (n := c.toNat % 16) (by omega))
  have hvalue : ((0 * 16 + 0) * 16 + c.toNat / 16) * 16 + c.toNat % 16 = c.toNat := by omega
  rw [hvalue] at hunit
  have hdecodes : Decodes [.unit c.toNat] [Char.ofNat c.toNat] := .unit (by omega) .nil
  rw [Char.ofNat_toNat] at hdecodes
  exact hunit.denotes hdecodes

/-- The escape of a character is a way to write it. -/
private theorem denotes_escape (c : Char) : Denotes (escape c) [c] := by
  unfold escape
  split
  case h_8 _ hquote hbackslash _ _ _ _ _ =>
    split
    next hcontrol => exact denotes_control hcontrol
    next hcontrol =>
      have hplain : IsPlain c := ⟨hquote, hbackslash, Nat.not_lt.1 hcontrol⟩
      exact WrittenUnit.denotes (.plain hplain) (.char .nil)
  -- The other characters have a short escape.
  all_goals exact WrittenUnit.denotes (.short (by decide)) (.char .nil)

/-- Text is written character by character. -/
theorem denotes_flatMap_escape (text : List Char) : Denotes (text.flatMap escape) text := by
  induction text with
  | nil => exact .nil
  | cons c text ih => exact (denotes_escape c).append ih

end Agenda.Json
