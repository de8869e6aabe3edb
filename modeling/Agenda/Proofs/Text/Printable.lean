import Agenda.Date.Text
import Agenda.Rule.Text
import Agenda.Task.Json

/-!
# Texts without control characters

Whatever a task says, its written form has no line break and no other control character, and neither
has a date or a rule. So each of them can be written as one line.

- `Text.Printable`: no character is a control character.
- `Date.printable_text`, `Rule.printable_text`, `Task.printable_toJson`: what is written is printable.
-/

namespace Agenda

namespace Text

/-- No character of the text is a control character. The line break is one of these. -/
def Printable (text : List Char) : Prop :=
  ∀ c ∈ text, 0x20 ≤ c.toNat

theorem Printable.nil : Printable [] :=
  fun _ h => absurd h List.not_mem_nil

theorem Printable.cons {c : Char} {text : List Char} (hc : 0x20 ≤ c.toNat) (h : Printable text) :
    Printable (c :: text) := by
  intro d hd
  rcases List.mem_cons.1 hd with rfl | hd
  · exact hc
  · exact h d hd

theorem Printable.append {text text' : List Char} (h : Printable text) (h' : Printable text') :
    Printable (text ++ text') := by
  intro c hc
  rcases List.mem_append.1 hc with hc | hc
  · exact h c hc
  · exact h' c hc

/-- Printable texts with commas between them are printable. -/
theorem printable_intercalate_comma {texts : List (List Char)}
    (h : ∀ text ∈ texts, Printable text) : Printable ([','].intercalate texts) := by
  induction texts with
  | nil => exact .nil
  | cons text texts ih =>
    obtain ⟨htext, hrest⟩ := List.forall_mem_cons.1 h
    cases texts with
    | nil => simpa only [List.intercalate_singleton] using htext
    | cons following texts =>
      rw [List.intercalate_cons_cons]
      exact (htext.append (.cons (by decide) .nil)).append (ih hrest)

theorem printable_of_isDigit {text : List Char} (h : ∀ c ∈ text, c.isDigit = true) :
    Printable text := by
  intro c hc
  have hdigit := h c hc
  -- The digits begin at number 48.
  simp only [Char.isDigit, Bool.and_eq_true, decide_eq_true_eq] at hdigit
  exact Nat.le_trans (by decide) (UInt32.le_iff_toNat_le.1 hdigit.1)

end Text

open Text (Printable)

namespace Numeral

theorem printable_ofNat (n : Nat) : Printable (ofNat n) :=
  Text.printable_of_isDigit fun _ => isDigit_of_mem_ofNat

theorem printable_ofInt (n : Int) : Printable (ofInt n) := by
  cases n with
  | ofNat n => exact printable_ofNat n
  | negSucc n => exact .cons (by decide) (printable_ofNat (n + 1))

end Numeral

theorem Date.printable_text (date : Date) : Printable date.text.toList := by
  rw [Date.text, String.toList_ofList]
  have hpadded : ∀ width n, Printable (Numeral.padded width n) := fun _ _ =>
    Text.printable_of_isDigit fun _ => Numeral.isDigit_of_mem_padded
  exact ((hpadded _ _).append (hpadded _ _)).append (hpadded _ _)

namespace Rule

private theorem printable_commaList {α : Type} {write : α → List Char}
    (h : ∀ member, Printable (write member)) (members : List α) :
    Printable (commaList write members) := by
  apply Text.printable_intercalate_comma
  intro text htext
  obtain ⟨member, -, rfl⟩ := List.mem_map.1 htext
  exact h member

theorem printable_text (rule : Rule) : Printable rule.text.toList := by
  rw [Rule.text, String.toList_ofList]
  have hblank : 0x20 ≤ ' '.toNat := by decide
  cases rule with
  | once => exact .nil
  | daily interval => exact .cons (by decide) (.cons hblank (Numeral.printable_ofNat _))
  | yearly => exact .cons (by decide) .nil
  | weekly days =>
    exact .cons (by decide) (.cons hblank (printable_commaList (fun _ => Numeral.printable_ofNat _) _))
  | monthly days months =>
    have hdays := printable_commaList (fun n : Int32 => Numeral.printable_ofInt n.toInt) days.toList
    have hmonths :=
      printable_commaList (fun n : UInt32 => Numeral.printable_ofNat n.toNat) months.toList
    refine Text.Printable.append (.cons (by decide) (.cons hblank hdays)) ?_
    split
    · exact .nil
    · exact .cons hblank hmonths

end Rule

namespace Json

private theorem printable_hexDigit {n : Nat} (h : n < 16) : 0x20 ≤ (hexDigit n).toNat := by
  have hdigits : ∀ n : Fin 16, 0x20 ≤ (hexDigit n).toNat := by decide
  exact hdigits ⟨n, h⟩

/-- No control character is written as it stands. -/
theorem printable_escape (c : Char) : Printable (escape c) := by
  unfold escape
  split
  case h_8 =>
    split
    next hcontrol =>
      exact .cons (by decide) (.cons (by decide) (.cons (by decide) (.cons (by decide)
        (.cons (printable_hexDigit (by omega)) (.cons (printable_hexDigit (by omega)) .nil)))))
    next hcontrol => exact .cons (Nat.not_lt.1 hcontrol) .nil
  -- The other characters have a short escape.
  all_goals exact .cons (by decide) (.cons (by decide) .nil)

theorem printable_quote (text : List Char) : Printable (quote text) := by
  have htext : Printable (text.flatMap escape) := by
    intro c hc
    obtain ⟨d, -, hd⟩ := List.mem_flatMap.1 hc
    exact printable_escape d c hd
  exact Text.Printable.append (.cons (by decide) htext) (.cons (by decide) .nil)

end Json

namespace Task

/-- No field of a task can break the line on which the task is written. -/
theorem printable_jsonChars (task : Task) : Printable task.jsonChars := by
  have hmembers : Printable ([','].intercalate (Field.all.filterMap task.member?)) := by
    apply Text.printable_intercalate_comma
    intro text htext
    obtain ⟨field, -, hmember⟩ := List.mem_filterMap.1 htext
    simp only [member?, Option.ite_none_left_eq_some] at hmember
    obtain ⟨-, hmember⟩ := hmember
    cases hmember
    exact (Json.printable_quote _).append (.cons (by decide) (Json.printable_quote _))
  exact Text.Printable.append (.cons (by decide) hmembers) (.cons (by decide) .nil)

theorem printable_toJson (task : Task) : Printable task.toJson.toList := by
  rw [toJson, String.toList_ofList]
  exact task.printable_jsonChars

end Task

end Agenda
