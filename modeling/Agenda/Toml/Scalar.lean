import Agenda.Date.Basic
import Agenda.Decimal.Text
import Agenda.Toml.Value

/-!
# Numbers, dates and times in TOML

The values that are written without quotes and brackets. Digits may be grouped by single
underscores; a whole number has no leading zeros, fits 64 bits with a sign, and may be written to
base 16, 8 or 2. A number with a point or an exponent must not be too large for its format.
-/

namespace Agenda.Toml

/-! ## Numbers -/

/-- The value of a digit to a base of at most 16. -/
def digitValue? (base : Nat) (c : Char) : Option Nat :=
  let value :=
    if c.isDigit then c.toNat - '0'.toNat
    else if 'a' ≤ c ∧ c ≤ 'f' then c.toNat - 'a'.toNat + 10
    else if 'A' ≤ c ∧ c ≤ 'F' then c.toNat - 'A'.toNat + 10
    else base
  if value < base then some value else none

/-- Digits in groups: none is empty, so no underscore stands at an end or beside another. -/
def groupedDigits? (base : Nat) (text : List Char) : Option (List Nat) := do
  let groups := text.splitOn '_'
  if groups.any (·.isEmpty) then none else groups.flatten.mapM (digitValue? base)

/-- The number that digits to a base stand for. -/
def ofDigits (base : Nat) (digits : List Nat) : Nat :=
  digits.foldl (base * · + ·) 0

/-- Digits of a number without leading zeros. -/
def plainDigits? (text : List Char) : Option (List Nat) := do
  let digits ← groupedDigits? 10 text
  if digits.head? = some 0 ∧ 1 < digits.length then none else some digits

/-- A whole number that fits 64 bits with a sign. -/
def int? (n : Int) : Option Value :=
  if Numeral.IsInt64 n then some (.int n) else none

/-- The fraction and the exponent of a number, read behind its whole part. -/
def fractionAndExponent? (text : List Char) : Option (List Nat × Int) := do
  let (fraction, rest) := text.span fun c => c ≠ 'e' ∧ c ≠ 'E'
  let fraction ← match fraction with
    | [] => some []
    | '.' :: digits => groupedDigits? 10 digits
    | _ => none
  let exponent ← match rest with
    | [] => some 0
    | _ :: '-' :: digits => (groupedDigits? 10 digits).map fun ds => -(ofDigits 10 ds : Int)
    | _ :: '+' :: digits => (groupedDigits? 10 digits).map fun ds => (ofDigits 10 ds : Int)
    | _ :: digits => (groupedDigits? 10 digits).map fun ds => (ofDigits 10 ds : Int)
  return (fraction, exponent)

/-- A number that is too large for its format is refused. -/
def number? (decimal : Decimal) : Option Value :=
  match Binary64.ofDecimal decimal with
  | .infinite _ => none
  | x => some (.number x)

/-- A number behind its sign. -/
def signedNumber? (negative : Bool) (text : List Char) : Option Value :=
  match String.ofList text with
  | "inf" => some (.number (.infinite negative))
  | "nan" => some (.number .nan)
  | _ => do
    let (whole, rest) := text.span fun c => c ≠ '.' ∧ c ≠ 'e' ∧ c ≠ 'E'
    let digits ← plainDigits? whole
    if rest.isEmpty then
      let n : Int := ofDigits 10 digits
      int? (if negative then -n else n)
    else
      let (fraction, exponent) ← fractionAndExponent? rest
      number? ⟨negative, ofDigits 10 (digits ++ fraction), exponent - fraction.length⟩

/-- A number. -/
def numberOf? : List Char → Option Value
  | '+' :: rest => signedNumber? false rest
  | '-' :: rest => signedNumber? true rest
  | '0' :: 'x' :: rest => (groupedDigits? 16 rest).bind (int? ∘ Int.ofNat ∘ ofDigits 16)
  | '0' :: 'o' :: rest => (groupedDigits? 8 rest).bind (int? ∘ Int.ofNat ∘ ofDigits 8)
  | '0' :: 'b' :: rest => (groupedDigits? 2 rest).bind (int? ∘ Int.ofNat ∘ ofDigits 2)
  | text => signedNumber? false text

/-! ## Dates and times -/

/-- A number written with exactly as many digits as there are characters. -/
def field? (text : List Char) : Option Nat :=
  Numeral.digits? text

/-- Two digits that stand for a number of at most `bound`. -/
def twoDigits? (bound : Nat) (tens ones : Char) : Option Nat :=
  (field? [tens, ones]).filter (· ≤ bound)

/-- A day, in its written form. -/
def day? : List Char → Option (List Char)
  | [y₁, y₂, y₃, y₄, '-', m₁, m₂, '-', d₁, d₂] => do
    let year ← field? [y₁, y₂, y₃, y₄]
    let month ← field? [m₁, m₂]
    let day ← field? [d₁, d₂]
    if 1 ≤ day ∧ day ≤ daysInMonth year month then
      some [y₁, y₂, y₃, y₄, '-', m₁, m₂, '-', d₁, d₂]
    else none
  | _ => none

/-- A fraction of a second in its shortest form, of which nine places count; a digit stays even if
all are zero. -/
def fractionOfSecond (digits : List Char) : List Char :=
  let kept := ((digits.take 9).reverse.dropWhile (· == '0')).reverse
  if kept.isEmpty then ['0'] else kept

/-- The seconds of a time of day with the colon in front, in their written form; there may be
none. -/
def seconds? : List Char → Option (List Char)
  | [] => some []
  | ':' :: s₁ :: s₂ :: rest => do
    let _ ← twoDigits? 60 s₁ s₂
    let fraction ← match rest with
      | [] => some []
      | '.' :: digits => (field? digits).map fun _ => '.' :: fractionOfSecond digits
      | _ => none
    return [':', s₁, s₂] ++ fraction
  | _ => none

/-- A time of day, in its written form. -/
def timeOfDay? : List Char → Option (List Char)
  | h₁ :: h₂ :: ':' :: m₁ :: m₂ :: rest => do
    let _ ← twoDigits? 23 h₁ h₂
    let _ ← twoDigits? 59 m₁ m₂
    return [h₁, h₂, ':', m₁, m₂] ++ (← seconds? rest)
  | _ => none

/-- A time of day with an offset from universal time, in its written form. -/
def timeWithOffset? (text : List Char) : Option (List Char) :=
  let (time, offset) := text.span fun c => c.isDigit ∨ c = ':' ∨ c = '.'
  match offset with
  | ['Z'] | ['z'] => (timeOfDay? time).map (· ++ ['Z'])
  | [sign, h₁, h₂, ':', m₁, m₂] => do
    if sign ≠ '+' ∧ sign ≠ '-' then none
    let hours ← twoDigits? 23 h₁ h₂
    let minutes ← twoDigits? 59 m₁ m₂
    let sign := if hours = 0 ∧ minutes = 0 then '+' else sign
    return (← timeOfDay? time) ++ [sign, h₁, h₂, ':', m₁, m₂]
  | _ => timeOfDay? text

/-- A date, a time of day, or both with a letter or a space between them. -/
def moment? (text : List Char) : Option (List Char) :=
  match day? (text.take 10), text.drop 10 with
  | some day, [] => some day
  | some day, separator :: time =>
    if separator = 'T' ∨ separator = 't' ∨ separator = ' ' then
      (timeWithOffset? time).map fun time => day ++ 'T' :: time
    else none
  | none, _ => timeOfDay? text

/-! ## All scalars -/

/-- A value that is written without quotes and brackets. -/
def scalar? (text : List Char) : Option Value :=
  match String.ofList text with
  | "true" => some (.bool true)
  | "false" => some (.bool false)
  | _ =>
    match moment? text with
    | some moment => some (.moment (String.ofList moment))
    | none => numberOf? text

end Agenda.Toml
