import Agenda.Rule.Basic
import Agenda.Text.Blank
import Agenda.Text.Numeral

/-!
# Reading a rule

The grammar, on words separated by blanks:

- no word: the rule `once`;
- `d` and an interval;
- `y`;
- `w` and a list of weekdays;
- `m`, a list of days of the month and optionally a list of months.

Lists are separated by commas and have no empty element. A text outside the grammar is refused
for its leftmost defect: words are read from left to right, and so are the elements of a list.
-/

namespace Agenda.Rule

/-- The defects of a rule text. -/
inductive Fault where
  /-- The first word names no kind of rule. -/
  | unknownKind
  /-- The interval is missing, no numeral or out of range. -/
  | interval
  /-- There are more words than the kind of rule takes. -/
  | surplus
  /-- The weekdays are missing, or one is no numeral or out of range. -/
  | weekday
  /-- The days of the month are missing, or one is no numeral or out of range. -/
  | monthDay
  /-- A month is no numeral or out of range. -/
  | month
deriving DecidableEq

namespace Fault

/-- What is wrong, in words. -/
def text : Fault → String
  | unknownKind => "unknown rule kind"
  | interval => "invalid interval"
  | surplus => "unexpected argument"
  | weekday => "invalid weekday"
  | monthDay => "invalid day of month"
  | month => "invalid month"

/-- What is said if there is no piece of text to point at. -/
def missingHint : Fault → String
  | interval => "interval required"
  | weekday => "weekday list required"
  | monthDay => "day-of-month list required"
  | unknownKind | surplus | month => "missing value"

end Fault

/-- Why a text is not a rule. -/
structure TextError where
  /-- The defect. -/
  fault : Fault
  /-- The refused piece of the text, if there is one. -/
  token : Option String
deriving DecidableEq

/-- The wording of the reason: the defect and the refused piece. -/
def TextError.message (error : TextError) : String :=
  match error.token with
  | none => s!"{error.fault.text}: {error.fault.missingHint}"
  | some token =>
    if token.isEmpty then s!"{error.fault.text}: empty value"
    else s!"{error.fault.text}: `{token}`"

/-- An interval in its range. -/
def interval? (token : List Char) : Option UInt32 :=
  ((Numeral.nat? token).filter (IsInterval ·)).map UInt32.ofNat

/-- A weekday in its range. -/
def weekday? (token : List Char) : Option UInt32 :=
  ((Numeral.nat? token).filter (IsWeekday ·)).map UInt32.ofNat

/-- A month in its range. -/
def month? (token : List Char) : Option UInt32 :=
  ((Numeral.nat? token).filter (IsMonth ·)).map UInt32.ofNat

/-- A day of the month in its range. -/
def monthDay? (token : List Char) : Option Int32 :=
  ((Numeral.int? token).filter (IsMonthDay ·)).map Int32.ofInt

section Pieces

variable {α : Type} (fault : Fault) (read? : List Char → Option α)

/-- One number; a piece that does not read is refused with its fault. -/
def readElement (token : List Char) : Except TextError α :=
  match read? token with
  | some value => .ok value
  | none => .error ⟨fault, some (String.ofList token)⟩

/-- The numbers of a comma-separated list; the first piece that does not read is refused. -/
def readList (token : List Char) : Except TextError (List α) :=
  (token.splitOn ',').mapM (readElement fault read?)

end Pieces

/-- The first of the words, which has to be there. -/
def argument (fault : Fault) : List (List Char) → Except TextError (List Char × List (List Char))
  | [] => .error ⟨fault, none⟩
  | word :: rest => .ok (word, rest)

/-- The rule, provided that no word is left. -/
def finish (rule : Rule) : List (List Char) → Except TextError Rule
  | [] => .ok rule
  | word :: _ => .error ⟨.surplus, some (String.ofList word)⟩

/-- The rule that a sequence of words names. -/
def ofWords : List (List Char) → Except TextError Rule
  | [] => .ok .once
  | ['d'] :: rest => do
    let (word, rest) ← argument .interval rest
    let interval ← readElement .interval interval? word
    finish (.daily interval) rest
  | ['y'] :: rest => finish .yearly rest
  | ['w'] :: rest => do
    let (word, rest) ← argument .weekday rest
    let days ← readList .weekday weekday? word
    finish (.weekly (.ofList days)) rest
  | ['m'] :: rest => do
    let (word, rest) ← argument .monthDay rest
    let days ← readList .monthDay monthDay? word
    match rest with
    | [] => return .monthly (.ofList days) .empty
    | word :: rest =>
      let months ← readList .month month? word
      finish (.monthly (.ofList days) (.ofList months)) rest
  | word :: _ => .error ⟨.unknownKind, some (String.ofList word)⟩

/-- The rule that a text names. -/
def ofText (text : String) : Except TextError Rule :=
  ofWords (Text.words text.toList)

end Agenda.Rule
