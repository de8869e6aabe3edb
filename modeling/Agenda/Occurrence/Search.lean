import Agenda.Date.DayNumber
import Agenda.Date.Text
import Agenda.Occurrence.Horizon
import Agenda.Rule.Text

/-!
# The next occurrence

The first day after a reference day on which a rule, counted from an anchor day, falls.

- Daily and yearly rules are computed from the distance between anchor and reference.
- Weekly and monthly rules are searched from the first candidate on: the day after the reference
  or the anchor, whichever is later. A weekly search looks at seven days, a monthly one at the
  months of the horizon.

A search ends without a day either because the calendar ends (`SearchError.pastLastDate`) or
because the horizon does (`SearchError.exhausted`). The arithmetic is that of machine words;
the bounds of the calendar keep every sum and product below within their width.
-/

namespace Agenda

/-- Why there is no next occurrence to name. -/
inductive SearchError where
  /-- The text of the anchor is no date. -/
  | malformedAnchor (cause : Date.TextError)
  /-- The text of the reference is no date. -/
  | malformedReference (cause : Date.TextError)
  /-- No day from `start` on within the horizon of `years` years fits the rule. -/
  | exhausted (rule : Rule) (start : Date) (years : UInt16)
  /-- The next occurrence lies after the last date. -/
  | pastLastDate
deriving DecidableEq

namespace SearchError

/-- The wording of the reason. -/
def message : SearchError → String
  | malformedAnchor cause => s!"malformed anchor date `{cause.text}`: {cause.message}"
  | malformedReference cause => s!"malformed reference date `{cause.text}`: {cause.message}"
  | exhausted rule start years =>
    s!"no occurrence of `{rule.text}` within {years.toNat} years from {start.text}"
  | pastLastDate => s!"next occurrence falls after {Date.last.text}"

/-- The reasons behind the reason, outermost first. -/
def causes : SearchError → List String
  | malformedAnchor cause | malformedReference cause => [cause.message]
  | exhausted .. | pastLastDate => []

end SearchError

namespace Search

/-- The date, which has to lie within the calendar. -/
def withinCalendar : Option Date → Except SearchError Date
  | some date => .ok date
  | none => .error .pastLastDate

/-- The first of the days `anchor`, `anchor + interval`, `anchor + 2 * interval`, … after the
reference. An interval of 0 counts as 1. -/
def daily (interval : UInt32) (anchor reference : Date) : Except SearchError Date :=
  if reference < anchor then .ok anchor
  else
    let behind := UInt64.ofInt (reference.daysSince anchor)
    let stride := (max interval 1).toUInt64
    let steps := behind / stride + 1
    withinCalendar (anchor.addDays? (steps * stride).toNat)

/-- The anchor's month and day in the first year that puts it after the reference. No year before
the reference's own can do that, and the one after it always does. -/
def yearly (anchor reference : Date) : Except SearchError Date := do
  let year := Int32.ofInt (max anchor.year reference.year)
  let date ← withinCalendar (anchor.inYear? year.toInt)
  if reference < date then return date
  else withinCalendar (anchor.inYear? (year + 1).toInt)

/-- The earliest day that a weekly or monthly search may name: the day after the reference or the
anchor, whichever is later. -/
def firstCandidate (anchor reference : Date) : Except SearchError Date := do
  let following ← withinCalendar reference.succ?
  return max following anchor

/-- The first day at one of the given distances from `start` whose weekday is listed. -/
def weekly (days : SortedSet UInt32) (start : Date) :
    List Nat → Except SearchError (Option Date)
  | [] => .ok none
  | distance :: rest => do
    let date ← withinCalendar (start.addDays? distance)
    if UInt32.ofNat date.weekday ∈ days then return some date
    else weekly days start rest

/-- The magnitude of a word with a sign. -/
def magnitude (entry : Int32) : UInt32 :=
  if entry < 0 then (-entry).toUInt32 else entry.toUInt32

/-- The day that an entry names in a month whose last day is `last`; an entry that this month does
not have names none. -/
def resolveEntry (last : UInt32) (entry : Int32) : Option UInt32 :=
  let size := magnitude entry
  if size = 0 ∨ last < size then none
  else if 0 < entry then some size
  else some (last + 1 - size)

/-- The earliest day of a month, not before `earliest`, that one of the entries names. -/
def firstEntry (days : SortedSet Int32) (last earliest : UInt32) : Option UInt32 :=
  ((days.toList.filterMap (resolveEntry last)).filter (earliest ≤ ·)).min?

/-- A month of a year. -/
structure Month where
  /-- The year. -/
  year : Int32
  /-- The month within the year. -/
  month : UInt32
deriving DecidableEq

namespace Month

/-- The month of a date. -/
def ofDate (date : Date) : Month :=
  ⟨Int32.ofInt date.year, UInt32.ofNat date.month⟩

/-- The following month. -/
def next (m : Month) : Month :=
  if m.month = 12 then ⟨m.year + 1, 1⟩ else ⟨m.year, m.month + 1⟩

/-- The number of days in the month. -/
def length (m : Month) : UInt32 :=
  UInt32.ofNat (daysInMonth m.year.toInt m.month.toNat)

/-- A day of the month as a date. -/
def date? (m : Month) (day : UInt32) : Option Date :=
  Date.ofYmd? m.year.toInt m.month.toNat day.toNat

end Month

/-- The earliest day not before `start` that fits the entries in the given month, provided that
the month itself is listed; no listed month means every month. -/
def dayInMonth (days : SortedSet Int32) (months : SortedSet UInt32) (start : Date)
    (m : Month) : Option UInt32 :=
  if months.isEmpty ∨ m.month ∈ months then
    firstEntry days m.length (if m = .ofDate start then UInt32.ofNat start.day else 1)
  else none

/-- The first day not before `start` that fits the entries, in the given month or one of the
following, as many in all as the last argument says. -/
def monthly (days : SortedSet Int32) (months : SortedSet UInt32) (start : Date) :
    Month → Nat → Except SearchError (Option Date)
  | _, 0 => .ok none
  | m, left + 1 =>
    match dayInMonth days months start m with
    | some day => .ok (m.date? day)
    | none =>
      if Int32.ofInt maxYear < m.next.year then .error .pastLastDate
      else monthly days months start m.next left

end Search

/-- The next occurrence of a rule after the reference, counted from the anchor. There is none only
for a rule `once` whose anchor is not after the reference. -/
def Rule.next (rule : Rule) (horizon : Horizon) (anchor reference : Date) :
    Except SearchError (Option Date) :=
  match rule with
  | .once => .ok (if reference < anchor then some anchor else none)
  | .daily interval => some <$> Search.daily interval anchor reference
  | .yearly => some <$> Search.yearly anchor reference
  | .weekly days => do
    let start ← Search.firstCandidate anchor reference
    found start (← Search.weekly days start (List.range 7))
  | .monthly days months => do
    let start ← Search.firstCandidate anchor reference
    found start (← Search.monthly days months start (.ofDate start) horizon.months.toNat)
where
  /-- The day that a search from `start` found; if it found none, the horizon was too near. -/
  found (start : Date) : Option Date → Except SearchError (Option Date)
    | some date => .ok (some date)
    | none => .error (.exhausted rule start horizon.years)

end Agenda
