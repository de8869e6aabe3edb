import Agenda.Occurrence.Text
import Agenda.Task.Basic
import Agenda.Text.Blank

/-!
# Scheduling tasks

- `Task.nextDate`: the next date of a task that is due on a given day.
- `Task.prepare`: a new or edited task with its date put in order for today.
- `Task.complete`: what becomes of a task that is done.
-/

namespace Agenda

/-- A date that is given for a task. -/
inductive GivenDate where
  /-- The day to count as today. -/
  | now
  /-- The day the task is due. -/
  | due
deriving DecidableEq

/-- The name of a given date. -/
def GivenDate.name : GivenDate → String
  | now => "now"
  | due => "date"

/-- Why a task cannot be scheduled. -/
inductive TaskError where
  /-- Its rule cannot be read or has no next date. -/
  | rule (cause : RuleError)
  /-- Its title is blank. -/
  | missingTitle
  /-- It has no date. -/
  | missingDate
  /-- A text given for a date is none. -/
  | malformedDate (given : GivenDate) (cause : Date.TextError)
deriving DecidableEq

namespace TaskError

/-- The wording of the reason. -/
def message : TaskError → String
  | rule cause => cause.message
  | missingTitle => "Task title is required"
  | missingDate => "Invalid date: date is required"
  | malformedDate given cause =>
    s!"Invalid date: {given.name} `{cause.text}`: {cause.message}"

/-- The reasons behind the reason, outermost first. -/
def causes : TaskError → List String
  | rule cause => cause.causes
  | missingTitle | missingDate | malformedDate .. => []

end TaskError

/-- What becomes of a task that is done. -/
inductive Completion where
  /-- It does not come back. -/
  | removed
  /-- It comes back on a later day. -/
  | rescheduled (task : Task)
deriving DecidableEq

namespace Task

/-- Reads a date that is given for a task. -/
def readDate (given : GivenDate) (text : String) : Except TaskError Date :=
  (Date.ofText text).mapError (.malformedDate given)

/-- Reads the day a task is due, which must be given. -/
def readDue (text : String) : Except TaskError Date :=
  if text.isEmpty then .error .missingDate else readDate .due text

/-- Reads the rule of a task. -/
def readRule (text : String) : Except TaskError Rule :=
  (Rule.read text).mapError .rule

/-- The next occurrence of a task's rule. -/
def nextOccurrence (horizon : Horizon) (rule : Rule) (due reference : Date) :
    Except TaskError (Option Date) :=
  (rule.next horizon due reference).mapError (TaskError.rule ∘ .search)

/-- The next date of a task that is due on `date` and comes back by `rule`, counted from `now` or,
if that is not given or empty, from today. -/
def nextDate (horizon : Horizon) (now : Option String) (date rule : String) (today : Date) :
    Except TaskError (Option Date) := do
  let reference ← match now with
    | none => pure today
    | some text => if text.isEmpty then pure today else readDate .now text
  let due ← readDue date
  let rule ← readRule rule
  nextOccurrence horizon rule due reference

/-- The day a new or edited task is due. No date stands for today. -/
def givenDue (task : Task) (today : Date) : Except TaskError Date :=
  if task.date.isEmpty then .ok today else readDate .due task.date

/-- The day to which a task that is due on `due` is brought forward: a past one becomes the next
occurrence after today or, if there is none, today. -/
def broughtForward (horizon : Horizon) (rule : Rule) (due today : Date) : Except TaskError Date :=
  if due < today then (·.getD today) <$> nextOccurrence horizon rule due today else .ok due

/-- A new or edited task with its date put in order. -/
def prepare (horizon : Horizon) (task : Task) (today : Date) : Except TaskError Task := do
  if Text.isBlank task.title.toList then throw .missingTitle
  let due ← task.givenDue today
  let rule ← readRule task.rule
  let due ← broughtForward horizon rule due today
  return { task with date := due.text }

/-- What becomes of a task that is done: it is removed if its rule is `once`, and otherwise comes
back on the next occurrence after today or its own day, whichever is later. -/
def complete (horizon : Horizon) (task : Task) (today : Date) : Except TaskError Completion := do
  let rule ← readRule task.rule
  let due ← readDue task.date
  if rule.isOnce then return .removed
  match ← nextOccurrence horizon rule due (max today due) with
  | none => return .removed
  | some next => return .rescheduled { task with date := next.text }

end Task

end Agenda
