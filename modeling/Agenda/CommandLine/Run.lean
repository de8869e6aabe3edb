import Agenda.CommandLine.Command
import Agenda.Settings.Basic
import Agenda.Task.Json
import Agenda.Task.Schedule

/-!
# Running a command

A command may fail, and what it writes it writes piece by piece. A failure takes back nothing that
is written by then; but every command knows all that it writes before it begins to, and so it either
fails and writes nothing or writes one line.
-/

namespace Agenda

/-- Why a command fails. -/
inductive CommandError where
  /-- The settings are of no use. -/
  | settings (cause : SettingsError)
  /-- The rule to check is none. -/
  | rule (cause : RuleError)
  /-- A task cannot be scheduled. -/
  | task (cause : TaskError)
  /-- The input holds no task. -/
  | malformedTask
  /-- The input is no text. -/
  | malformedInput
deriving DecidableEq

namespace CommandError

/-- The wording of the reason. -/
def message : CommandError → String
  | settings cause => cause.message
  | rule cause => cause.message
  | task cause => cause.message
  | malformedTask => "Invalid task JSON"
  | malformedInput => "The input is not valid UTF-8"

/-- The reasons behind the reason, outermost first. -/
def causes : CommandError → List String
  | rule cause => cause.causes
  | task cause => cause.causes
  | settings _ | malformedTask | malformedInput => []

end CommandError

/-- What a command does: it goes on or fails, and what it has written by then stands either way. -/
abbrev Action := EStateM CommandError String

/-- Write a text behind what is written already. -/
def Action.write (text : String) : Action Unit :=
  modify (· ++ text)

/-- Go on with the result of a computation, or fail for its reason. -/
def Action.attempt {ε α : Type} (reason : ε → CommandError) (result : Except ε α) : Action α :=
  MonadExcept.ofExcept (result.mapError reason)

namespace Command

/-- The task that the input holds. -/
def readTask (input : ByteArray) : Except CommandError Task :=
  match String.fromUTF8? input with
  | none => .error .malformedInput
  | some text =>
    match Task.ofJson? text with
    | none => .error .malformedTask
    | some task => .ok task

/-- What is written of a task that is done; an empty object stands for a task that is removed. -/
def completionText : Completion → String
  | .removed => String.ofList ['{', '}']
  | .rescheduled task => task.toJson

/-- Carry out a command with a given horizon. -/
def perform (command : Command) (horizon : Horizon) (today : Date) (input : ByteArray) :
    Action Unit :=
  match command with
  | nextDate date now rule => do
    let next ← Action.attempt .task (Task.nextDate horizon now date rule today)
    Action.write ((next.map Date.text).getD "" ++ "\n")
  | checkRule rule => do
    let rule ← Action.attempt .rule (Rule.read rule)
    Action.write (rule.text ++ "\n")
  | prepareTask => do
    let task ← Action.attempt id (readTask input)
    let prepared ← Action.attempt .task (task.prepare horizon today)
    Action.write prepared.toJson
    Action.write "\n"
  | completeTask => do
    let task ← Action.attempt id (readTask input)
    let completion ← Action.attempt .task (task.complete horizon today)
    Action.write (completionText completion)
    Action.write "\n"

/-- Carry out a command with a horizon of the given number of years. -/
def execute (command : Command) (years : UInt16) (today : Date) (input : ByteArray) :
    Action Unit := do
  let horizon ← Action.attempt .settings (Horizon.ofYears years)
  command.perform horizon today input

/-- Carry out a command with nothing written before, and give what it writes. -/
def run (command : Command) (years : UInt16) (today : Date) (input : ByteArray) :
    Except CommandError String :=
  match command.execute years today input "" with
  | .ok () output => .ok output
  | .error cause _ => .error cause

end Command

end Agenda
