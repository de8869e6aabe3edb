import Agenda.CommandLine.Arguments
import Agenda.CommandLine.Run
import Agenda.Settings.Load

/-!
# The whole program

One run of the program: the command line is read, the settings are loaded, the command is carried
out. Each of the three can fail, and a failure ends the run.
-/

namespace Agenda.Program

/-- What a run of the program is given. -/
structure Call where
  /-- The words of the command line. -/
  words : List String
  /-- Where the settings come from. -/
  sources : Settings.Sources
  /-- The day the program is run. -/
  today : Date
  /-- The bytes on standard input. -/
  input : ByteArray

/-- Why a run ends without running a command to its end. -/
inductive Failure where
  /-- The command line names no command to run. -/
  | usage (cause : Command.UsageError)
  /-- The settings cannot be loaded. -/
  | settings (cause : Settings.LoadError)
  /-- The command fails. -/
  | command (cause : CommandError)
deriving DecidableEq

/-- How a run ends. -/
structure Ending where
  /-- The exit code. -/
  code : UInt32
  /-- What is written to standard output. -/
  output : String
  /-- Why the command was not run to its end. -/
  failure : Option Failure
deriving DecidableEq

/-- The name and the version of the program. -/
def versionText : String :=
  "tickler 0.1.0\n"

/-- How the program is called. -/
def helpText : String :=
  "Usage: tickler next-date --date <DATE> [--now <NOW>] [--repeat <RULE>]\n" ++
  "       tickler check-rule <RULE>\n" ++
  "       tickler task prepare\n" ++
  "       tickler task done\n"

namespace Failure

/-- What is said of a command line that names no command. -/
def usageMessage : Command.UsageError → String
  | .helpWanted | .versionWanted => ""
  | .noCommand => "a command is required"
  | .unknownCommand => "unrecognized command"
  | .unknownArgument => "unexpected argument"
  | .missingArgument => "a required argument is missing"
  | .missingValue => "a value is required"
  | .surplusValue => "unexpected value"
  | .repeatedParameter => "an argument cannot be used multiple times"

/-- The wording of the failure. -/
def message : Failure → String
  | usage cause => usageMessage cause
  | settings .unreadable => "The settings cannot be read"
  | settings (.refused cause) => cause.message
  | command cause => cause.message

/-- The reasons behind the failure, outermost first. -/
def causes : Failure → List String
  | usage _ | settings _ => []
  | command cause => cause.causes

/-- The last words of a run that failed: what went wrong, and the reason behind it. -/
def report (failure : Failure) : String :=
  let behind := match failure.causes with
    | [] => ""
    | cause :: _ => s!"\nCaused by:\n    {cause}\n"
  s!"Error: {failure.message}\n" ++ behind

end Failure

/-- A run that ends with a failure before anything is written. -/
def Ending.failed (code : UInt32) (failure : Failure) : Ending :=
  ⟨code, "", some failure⟩

/-- How a run ends if its command line names no command. -/
def Ending.ofUsage (cause : Command.UsageError) : Ending :=
  match cause with
  | .helpWanted => ⟨0, helpText, none⟩
  | .versionWanted => ⟨0, versionText, none⟩
  | _ => .failed 2 (.usage cause)

/-- Run the program. -/
def run (call : Call) : Ending :=
  match Command.ofWords call.words with
  | .error cause => .ofUsage cause
  | .ok command =>
    match Settings.load call.sources with
    | .error cause => .failed 1 (.settings cause)
    | .ok settings =>
      match command.execute settings.maxSearchYears call.today call.input "" with
      | .error cause output => ⟨1, output, some (.command cause)⟩
      | .ok () output => ⟨0, output, none⟩

/-- Whether a run with these words reads standard input. -/
def readsInput (words : List String) : Bool :=
  match Command.ofWords words with
  | .ok .prepareTask | .ok .completeTask => true
  | _ => false

end Agenda.Program
