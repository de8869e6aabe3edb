/-!
# Commands

What can be asked for on the command line, and the tree of words that name it.
-/

namespace Agenda

/-- What is asked for on the command line. -/
inductive Command where
  /-- The next date of a task that is due on `date` and comes back by `rule`, after `now`. -/
  | nextDate (date : String) (now : Option String) (rule : String)
  /-- Whether a text is a rule, and its canonical text. -/
  | checkRule (rule : String)
  /-- A task read from the input, put in order. -/
  | prepareTask
  /-- What becomes of a task read from the input once it is done. -/
  | completeTask
deriving DecidableEq

namespace Command

/-- The places in the tree of words that name a command. -/
inductive Scope where
  | root
  | nextDate
  | checkRule
  | task
  | prepareTask
  | completeTask
  /-- The word `help`, after which words only name what the help is about. -/
  | help
deriving DecidableEq

namespace Scope

/-- The words that lead further down. -/
def children : Scope → List (String × Scope)
  | root => [("next-date", nextDate), ("check-rule", checkRule), ("task", task), ("help", help)]
  | task => [("prepare", prepareTask), ("done", completeTask), ("help", help)]
  | nextDate | checkRule | prepareTask | completeTask | help => []

/-- The place that a word leads to. -/
def child? (scope : Scope) (word : String) : Option Scope :=
  (scope.children.find? (·.1 = word)).map (·.2)

end Scope

/-- The parameters that are given by name; the command `next-date` takes them. -/
inductive Parameter where
  | date
  | now
  | rule
deriving DecidableEq

namespace Parameter

/-- All parameters. -/
def all : List Parameter := [date, now, rule]

/-- The name behind two dashes. -/
def longName : Parameter → String
  | date => "date"
  | now => "now"
  | rule => "repeat"

/-- The letter behind one dash. -/
def letter : Parameter → Char
  | date => 'd'
  | now => 'n'
  | rule => 'r'

/-- Whether the value may be a word that begins with a dash. -/
def takesDashes : Parameter → Bool
  | rule => true
  | date | now => false

end Parameter

/-- What an option stands for. -/
inductive OptionMeaning where
  /-- The help is asked for. -/
  | help
  /-- The version is asked for. -/
  | version
  /-- The value of a parameter follows. -/
  | parameter (p : Parameter)
deriving DecidableEq

namespace Scope

/-- The parameters that can be given by name at this place. -/
def parameters : Scope → List Parameter
  | nextDate => Parameter.all
  | root | checkRule | task | prepareTask | completeTask | help => []

/-- What an option with a long name stands for at this place. -/
def longOption? (scope : Scope) (name : String) : Option OptionMeaning :=
  if name = "help" then some .help
  else if name = "version" ∧ scope = root then some .version
  else (scope.parameters.find? (·.longName = name)).map .parameter

/-- What an option with a single letter stands for at this place. -/
def shortOption? (scope : Scope) (letter : Char) : Option OptionMeaning :=
  if letter = 'h' then some .help
  else if letter = 'V' ∧ scope = root then some .version
  else (scope.parameters.find? (·.letter = letter)).map .parameter

end Scope

/-- Why the words of a command line name no command to run. -/
inductive UsageError where
  /-- The help is asked for. -/
  | helpWanted
  /-- The version is asked for. -/
  | versionWanted
  /-- No command is named. -/
  | noCommand
  /-- A word names no command where one is expected. -/
  | unknownCommand
  /-- An option is unknown, or there is a word too many. -/
  | unknownArgument
  /-- Something required is not given. -/
  | missingArgument
  /-- A parameter's name is not followed by a value. -/
  | missingValue
  /-- A value is attached to an option that takes none. -/
  | surplusValue
  /-- A parameter is given twice. -/
  | repeatedParameter
deriving DecidableEq

end Command

end Agenda
