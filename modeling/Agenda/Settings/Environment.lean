import Agenda.Decimal.Text
import Agenda.Settings.Value

/-!
# Settings from the environment

A variable sets something if its name begins with the program's own word in any case. The rest of
the name is the name of the setting, with two underscores for each point. Variables without a
value set nothing.
-/

namespace Agenda.Settings

/-- The variables of an environment with their values. -/
abbrev Environment := List (String × String)

/-- What the names of the program's variables begin with. -/
def variableStart : List Char :=
  "tickler_".toList

/-- A character in lower case. Beyond ASCII only the sign for the kelvin has a lower case among the
characters of setting names. -/
def lowerChar (c : Char) : Char :=
  if c = '\u212a' then 'k' else c.toLower

/-- A text with a point for each pair of underscores, which are paired from the left. -/
def underscoresToPoints : List Char → List Char
  | '_' :: '_' :: rest => '.' :: underscoresToPoints rest
  | c :: rest => c :: underscoresToPoints rest
  | [] => []

/-- The name of the setting that a variable sets. -/
def settingName? (variableName : String) : Option String :=
  let name := variableName.toList.map lowerChar
  if variableStart.isPrefixOf name then
    some (String.ofList (underscoresToPoints (name.drop variableStart.length)))
  else none

/-- A whole number of 64 bits with a sign. -/
def int64? (text : List Char) : Option Int :=
  (Numeral.int? text).filter (Numeral.IsInt64 ·)

/-- The value of a variable, whose type is read off its text: a truth value, a whole number, a
number, or else a text. -/
def typedValue (text : String) : Value :=
  match text.toLower with
  | "true" => .bool true
  | "false" => .bool false
  | _ =>
    match int64? text.toList, Binary64.ofChars? text.toList with
    | some n, _ => .int n
    | none, some x => .number x
    | none, none => .text text

namespace Environment

/-- The value of a variable. -/
def find? (environment : Environment) (name : String) : Option String :=
  environment.lookup name

/-- What a variable sets. -/
def setting? (variableName value : String) : Option (String × Value) :=
  if value.isEmpty then none
  else (settingName? variableName).map fun name => (name, typedValue value)

/-- What an environment sets. -/
def settings (environment : Environment) : List (String × Value) :=
  environment.filterMap fun (name, value) => setting? name value

end Environment

end Agenda.Settings
