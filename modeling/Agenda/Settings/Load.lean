import Agenda.Settings.Basic
import Agenda.Settings.DotEnv
import Agenda.Settings.Environment
import Agenda.Settings.Value
import Agenda.Toml.Document

/-!
# Loading the settings

Settings come in layers: what holds if nothing is set, the environment with an environment file
behind it, and the settings file on top. What the sources set is gathered first and then laid as a
whole over what holds if nothing is set.
-/

namespace Agenda.Settings

/-- Where settings come from. -/
structure Sources where
  /-- The variables of the environment. -/
  environment : Environment
  /-- The text of the environment file, if there is one. -/
  environmentFile : Option String
  /-- The text of the settings file, if there is one. -/
  settingsFile : Option String

/-- Why settings cannot be loaded. -/
inductive LoadError where
  /-- The settings file is malformed, or a value does not have the type of its setting. -/
  | unreadable
  /-- The settings are refused. -/
  | refused (cause : SettingsError)
deriving DecidableEq

mutual

/-- A value of a settings file as a value that is set. -/
def Value.ofToml : Toml.Value → Value
  | .text t => .text t
  | .int n => .int n
  | .number x => .number x
  | .bool b => .bool b
  | .moment t => .text t
  | .array elements => .array (elementsOfToml elements)
  | .tables earlier last =>
    .array (elementsOfToml earlier ++ [.table (entriesOfToml last)])
  | .table _ entries => .table (entriesOfToml entries)

/-- The elements of an array of a settings file. -/
def elementsOfToml : List Toml.Value → List Value
  | [] => []
  | value :: rest => Value.ofToml value :: elementsOfToml rest

/-- The entries of a table of a settings file. -/
def entriesOfToml : List (String × Toml.Value) → List (String × Value)
  | [] => []
  | (key, value) :: rest => (key, Value.ofToml value) :: entriesOfToml rest

end

/-- The lowest layer: what holds if nothing is set. -/
def standardLayer : List (String × Value) :=
  [("logging.level", .text standard.level),
    ("engine.max_search_years", .int standard.maxSearchYears.toNat)]

/-- The layer of the environment, with an environment file behind it. -/
def environmentLayer (sources : Sources) : List (String × Value) :=
  match sources.environmentFile with
  | none => sources.environment.settings
  | some text => (DotEnv.extend sources.environment text).settings

/-- The layer of the settings file; without a file it is empty. The file may begin with a byte order
mark, and so may the document in it. -/
def fileLayer? (sources : Sources) : Option (List (String × Value)) :=
  match sources.settingsFile with
  | none => some []
  | some text => (Toml.Entries.ofText? (Text.dropMark text.toList)).map entriesOfToml

/-- What the sources set, in one tree. -/
def sourcesTree? (sources : Sources) : Option Value :=
  (fileLayer? sources).map fun fileLayer =>
    ((Value.table []).setAll (environmentLayer sources)).setAll fileLayer

/-- All layers in one tree. -/
def tree? (sources : Sources) : Option Value :=
  (sourcesTree? sources).map fun tree =>
    ((Value.table []).setAll standardLayer).setAll tree.entries

/-- The settings that a tree holds. -/
def ofTree? (tree : Value) : Option Settings := do
  let level ← (← tree.find? "logging").single? "level"
  let years ← (← tree.find? "engine").single? "max_search_years"
  return ⟨← level.toText?, ← years.toUInt16?⟩

/-- Load the settings. -/
def load (sources : Sources) : Except LoadError Settings :=
  match (tree? sources).bind ofTree? with
  | none => .error .unreadable
  | some settings => settings.validate.mapError .refused

end Agenda.Settings
