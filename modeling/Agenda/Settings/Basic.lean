import Agenda.Occurrence.Horizon
import Agenda.Text.Blank

/-!
# Settings

What can be set: how much is logged and how far a search looks ahead. A horizon of no years and a
blank level are refused, the horizon first.
-/

namespace Agenda

/-- What can be set. -/
structure Settings where
  /-- How much is logged. -/
  level : String
  /-- How many years a search looks ahead. -/
  maxSearchYears : UInt16
deriving DecidableEq

/-- Why settings are refused although their values have the right types. -/
inductive SettingsError where
  /-- The horizon is zero. -/
  | zeroHorizon
  /-- The level is blank. -/
  | blankLevel
deriving DecidableEq

/-- The wording of the reason. -/
def SettingsError.message : SettingsError → String
  | zeroHorizon => "Configuration error: engine.max_search_years must be at least 1"
  | blankLevel => "Configuration error: logging.level must not be empty"

/-- The horizon of a number of years, which must not be zero. -/
def Horizon.ofYears (years : UInt16) : Except SettingsError Horizon :=
  if years = 0 then .error .zeroHorizon else .ok ⟨years⟩

namespace Settings

/-- What holds if nothing is set. -/
def standard : Settings := ⟨"info", Horizon.standard.years⟩

/-- The settings, if they are of use. -/
def validate (settings : Settings) : Except SettingsError Settings := do
  let _ ← Horizon.ofYears settings.maxSearchYears
  if Text.isBlank settings.level.toList then throw .blankLevel
  return settings

end Settings

end Agenda
