/-!
# The search horizon

How far a search looks ahead. A rule can name days that never come, such as February 30, so a
search month by month ends after a fixed number of months.
-/

namespace Agenda

/-- How far a search for a day of the month looks ahead. -/
structure Horizon where
  /-- The number of years. -/
  years : UInt16
deriving DecidableEq

namespace Horizon

/-- Ten years, unless the settings say otherwise. -/
def standard : Horizon := ⟨10⟩

instance : Inhabited Horizon := ⟨standard⟩

/-- The number of calendar months that a search visits. -/
def months (horizon : Horizon) : UInt32 :=
  horizon.years.toUInt32 * 12

end Horizon

end Agenda
