import Palimpsest.Config
import Palimpsest.Fragment.Error
import Palimpsest.Model.Shape

/-
  This file defines the faults that stop the building of
  fragments.

  Key definitions include:
    * `Palimpsest.BuildError`
    * `Palimpsest.BuildError.message`
-/

namespace Palimpsest

------------------------------------------------------------
-- Faults
------------------------------------------------------------

/- The faults that stop the building of fragments. -/
inductive BuildError where
| noHandler (cause : NotNavigable)
| fragment (cause : FragmentError)
| config (cause : ConfigError)
| name (cause : NameError)
| builder (title cause : String)
deriving DecidableEq

/- The message for a fault. -/
def BuildError.message : BuildError → String
| .noHandler cause => cause.message
| .fragment cause => "fragment error: " ++ cause.message
| .config cause => "configuration error: " ++ cause.message
| .name cause => "path error: " ++ cause.message
| .builder title cause =>
    "builder `" ++ title ++ "` failed: " ++ cause

end Palimpsest
