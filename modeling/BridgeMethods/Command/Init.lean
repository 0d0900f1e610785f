import BridgeMethods.Command.Basic
import BridgeMethods.Settings.Discovery

/-!
# Creating a settings file

A new settings file spells out some of the defaults.  One that exists already is replaced only if
that is asked for.
-/

namespace BridgeMethods

namespace Settings

/-- The text of a new settings file. -/
def initialText : String :=
  "# Methodsort Configuration\n"
  ++ "\n"
  ++ "[classification]\n"
  ++ "# Sorts reported by `methodsort classify` (default: all)\n"
  ++ "# sorts = [\"visibility-bridge\", \"type-variable-bridge\", \"return-type-bridge\"]\n"
  ++ "include_unmatched = false\n"
  ++ "\n"
  ++ "[output]\n"
  ++ "default_format = \"terminal\"\n"
  ++ "\n"
  ++ "[parallel]\n"
  ++ "enabled = true\n"

/-- Creates the settings file of a directory and tells its path. -/
def create {m : Type → Type} [Monad m] [FileAccess m] (directory : Path) (force : Bool) :
    m (Except CommandError Path) := do
  let path := directory.join fileName
  if (← FileAccess.pathExists path) && !force then return .error .settingsExist
  return (← FileAccess.write path initialText).mapError .settingsNotCreated |>.map fun _ => path

end Settings

end BridgeMethods
