import BridgeMethods.Files.Access
import BridgeMethods.Settings.Basic

/-!
# Finding settings files

The settings of a directory are those of the nearest settings file in it or above it, as far as
`maxDirectories` directories.  A file that cannot be read is passed over; the first one that can be
read decides, and if its contents are not accepted, the defaults apply.

A settings file that somebody names explicitly has to be readable and acceptable.
-/

namespace BridgeMethods

namespace Settings

/-- The name of settings files. -/
def fileName : String := ".methodsort.toml"

/-- The largest number of directories that are searched. -/
def maxDirectories : Nat := 10

/-- The places where the settings file of a directory may be, from the nearest on. -/
def candidates (start : Path) : List Path :=
  (start.ancestors maxDirectories).map (·.join fileName)

/-- The settings of a file with some text: the defaults if the text is not accepted. -/
def ofText (source : String) : Settings :=
  match parse source with
  | .ok settings => settings
  | .error _ => {}

variable {m : Type → Type} [Monad m] [FileAccess m]

/-- The text of the first of several files that can be read. -/
def firstReadable? : List Path → m (Option String)
  | [] => return none
  | path :: rest => do
      match ← FileAccess.read path with
      | .ok source => return some source
      | .error _ => firstReadable? rest

/-- The settings of a directory. -/
def discover (start : Path) : m Settings := do
  match ← firstReadable? (candidates start) with
  | some source => return ofText source
  | none => return {}

/-- The settings of the working directory. -/
def discoverHere : m Settings := do
  match ← FileAccess.workingDirectory with
  | .ok start => discover start
  | .error _ => return {}

/-- The settings of an explicitly named file. -/
def load (path : Path) : m (Except Error Settings) := do
  match ← FileAccess.read path with
  | .ok source => return parse source
  | .error fault =>
      return .error
        (.fileSystem ("Failed to read config file " ++ path.text) (some path.text) (some fault))

end Settings

end BridgeMethods
