import BridgeMethods.Settings.Override

/-!
# Commands and their failures

A command classifies the methods of a hierarchy document, lists the method sorts or creates a
settings file.  Each way in which one can fail is a cause of its own; `CommandError.explanation`
words it, from what was being done to the reason that lies deepest.
-/

namespace BridgeMethods

/-- What can be asked for. -/
inductive Command where
  | classify (options : ClassifyOptions)
  | sorts
  | init (force : Bool)
  deriving DecidableEq, Repr

/-- Why a command fails. -/
inductive CommandError where
  /-- A settings file that is named explicitly cannot be used. -/
  | settings (path : Path) (cause : Error)
  /-- What the settings and the options ask for together is not known or cannot be had. -/
  | request (cause : Error)
  /-- A hierarchy document cannot be read, or its definitions are not accepted. -/
  | hierarchy (path : Path) (cause : Error)
  /-- The reports cannot be written. -/
  | output (path : Path) (fault : FileFault)
  /-- There is a settings file already. -/
  | settingsExist
  /-- A settings file cannot be created. -/
  | settingsNotCreated (fault : FileFault)
  deriving DecidableEq, Repr

namespace CommandError

/-- What was being done when a command failed, if there is something to add to the cause. -/
def context? : CommandError → Option String
  | .settings path _ => some ("Failed to load configuration " ++ path.text)
  | .hierarchy path _ => some ("Failed to load class hierarchy " ++ path.text)
  | .output path _ => some ("Failed to create output file " ++ path.text)
  | .settingsExist => some "Configuration file already exists. Use --force to overwrite."
  | .request _ | .settingsNotCreated _ => none

/-- The error that made a command fail. -/
def cause? : CommandError → Option Error
  | .settings _ cause | .request cause | .hierarchy _ cause => some cause
  | .output _ _ | .settingsExist | .settingsNotCreated _ => none

/-- The wording of the refused file access that a failure comes from. -/
def fault? : CommandError → Option String
  | .output _ fault | .settingsNotCreated fault => some fault.message
  | .settings _ cause | .request cause | .hierarchy _ cause => cause.source?
  | .settingsExist => none

/-- What there is to tell about a failure, each line the reason of the line before it. -/
def explanation (error : CommandError) : List String :=
  error.context?.toList ++ (error.cause?.map (·.message)).toList ++ error.fault?.toList

end CommandError

end BridgeMethods
