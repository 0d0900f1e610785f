import BridgeMethods.Command.Basic
import BridgeMethods.Definition.Loading
import BridgeMethods.Pool.Validation
import BridgeMethods.Settings.Discovery

/-!
# Classifying a hierarchy document

Everything that is read is read before anything is written: first the settings, then the document.
Reports go into a file only when all of them are known, so that a classification that fails leaves
every file as it was.
-/

namespace BridgeMethods

namespace ClassifyOptions

variable {m : Type → Type} [Monad m] [FileAccess m] (options : ClassifyOptions)

/-- The settings that the options override: those of the file that they name, or else those of the
working directory. -/
def loadSettings : m (Except CommandError Settings) := do
  match options.settingsFile with
  | some path => return (← Settings.load path).mapError (.settings path)
  | none => return .ok (← Settings.discoverHere)

/-- The pool of the hierarchy document. -/
def loadPool : m (Except CommandError ClassPool) := do
  let document ← HierarchyDocument.load options.path
  return (document.bind fun document => ClassPool.ofDefinitions document.classes).mapError
    (.hierarchy options.path)

/-- The text of the reports on a pool, with settings that the options have overridden. -/
def report (settings : Settings) (format : OutputFormat) (pool : ClassPool) (onTerminal : Bool)
    (threads : ThreadStart) : Except CommandError String := do
  let reports ← (pool.classify settings.classification settings.parallel threads).mapError .request
  return format.write (settings.useColor options onTerminal) reports

/-- Writes the reports to the output file, or hands them on to be printed. -/
def deliver (text : String) : m (Except CommandError String) := do
  match options.output with
  | some path => return (← FileAccess.write path text).mapError (.output path) |>.map fun _ => ""
  | none => return .ok text

/-- Classifies the hierarchy document.  The result is the text to print. -/
def run (onTerminal : Bool) (threads : ThreadStart := .unlimited) :
    m (Except CommandError String) := do
  match ← options.loadSettings with
  | .error error => return .error error
  | .ok loaded =>
      let settings := loaded.override options
      match settings.format options with
      | .error error => return .error (.request error)
      | .ok format =>
          match ← options.loadPool with
          | .error error => return .error error
          | .ok pool =>
              match options.report settings format pool onTerminal threads with
              | .error error => return .error error
              | .ok text => options.deliver text

end ClassifyOptions

end BridgeMethods
