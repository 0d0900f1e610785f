import BridgeMethods.Files.Path
import BridgeMethods.Settings.Basic

/-!
# Settings and the options of a command

The options of a classification say what to classify and where to write the reports, and override
what the settings say about the rest.
-/

namespace BridgeMethods

/-- The options of a classification. -/
structure ClassifyOptions where
  /-- The hierarchy document. -/
  path : Path
  sorts : Option (List MethodSort) := none
  format : Option OutputFormat := none
  /-- The file that the reports are written to; they are printed if there is none. -/
  output : Option Path := none
  /-- The settings file; it is searched for if none is named. -/
  settingsFile : Option Path := none
  includeUnmatched : Bool := false
  noParallel : Bool := false
  /-- The largest number of worker threads, zero for as many as there are processors. -/
  jobs : Option Nat := none
  plain : Bool := false
  deriving DecidableEq, Repr

namespace Settings

/-- Settings as options override them.  Sorts are replaced, unmatched methods are included if
either asks for it, and parallel work can only be switched off. -/
def override (settings : Settings) (options : ClassifyOptions) : Settings :=
  let classification := settings.classification
  let parallel := settings.parallel
  { settings with
    classification? := some {
      sorts := match options.sorts with
        | some sorts => some (sorts.map MethodSort.name)
        | none => classification.sorts
      includeUnmatched := classification.includeUnmatched || options.includeUnmatched }
    parallel? := some {
      enabled := parallel.enabled && !options.noParallel
      maxConcurrency := match options.jobs with
        | some jobs => if 0 < jobs then some jobs else none
        | none => parallel.maxConcurrency } }

/-- The format of the reports: that of the options, else that of the settings, else the one for
terminals. -/
def format (settings : Settings) (options : ClassifyOptions) : Except Error OutputFormat :=
  match options.format, settings.defaultFormat? with
  | some format, _ => .ok format
  | none, some text => OutputFormat.parse text
  | none, none => .ok .terminal

/-- Whether the reports are coloured.  What is written to a file is not; `onTerminal` tells
whether printed text goes to a terminal. -/
def useColor (settings : Settings) (options : ClassifyOptions) (onTerminal : Bool) : Bool :=
  if options.plain || options.output.isSome then false
  else settings.useColor?.getD onTerminal

end Settings

end BridgeMethods
