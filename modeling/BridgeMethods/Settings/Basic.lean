import BridgeMethods.Data.Shape
import BridgeMethods.Data.Toml.Reader
import BridgeMethods.Report.Format

/-!
# Settings

What a settings file can say: which sorts are reported, how reports are written and how much work
is done at a time.  Every section and every value may be left out.  A settings file is accepted
only if every sort and the format that it names are known.
-/

namespace BridgeMethods

open Data (Convention)

/-- How reports are written. -/
structure OutputSettings where
  /-- The name of a format, as it is written. -/
  defaultFormat : Option String := none
  /-- Whether colour is used; it depends on the terminal if nothing is said. -/
  useColor : Option Bool := none
  deriving DecidableEq, Repr

/-- The contents of a settings file. -/
structure Settings where
  classification? : Option ClassificationSettings := none
  output? : Option OutputSettings := none
  parallel? : Option ParallelSettings := none
  deriving DecidableEq, Repr

namespace ClassificationSettings

def ofData? (convention : Convention) (data : Data) : Option ClassificationSettings := do
  match ← convention.fields? ["sorts", "include_unmatched"] data with
  | [sorts, includeUnmatched] =>
      return {
        sorts := ← sorts.optional (Data.listOf? Data.string?)
        includeUnmatched := ← includeUnmatched.default false Data.bool? }
  | _ => none

def toData (settings : ClassificationSettings) : Data :=
  .record [
    ("sorts", settings.sorts.elim .null Data.ofStrings),
    ("include_unmatched", .bool settings.includeUnmatched)]

end ClassificationSettings

namespace OutputSettings

/-- The format may be left out of a table, but not of a list of the fields. -/
def ofData? (convention : Convention) (data : Data) : Option OutputSettings := do
  if let .list [] := data then none
  match ← convention.fields? ["default_format", "use_color"] data with
  | [defaultFormat, useColor] =>
      return {
        defaultFormat := ← defaultFormat.optional Data.string?
        useColor := ← useColor.optional Data.bool? }
  | _ => none

def toData (settings : OutputSettings) : Data :=
  .record [
    ("default_format", .ofString? settings.defaultFormat),
    ("use_color", settings.useColor.elim .null Data.bool)]

end OutputSettings

namespace ParallelSettings

/-- A count fits into 64 bits. -/
def count? (data : Data) : Option Nat :=
  data.nat?.filter (· < Nat.pow 2 64)

def ofData? (convention : Convention) (data : Data) : Option ParallelSettings := do
  match ← convention.fields? ["enabled", "max_concurrency"] data with
  | [enabled, maxConcurrency] =>
      return {
        enabled := ← enabled.default true Data.bool?
        maxConcurrency := ← maxConcurrency.optional count? }
  | _ => none

def toData (settings : ParallelSettings) : Data :=
  .record [
    ("enabled", .bool settings.enabled),
    ("max_concurrency", settings.maxConcurrency.elim .null Data.ofNat)]

end ParallelSettings

namespace Settings

variable (settings : Settings)

/-- What is said about classification, or the defaults. -/
def classification : ClassificationSettings := settings.classification?.getD {}

/-- What is said about parallel work, or the defaults. -/
def parallel : ParallelSettings := settings.parallel?.getD {}

/-- The format that is named. -/
def defaultFormat? : Option String := settings.output?.bind (·.defaultFormat)

/-- What is said about colour. -/
def useColor? : Option Bool := settings.output?.bind (·.useColor)

def ofData? (convention : Convention) (data : Data) : Option Settings := do
  match ← convention.fields? ["classification", "output", "parallel"] data with
  | [classification, output, parallel] =>
      return {
        classification? :=
          ← classification.optional (ClassificationSettings.ofData? convention)
        output? := ← output.optional (OutputSettings.ofData? convention)
        parallel? := ← parallel.optional (ParallelSettings.ofData? convention) }
  | _ => none

def toData : Data :=
  .record [
    ("classification", settings.classification?.elim .null (·.toData)),
    ("output", settings.output?.elim .null (·.toData)),
    ("parallel", settings.parallel?.elim .null (·.toData))]

/-- Checks that the sorts and the format that settings name are known.  The error about a format
shows it as it is written. -/
def validate : Except Error Settings := do
  let _ ← settings.classification.selectedSorts
  match settings.defaultFormat? with
  | none => return settings
  | some text =>
      match OutputFormat.parse text with
      | .ok _ => return settings
      | .error _ => throw (OutputFormat.unknown text)

/-- Reads and checks the text of a settings file. -/
def parse (source : String) : Except Error Settings :=
  match (Data.Toml.read source).bind (ofData? .toml) with
  | some settings => settings.validate
  | none => .error .toml

end Settings

end BridgeMethods
