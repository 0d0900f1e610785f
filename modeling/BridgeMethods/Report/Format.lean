import BridgeMethods.Report.Json
import BridgeMethods.Report.Terminal

/-!
# Output formats

A list of reports is written as JSON or for a terminal.  The name of a format may be written in any
case and with white space around it.
-/

namespace BridgeMethods

/-- A way of writing reports. -/
inductive OutputFormat where
  | json
  | terminal
  deriving DecidableEq, Repr

namespace OutputFormat

/-- The name of a format. -/
def name : OutputFormat → String
  | .json => "json"
  | .terminal => "terminal"

/-- The error about a text that names no format. -/
def unknown (text : String) : Error :=
  .configuration ("unknown output format '" ++ text ++ "'")

/-- The format that a text names. -/
def ofName? (text : String) : Option OutputFormat :=
  [OutputFormat.json, .terminal].find? (·.name = text)

theorem ofName?_name (format : OutputFormat) : ofName? format.name = some format := by
  cases format <;> decide

/-- The format that a text names in any case; an error shows the text as it is compared. -/
def parse (text : String) : Except Error OutputFormat :=
  let folded := Text.lowerAscii (Text.trim text)
  match ofName? folded with
  | some format => .ok format
  | none => .error (unknown folded)

/-- The text of a list of reports in a format.  JSON has no colour. -/
def write (format : OutputFormat) (useColor : Bool) (reports : List MethodReport) : String :=
  match format with
  | .json => Report.toJson reports
  | .terminal => Report.toTerminal useColor reports

end OutputFormat

end BridgeMethods
