import BridgeMethods.Report.Basic

/-!
# Reports for terminals

A header, the reported methods under the names of their types, and a summary.  In colour, each
painted piece of text is put between a sequence that switches its style on and one that switches
all styles off; a switch that the text itself contains is followed by the style again.
-/

namespace BridgeMethods

/-- The sequence that switches all styles off. -/
def styleReset : List Char := "\x1b[0m".toList

/-- A style of a piece of text. -/
inductive TextStyle where
  | title
  | rule
  | typeName
  | bridgeSort
  | plainSort
  | modifiers
  | label
  deriving DecidableEq, Repr

namespace TextStyle

/-- The parameters of the sequence that switches a style on. -/
def parameters : TextStyle → String
  | .title => "1;34"
  | .rule => "34"
  | .typeName => "1"
  | .bridgeSort => "33"
  | .plainSort => "32"
  | .modifiers => "2"
  | .label => "1"

/-- The sequence that switches a style on. -/
def sequence (style : TextStyle) : List Char :=
  "\x1b[".toList ++ style.parameters.toList ++ ['m']

/-- A text in which each switching off is followed by a sequence that switches the style on. -/
def reapply (on : List Char) : List Char → List Char
  | '\x1b' :: '[' :: '0' :: 'm' :: rest => styleReset ++ on ++ reapply on rest
  | c :: rest => c :: reapply on rest
  | [] => []

/-- A text in a style, or just the text if there is no colour. -/
def paint (useColor : Bool) (style : TextStyle) (text : String) : String :=
  if useColor then
    String.ofList (style.sequence ++ reapply style.sequence text.toList ++ styleReset)
  else text

end TextStyle

namespace Report

variable (useColor : Bool)

/-- The lines before the methods. -/
def header : String :=
  TextStyle.title.paint useColor "Method Sort Report" ++ "\n"
    ++ TextStyle.rule.paint useColor "==================" ++ "\n\n"

/-- The name of a sort in its colour. -/
def paintSort (s : MethodSort) : String :=
  (if s.isBridgeSort then TextStyle.bridgeSort else .plainSort).paint useColor s.name

/-- The line of a method: its modifiers, its signature and its sorts. -/
def methodLine (report : MethodReport) : String :=
  "  " ++ TextStyle.modifiers.paint useColor
      (String.join (report.modifiers.map fun m => m.name ++ " "))
    ++ report.signature ++ "  [" ++ Text.joinWith ", " (report.sorts.map (paintSort useColor))
    ++ "]\n"

/-- The line with the name of a type, after an empty line if it is not the first one. -/
def typeLine (current : Option String) (typeName : String) : String :=
  if current = some typeName then ""
  else (if current.isSome then "\n" else "") ++ TextStyle.typeName.paint useColor typeName ++ "\n"

/-- The methods, given the type whose name was written last. -/
def methodLines (current : Option String) : List MethodReport → String
  | [] => ""
  | report :: rest =>
      typeLine useColor current report.typeName ++ methodLine useColor report
        ++ methodLines (some report.typeName) rest

/-- The lines after the methods. -/
def summary (reports : List MethodReport) : String :=
  let counts := SortCounts.ofReports reports
  "\n" ++ TextStyle.label.paint useColor "Summary:" ++ " " ++ toString counts.methods
    ++ " methods\n"
    ++ String.join (counts.counts.map fun (s, count) =>
      "  " ++ Text.padRight 22 s.name ++ " " ++ toString count ++ "\n")

/-- The terminal text of a list of reports. -/
def toTerminal (reports : List MethodReport) : String :=
  header useColor ++ methodLines useColor none reports ++ summary useColor reports

end Report

end BridgeMethods
