import BridgeMethods.Report.Basic
import BridgeMethods.Data.Json.Printer

/-!
# Reports as JSON

The written report is a table with the summary and the list of reports, one item or member a line,
and ends with a line break.  Sorts are written by their keys.
-/

namespace BridgeMethods

/-- The tree of a report. -/
def MethodReport.toData (report : MethodReport) : Data :=
  .record [
    ("type_name", .ofString report.typeName),
    ("signature", .ofString report.signature),
    ("modifiers", .ofStrings (report.modifiers.map Modifier.name)),
    ("sorts", .ofStrings (report.sorts.map MethodSort.key))]

/-- The tree of a summary: each count is a pair of a sort and a number. -/
def SortCounts.toData (summary : SortCounts) : Data :=
  .record [
    ("methods", .ofNat summary.methods),
    ("counts", .list (summary.counts.map fun (s, count) =>
      .list [.ofString s.key, .ofNat count]))]

namespace Report

/-- The tree of a list of reports with its summary. -/
def toData (reports : List MethodReport) : Data :=
  .record [
    ("summary", (SortCounts.ofReports reports).toData),
    ("methods", .list (reports.map MethodReport.toData))]

/-- The JSON text of a list of reports. -/
def toJson (reports : List MethodReport) : String :=
  Data.Json.pretty (toData reports) ++ "\n"

end Report

end BridgeMethods
