import BridgeMethods.Report.Json
import BridgeMethods.Proofs.Data.Json.RoundTrip
import Mathlib.Data.List.Forall2

/-!
# Nothing is lost in a JSON report

The JSON text of a list of reports is one value and a line break.  The value tells of each report
everything that the report holds, and in its summary how many reports there are and how many of
them each sort that occurs has; so reports with the same text are the same.
-/

namespace BridgeMethods

theorem MethodSort.key_injective : Function.Injective MethodSort.key := by
  have find?_key (s : MethodSort) : all.find? (·.key = s.key) = some s := by
    cases s <;> decide
  intro s other same
  rw [← Option.some_inj, ← find?_key s, same, find?_key other]

theorem Modifier.name_injective : Function.Injective Modifier.name := by
  intro m other same
  rw [← Option.some_inj, ← ofName?_name m, same, ofName?_name other]

namespace Data

theorem ofString_injective : Function.Injective ofString := by
  intro left right same
  simpa [ofString] using same

theorem ofStrings_injective : Function.Injective ofStrings := by
  intro left right same
  exact ofString_injective.list_map (Data.list.inj same)

end Data

/-! ## What a report tells -/

/-- An item tells everything that a report holds. -/
structure MethodReport.ToldBy (report : MethodReport) (item : Data) : Prop where
  typeName : item.member? "type_name" = some (.ofString report.typeName)
  signature : item.member? "signature" = some (.ofString report.signature)
  modifiers :
    item.member? "modifiers" = some (.ofStrings (report.modifiers.map Modifier.name))
  sorts : item.member? "sorts" = some (.ofStrings (report.sorts.map MethodSort.key))

/-- The reports that have a sort among theirs are counted for each sort that occurs, in the order
of all sorts. -/
def Report.sortCounts (reports : List MethodReport) : List (MethodSort × Nat) :=
  (MethodSort.all.filter fun s => reports.any (s ∈ ·.sorts)).map fun s =>
    (s, reports.countP (s ∈ ·.sorts))

/-- A value tells everything about a list of reports: their number and the counts of the sorts in
its summary, and each of them in its list of methods. -/
structure Report.Tells (value : Data) (reports : List MethodReport) : Prop where
  summary : ∃ summary, value.member? "summary" = some summary ∧
    summary.member? "methods" = some (.ofNat reports.length) ∧
    summary.member? "counts" = some (.list ((sortCounts reports).map fun (s, count) =>
      .list [.ofString s.key, .ofNat count]))
  methods : ∃ items, value.member? "methods" = some (.list items) ∧
    List.Forall₂ MethodReport.ToldBy reports items

namespace MethodReport

theorem toldBy_toData (report : MethodReport) : report.ToldBy report.toData :=
  ⟨rfl, rfl, rfl, rfl⟩

theorem isJson_toData (report : MethodReport) : report.toData.IsJson := by
  apply Data.isJson_record
  simp [Data.isJson_ofString, Data.isJson_ofStrings]

/-- An item tells of one report at most. -/
theorem ToldBy.unique {report other : MethodReport} {item : Data} (told : report.ToldBy item)
    (otherTold : other.ToldBy item) : report = other := by
  have typeName := told.typeName.symm.trans otherTold.typeName
  have signature := told.signature.symm.trans otherTold.signature
  have modifiers := told.modifiers.symm.trans otherTold.modifiers
  have sorts := told.sorts.symm.trans otherTold.sorts
  cases report
  cases other
  congr
  · exact Data.ofString_injective (Option.some_inj.mp typeName)
  · exact Data.ofString_injective (Option.some_inj.mp signature)
  · exact Modifier.name_injective.list_map (Data.ofStrings_injective (Option.some_inj.mp modifiers))
  · exact MethodSort.key_injective.list_map (Data.ofStrings_injective (Option.some_inj.mp sorts))

end MethodReport

theorem SortCounts.isJson_toData (summary : SortCounts) : summary.toData.IsJson := by
  have isJson_pair (entry : MethodSort × Nat) :
      (Data.list [.ofString entry.1.key, .ofNat entry.2]).IsJson := by
    apply Data.IsJson.list
    simp [Data.isJson_ofString, Data.isJson_ofNat]
  apply Data.isJson_record
  simp only [List.forall_mem_cons]
  exact ⟨Data.isJson_ofNat _,
    .list (List.forall_mem_map.mpr fun entry _ => isJson_pair entry), by simp⟩

/-- The sorts with a positive count are those that occur. -/
theorem SortCounts.counts_ofReports (reports : List MethodReport) :
    (SortCounts.ofReports reports).counts = Report.sortCounts reports := by
  have occurs (s : MethodSort) :
      decide (0 < reports.countP (s ∈ ·.sorts)) = reports.any (s ∈ ·.sorts) := by
    rw [Bool.eq_iff_iff, decide_eq_true_iff, List.countP_pos_iff, List.any_eq_true]
  simp only [ofReports, Report.sortCounts, ← List.countP_eq_length_filter, List.filter_map,
    Function.comp_def, occurs]

namespace Report

theorem isJson_toData (reports : List MethodReport) : (toData reports).IsJson := by
  apply Data.isJson_record
  simp only [List.forall_mem_cons]
  exact ⟨SortCounts.isJson_toData _,
    .list (List.forall_mem_map.mpr fun report _ => report.isJson_toData), by simp⟩

theorem tells_toData (reports : List MethodReport) : Tells (toData reports) reports where
  summary := ⟨(SortCounts.ofReports reports).toData, rfl, rfl, by
    rw [← SortCounts.counts_ofReports]
    rfl⟩
  methods := ⟨reports.map MethodReport.toData, rfl, by
    rw [List.forall₂_map_right_iff, List.forall₂_same]
    exact fun report _ => report.toldBy_toData⟩

/-- A value tells everything about one list of reports at most. -/
theorem Tells.unique {value : Data} {reports others : List MethodReport}
    (tells : Tells value reports) (tellsOthers : Tells value others) : reports = others := by
  obtain ⟨items, found, told⟩ := tells.methods
  obtain ⟨otherItems, otherFound, otherTold⟩ := tellsOthers.methods
  obtain rfl : items = otherItems :=
    Data.list.inj (Option.some_inj.mp (found.symm.trans otherFound))
  have leftUnique : Relator.LeftUnique MethodReport.ToldBy :=
    fun _ _ _ told otherTold => told.unique otherTold
  exact leftUnique.forall₂ told otherTold

/-- The JSON text of a list of reports is a JSON value and a line break after it.  The value tells
everything about the reports, and it is read back; so the reports are the only ones with their
text. -/
theorem toJson_lossless (reports : List MethodReport) :
    (∃ body value, toJson reports = body ++ "\n" ∧ Data.Json.read body = some value ∧
      Data.Json.read (toJson reports) = some value ∧ Tells value reports) ∧
    ∀ others, toJson others = toJson reports → others = reports := by
  have readBack (reports : List MethodReport) :
      Data.Json.read (toJson reports) = some (toData reports) :=
    Data.Json.read_pretty_append (isJson_toData reports) rfl
  refine ⟨⟨_, toData reports, rfl, Data.Json.read_pretty (isJson_toData reports),
    readBack reports, tells_toData reports⟩, ?_⟩
  intro others same
  have sameData : toData others = toData reports := by
    rw [← Option.some_inj, ← readBack others, same, readBack reports]
  have tellsOthers : Tells (toData reports) others := sameData ▸ tells_toData others
  exact tellsOthers.unique (tells_toData reports)

end Report

end BridgeMethods
