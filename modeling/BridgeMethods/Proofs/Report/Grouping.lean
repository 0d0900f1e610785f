import BridgeMethods.Proofs.Classification.Accounting
import BridgeMethods.Proofs.Text.Lines
import BridgeMethods.Proofs.View.Signature
import BridgeMethods.Report.Terminal

/-!
# Reports are grouped by type

A report for terminals has a heading wherever the type is another one than that of the method
before.  The methods of a type are reported one after the other, and types have different names; so
there is one heading for each type that has a reported method.

The statements are about the lines of the text.  They hold as long as no name of a type or of a
method has a line break in it, since nothing else can bring one into a line.
-/

namespace List

universe u

variable {α : Type u}

theorem intercalate_singleton_cons (separator : α) (first : List α) (others : List (List α)) :
    [separator].intercalate (first :: others) = first ++ others.flatMap (separator :: ·) := by
  induction others generalizing first with
  | nil => simp [List.intercalate]
  | cons second others ih =>
      have rest := ih second
      simp_all [List.intercalate]

end List

namespace BridgeMethods

open Text

theorem Modifier.oneLine_name (m : Modifier) : OneLine m.name := by
  cases m <;> decide

theorem MethodSort.oneLine_name (s : MethodSort) : OneLine s.name := by
  cases s <;> decide

theorem Text.OneLine.joinWith {separator : String} (oneLine : OneLine separator)
    {texts : List String} (each : ∀ text ∈ texts, OneLine text) :
    OneLine (joinWith separator texts) := by
  intro member
  rcases mem_joinWith member with member | ⟨text, textMember, member⟩
  · exact oneLine member
  · exact each text textMember member

theorem IsErasedName.oneLine {erased : String} (isErasedName : IsErasedName erased) :
    OneLine erased :=
  isErasedName.not_mem (by decide) (by decide)

/-! ## The lines of a report -/

/-- The line of a method: its modifiers, its signature and its sorts. -/
def MethodReport.line (report : MethodReport) : String :=
  "  " ++ String.join (report.modifiers.map fun m => m.name ++ " ") ++ report.signature
    ++ "  [" ++ joinWith ", " (report.sorts.map MethodSort.name) ++ "]"

/-- The reports on the methods of a type. -/
structure TypeReports where
  typeName : String
  reports : List MethodReport

/-- The lines of a group: the name of the type, and a line for each of its methods. -/
def TypeReports.lines (group : TypeReports) : List String :=
  group.typeName :: group.reports.map MethodReport.line

/-- Groups without reports make no difference. -/
theorem TypeReports.flatMap_filter_nonempty (groups : List TypeReports) :
    (groups.filter (!·.reports.isEmpty)).flatMap (·.reports) = groups.flatMap (·.reports) := by
  induction groups with
  | nil => rfl
  | cons group groups ih =>
      rw [List.flatMap_cons, List.filter_cons, ← ih]
      by_cases empty : group.reports = [] <;> simp [empty]

/-- There are reports in a group, all of them about methods of the type, and none of their texts has
a line break. -/
structure TypeReports.IsGroup (group : TypeReports) : Prop where
  nonempty : group.reports ≠ []
  sameType : ∀ report ∈ group.reports, report.typeName = group.typeName
  heading : OneLine group.typeName
  signatures : ∀ report ∈ group.reports, OneLine report.signature

namespace Report

/-- The line that counts the methods of a sort. -/
def countLine (entry : MethodSort × Nat) : String :=
  "  " ++ padRight 22 entry.1.name ++ " " ++ toString entry.2

theorem paint_false (style : TextStyle) (text : String) : style.paint false text = text :=
  rfl

theorem madeOf_header :
    MadeOf (header false) ["Method Sort Report", "==================", ""] := by
  have title : MadeOf ("Method Sort Report" ++ "\n") ["Method Sort Report"] := .line (by decide)
  have rule : MadeOf ("==================" ++ "\n") ["=================="] := .line (by decide)
  have twoLines : "\n\n" = "\n" ++ "\n" := by decide
  have cut : "Method Sort Report" ++ "\n" ++ "==================" ++ "\n\n"
      = "Method Sort Report" ++ "\n" ++ ("==================" ++ "\n" ++ "\n") := by
    rw [twoLines]
    simp only [String.append_assoc, -String.reduceAppend]
  have lines := title.append (rule.append .lineBreak)
  rw [← cut] at lines
  exact lines

theorem madeOf_methodLine {report : MethodReport} (oneLine : OneLine report.signature) :
    MadeOf (methodLine false report) [report.line] := by
  have modifiers : OneLine (String.join (report.modifiers.map fun m => m.name ++ " ")) := by
    apply OneLine.join
    rw [List.forall_mem_map]
    exact fun m _ => m.oneLine_name.append (by decide)
  have sorts : OneLine (joinWith ", " (report.sorts.map MethodSort.name)) := by
    apply OneLine.joinWith (by decide)
    exact List.forall_mem_map.mpr fun s _ => s.oneLine_name
  have indent : OneLine "  " := by decide
  have opening : OneLine "  [" := by decide
  have closing : OneLine "]" := by decide
  have whole : OneLine report.line :=
    ((((indent.append modifiers).append oneLine).append opening).append sorts).append closing
  have withBreak : methodLine false report = report.line ++ "\n" := by
    have closingLine : "]\n" = "]" ++ "\n" := by decide
    have plainSorts : paintSort false = MethodSort.name := rfl
    rw [methodLine, closingLine, ← String.append_assoc, plainSorts, paint_false]
    rfl
  rw [withBreak]
  exact .line whole

theorem madeOf_countLines (counts : List (MethodSort × Nat)) :
    MadeOf (String.join (counts.map fun (s, count) =>
      "  " ++ padRight 22 s.name ++ " " ++ toString count ++ "\n")) (counts.map countLine) := by
  apply MadeOf.join
  intro entry _
  have indent : OneLine "  " := by decide
  have space : OneLine " " := by decide
  have name : OneLine (padRight 22 entry.1.name) :=
    not_mem_padRight (by decide) 22 entry.1.oneLine_name
  have count : OneLine (toString entry.2) := not_mem_toString (by decide) entry.2
  exact .line (((indent.append name).append space).append count)

theorem madeOf_summary (reports : List MethodReport) :
    MadeOf (summary false reports)
      (["", "Summary: " ++ toString reports.length ++ " methods"]
        ++ (SortCounts.ofReports reports).counts.map countLine) := by
  have label : OneLine "Summary: " := by decide
  have ending : OneLine " methods" := by decide
  have count : OneLine (toString reports.length) := not_mem_toString (by decide) _
  have total : MadeOf ("Summary: " ++ toString reports.length ++ " methods" ++ "\n")
      ["Summary: " ++ toString reports.length ++ " methods"] :=
    .line ((label.append count).append ending)
  have labelText : "Summary: " = "Summary:" ++ " " := by decide
  have endingLine : " methods\n" = " methods" ++ "\n" := by decide
  have cut : "\n" ++ "Summary:" ++ " " ++ toString reports.length ++ " methods\n"
      = "\n" ++ ("Summary: " ++ toString reports.length ++ " methods" ++ "\n") := by
    rw [labelText, endingLine]
    simp only [String.append_assoc, -String.reduceAppend]
  have lines :=
    (MadeOf.lineBreak.append total).append (madeOf_countLines (SortCounts.ofReports reports).counts)
  rw [← cut] at lines
  exact lines

/-! ## Groups -/

variable {group : TypeReports} {groups : List TypeReports}

/-- The methods of the type whose name was written last get no heading. -/
theorem madeOf_methodLines_same {reports rest : List MethodReport} {typeName : String}
    (sameType : ∀ report ∈ reports, report.typeName = typeName)
    (signatures : ∀ report ∈ reports, OneLine report.signature) {restLines : List String}
    (madeOf : MadeOf (methodLines false (some typeName) rest) restLines) :
    MadeOf (methodLines false (some typeName) (reports ++ rest))
      (reports.map MethodReport.line ++ restLines) := by
  induction reports with
  | nil => exact madeOf
  | cons report reports ih =>
      obtain ⟨rfl, othersSame⟩ := List.forall_mem_cons.mp sameType
      obtain ⟨oneLine, others⟩ := List.forall_mem_cons.mp signatures
      have noHeading : typeLine false (some report.typeName) report.typeName = "" := if_pos rfl
      rw [List.cons_append, methodLines, noHeading, String.empty_append]
      exact (madeOf_methodLine oneLine).append (ih othersSame others)

/-- A group is written under its heading, with an empty line in between if it is not the first. -/
theorem madeOf_methodLines_group (isGroup : group.IsGroup) {current : Option String}
    (other : current ≠ some group.typeName) {rest : List MethodReport} {restLines : List String}
    (madeOf : MadeOf (methodLines false (some group.typeName) rest) restLines) :
    MadeOf (methodLines false current (group.reports ++ rest))
      ((if current.isSome then [""] else []) ++ group.lines ++ restLines) := by
  obtain ⟨first, others, reports⟩ := List.exists_cons_of_ne_nil isGroup.nonempty
  have sameType := isGroup.sameType
  have signatures := isGroup.signatures
  rw [reports, List.forall_mem_cons] at sameType signatures
  have separator : MadeOf (if current.isSome then "\n" else "")
      (if current.isSome then [""] else []) := by
    split_ifs
    · exact .lineBreak
    · exact .nil
  have heading : MadeOf (typeLine false current first.typeName)
      ((if current.isSome then [""] else []) ++ [group.typeName]) := by
    rw [sameType.1, typeLine, if_neg other, paint_false, String.append_assoc]
    exact separator.append (.line isGroup.heading)
  rw [TypeReports.lines, reports, List.cons_append, methodLines, sameType.1]
  rw [sameType.1] at heading
  have lines := (heading.append (madeOf_methodLine signatures.1)).append
    (madeOf_methodLines_same sameType.2 signatures.2 madeOf)
  simpa using lines

theorem madeOf_methodLines_later (areGroups : ∀ group ∈ groups, group.IsGroup) {current : String}
    (distinct : (current :: groups.map (·.typeName)).Nodup) :
    MadeOf (methodLines false (some current) (groups.flatMap (·.reports)))
      (groups.flatMap fun group => "" :: group.lines) := by
  -- The name written last is that of the group before, and no later group has it again.
  induction groups generalizing current with
  | nil => exact .nil
  | cons group groups ih =>
      obtain ⟨isGroup, others⟩ := List.forall_mem_cons.mp areGroups
      obtain ⟨fresh, distinctOthers⟩ := List.nodup_cons.mp distinct
      have other : some current ≠ some group.typeName := by
        rintro ⟨⟩
        exact fresh List.mem_cons_self
      exact madeOf_methodLines_group isGroup other (ih others distinctOthers)

/-- Groups with different names are written one after the other, with an empty line in between. -/
theorem madeOf_methodLines (areGroups : ∀ group ∈ groups, group.IsGroup)
    (distinct : (groups.map (·.typeName)).Nodup) :
    MadeOf (methodLines false none (groups.flatMap (·.reports)))
      ([""].intercalate (groups.map TypeReports.lines)) := by
  cases groups with
  | nil => exact .nil
  | cons group groups =>
      obtain ⟨isGroup, others⟩ := List.forall_mem_cons.mp areGroups
      have first : none ≠ some group.typeName := (Option.some_ne_none _).symm
      rw [List.map_cons, List.intercalate_singleton_cons, List.flatMap_map]
      exact madeOf_methodLines_group isGroup first (madeOf_methodLines_later others distinct)

end Report

/-! ## The reports on a pool -/

/-- The names of a class and of its methods have no line breaks. -/
def ClassDef.NamesOneLine (definition : ClassDef) : Prop :=
  OneLine definition.name ∧ ∀ method ∈ definition.methods, OneLine method.name

instance (definition : ClassDef) : Decidable definition.NamesOneLine :=
  inferInstanceAs (Decidable (OneLine definition.name ∧
    ∀ method ∈ definition.methods, OneLine method.name))

theorem MethodView.oneLine_signature {method : MethodView} (typesErased : method.TypesErased)
    (name : OneLine method.internalName) : OneLine method.signature := by
  have space : OneLine " " := by decide
  have opening : OneLine "(" := by decide
  have closing : OneLine ")" := by decide
  have parameterTypes : OneLine (joinWith ", " method.parameterTypes) :=
    .joinWith (by decide) fun erased member => (typesErased.parameterTypes erased member).oneLine
  exact ((((typesErased.returnType.oneLine.append space).append name).append opening).append
    parameterTypes).append closing

namespace ClassPool

variable {definitions : List ClassDef} {pool : ClassPool} {entry : ClassEntry}
  {settings : ClassificationSettings} {selected : List MethodSort}

/-- The reports on the methods of a type, in the order of their declarations, as far as settings
ask for them. -/
def reportsOn (pool : ClassPool) (settings : ClassificationSettings) (selected : List MethodSort)
    (view : TypeView) : TypeReports where
  typeName := view.name
  reports := (view.methods.map (MethodReport.ofMethod pool selected)).filter fun report =>
    settings.includeUnmatched || !report.sorts.isEmpty

/-- The types with a reported method, in the order of the pool. -/
def reportedTypes (pool : ClassPool) (settings : ClassificationSettings)
    (selected : List MethodSort) : List TypeReports :=
  (pool.types.map (pool.reportsOn settings selected)).filter (!·.reports.isEmpty)

theorem flatMap_reportedTypes (pool : ClassPool) (settings : ClassificationSettings)
    (selected : List MethodSort) :
    (pool.reportedTypes settings selected).flatMap (·.reports) = pool.reports settings selected := by
  rw [reportedTypes, TypeReports.flatMap_filter_nonempty, List.flatMap_map, reports, methods,
    List.map_flatMap, List.filter_flatMap]
  rfl

theorem namesOneLine_withRoot (oneLine : ∀ definition ∈ definitions, definition.NamesOneLine) :
    ∀ definition ∈ withRoot definitions, definition.NamesOneLine := by
  intro definition member
  rcases mem_or_eq_of_mem_withRoot member with member | rfl
  · exact oneLine definition member
  · exact ⟨by decide, nofun⟩

theorem Means.oneLine (means : pool.Means definitions)
    (oneLine : ∀ definition ∈ definitions, definition.NamesOneLine)
    (member : entry ∈ pool.classes) :
    OneLine entry.name ∧
      ∀ method ∈ (TypeView.declaration entry).methods, OneLine method.signature := by
  obtain ⟨definition, defined, describes⟩ := means.described.exists_of_mem_right member
  obtain ⟨name, methodNames⟩ := oneLine definition defined
  refine ⟨describes.name ▸ name, fun method methodMember => ?_⟩
  obtain ⟨methodEntry, entryMember, rfl⟩ := List.mem_map.mp methodMember
  obtain ⟨methodDef, methodDefined, methodDescribes⟩ :=
    describes.methods.exists_of_mem_right entryMember
  apply MethodView.oneLine_signature ((means.sound (.declaration member)).typesErased methodMember)
  have methodName := methodNames methodDef methodDefined
  rwa [← methodDescribes.internalName] at methodName

theorem sameType_reportsOn (view : TypeView) :
    ∀ report ∈ (pool.reportsOn settings selected view).reports, report.typeName = view.name := by
  intro report member
  obtain ⟨method, methodMember, rfl⟩ := List.mem_map.mp (List.mem_of_mem_filter member)
  exact congrArg TypeView.name (TypeView.owner_of_mem_methods methodMember)

theorem mem_reportedTypes {group : TypeReports} :
    group ∈ pool.reportedTypes settings selected ↔ ∃ entry ∈ pool.classes,
      pool.reportsOn settings selected (.declaration entry) = group ∧ group.reports ≠ [] := by
  rw [reportedTypes, types, List.map_map, List.mem_filter, List.mem_map]
  constructor
  · rintro ⟨⟨entry, member, rfl⟩, nonempty⟩
    exact ⟨entry, member, rfl, by simpa using nonempty⟩
  · rintro ⟨entry, member, rfl, nonempty⟩
    exact ⟨⟨entry, member, rfl⟩, by simpa using nonempty⟩

theorem mem_reports {report : MethodReport} :
    report ∈ pool.reports settings selected ↔ ∃ entry ∈ pool.classes,
      report ∈ (pool.reportsOn settings selected (.declaration entry)).reports := by
  rw [← flatMap_reportedTypes, List.mem_flatMap]
  constructor
  · rintro ⟨group, groupMember, reported⟩
    obtain ⟨entry, member, rfl, _⟩ := mem_reportedTypes.mp groupMember
    exact ⟨entry, member, reported⟩
  · rintro ⟨entry, member, reported⟩
    exact ⟨_, mem_reportedTypes.mpr ⟨entry, member, rfl, List.ne_nil_of_mem reported⟩, reported⟩

/-- A type is named in a report just if one of its methods is reported. -/
theorem Means.any_typeName (means : pool.Means definitions) (member : entry ∈ pool.classes) :
    (pool.reports settings selected).any (·.typeName = entry.name) =
      !(pool.reportsOn settings selected (.declaration entry)).reports.isEmpty := by
  rw [Bool.eq_iff_iff, List.any_eq_true, Bool.not_eq_true', List.isEmpty_eq_false_iff]
  constructor
  · rintro ⟨report, reportMember, named⟩
    obtain ⟨other, otherMember, reported⟩ := mem_reports.mp reportMember
    have sameName : other.name = entry.name :=
      (sameType_reportsOn _ report reported).symm.trans (of_decide_eq_true named)
    obtain rfl := List.inj_on_of_nodup_map means.names_nodup otherMember member sameName
    exact List.ne_nil_of_mem reported
  · intro nonempty
    obtain ⟨report, reported⟩ := List.exists_mem_of_ne_nil _ nonempty
    exact ⟨report, mem_reports.mpr ⟨entry, member, reported⟩,
      decide_eq_true (sameType_reportsOn _ report reported)⟩

theorem Means.isGroup (means : pool.Means definitions)
    (oneLine : ∀ definition ∈ definitions, definition.NamesOneLine)
    (settings : ClassificationSettings) (selected : List MethodSort) :
    ∀ group ∈ pool.reportedTypes settings selected, group.IsGroup := by
  intro group groupMember
  obtain ⟨entry, member, rfl, nonempty⟩ := mem_reportedTypes.mp groupMember
  obtain ⟨heading, signatures⟩ := means.oneLine oneLine member
  refine ⟨nonempty, sameType_reportsOn _, heading, fun report reportMember => ?_⟩
  obtain ⟨method, methodMember, rfl⟩ := List.mem_map.mp (List.mem_of_mem_filter reportMember)
  exact signatures method methodMember

/-- The types with a reported method are those whose names are told in a report. -/
theorem Means.map_typeName_reportedTypes (means : pool.Means definitions)
    (settings : ClassificationSettings) (selected : List MethodSort) :
    (pool.reportedTypes settings selected).map (·.typeName) =
      (definitions.map (·.name)).filter fun name =>
        (pool.reports settings selected).any (·.typeName = name) := by
  rw [← means.map_name_eq, List.filter_map, reportedTypes, types, List.map_map, List.filter_map,
    List.map_map]
  apply congrArg
  exact List.filter_congr fun entry member => (means.any_typeName member).symm

/-- The reports on a class are about methods that its definition declares, in the same order. -/
theorem reportedBy_reportsOn (pool : ClassPool) (settings : ClassificationSettings)
    (selected : List MethodSort) {definition : ClassDef} (describes : definition.Describes entry) :
    List.SublistForall₂ (fun report method => MethodDef.ReportedBy (definition, method) report)
      (pool.reportsOn settings selected (.declaration entry)).reports definition.methods := by
  apply List.Forall₂.sublistForall₂_filter
  rw [TypeView.methods, List.map_map, List.forall₂_map_left_iff]
  refine describes.methods.flip.imp fun methodEntry method methodDescribes => ?_
  have reported := methodDescribes.reportedBy describes.toDescribesHeader pool
  exact ⟨reported.typeName, reported.signature, reported.modifiers⟩

/-- The root that is added has no methods, so nothing is reported on it. -/
theorem Means.exists_declared (means : pool.Means (withRoot definitions)) {group : TypeReports}
    (member : group ∈ pool.reportedTypes settings selected) :
    ∃ definition ∈ definitions, definition.name = group.typeName ∧
      List.SublistForall₂ (fun report method => MethodDef.ReportedBy (definition, method) report)
        group.reports definition.methods := by
  obtain ⟨entry, entryMember, rfl, nonempty⟩ := mem_reportedTypes.mp member
  obtain ⟨definition, defined, describes⟩ := means.described.exists_of_mem_right entryMember
  have reported := reportedBy_reportsOn pool settings selected describes
  rcases mem_or_eq_of_mem_withRoot defined with defined | rfl
  · exact ⟨definition, defined, describes.name.symm, reported⟩
  · obtain ⟨methods, related, sublist⟩ := List.sublistForall₂_iff.mp reported
    obtain rfl := List.sublist_nil.mp sublist
    exact absurd (List.forall₂_nil_right_iff.mp related) nonempty

theorem filter_name_withRoot {keep : String → Bool}
    (defined : ∀ name, keep name = true → name ∈ definitions.map (·.name)) :
    ((withRoot definitions).map (·.name)).filter keep = (definitions.map (·.name)).filter keep := by
  rw [withRoot]
  split_ifs with rooted
  · rfl
  · have dropped : keep objectName = false := by
      by_contra kept
      obtain ⟨definition, member, named⟩ :=
        List.mem_map.mp (defined objectName (Bool.not_eq_false _ ▸ kept))
      exact rooted (List.any_eq_true.mpr ⟨definition, member, decide_eq_true named⟩)
    have rootName : (ClassDef.ofClass objectName).asPublic.name = objectName := rfl
    rw [List.map_append, List.filter_append, List.map_singleton, rootName]
    simp [dropped]

end ClassPool

/-! ## The terminal text of a pool -/

/-- Reports in groups, one for each type with a reported method, and the lines of their text. -/
structure Report.GroupedByType (definitions : List ClassDef) (reports : List MethodReport)
    (groups : List TypeReports) : Prop where
  /-- The groups hold all reports in the order in which they are given. -/
  complete : groups.flatMap (·.reports) = reports
  /-- The headings are the names of the types that are reported on, in the order of definitions. -/
  headings : groups.map (·.typeName) =
    (definitions.map (·.name)).filter fun name => reports.any (·.typeName = name)
  /-- No heading is repeated. -/
  distinct : (groups.map (·.typeName)).Nodup
  /-- A group is about methods that the type declares, in the order of their declarations. -/
  declared : ∀ group ∈ groups, ∃ definition ∈ definitions, definition.name = group.typeName ∧
    List.SublistForall₂ (fun report method => MethodDef.ReportedBy (definition, method) report)
      group.reports definition.methods
  /-- Between the header and the summary there are the groups, with an empty line between one and
  the next, and the summary starts with the number of the lines of methods. -/
  lines : Text.lines (toTerminal false reports) =
    ["Method Sort Report", "==================", ""]
      ++ [""].intercalate (groups.map TypeReports.lines)
      ++ ["", "Summary: " ++ toString (groups.map (·.reports.length)).sum ++ " methods"]
      ++ (SortCounts.ofReports reports).counts.map countLine ++ [""]

namespace ClassPool

variable {definitions : List ClassDef} {pool : ClassPool} {settings : ClassificationSettings}
  {parallel : ParallelSettings} {threads : ThreadStart}

theorem lines_toTerminal {reports : List MethodReport} {groups : List TypeReports}
    (complete : groups.flatMap (·.reports) = reports)
    (areGroups : ∀ group ∈ groups, group.IsGroup) (distinct : (groups.map (·.typeName)).Nodup) :
    Text.lines (Report.toTerminal false reports) =
      ["Method Sort Report", "==================", ""]
        ++ [""].intercalate (groups.map TypeReports.lines)
        ++ ["", "Summary: " ++ toString (groups.map (·.reports.length)).sum ++ " methods"]
        ++ (SortCounts.ofReports reports).counts.map Report.countLine ++ [""] := by
  subst complete
  have madeOf := (Report.madeOf_header.append (Report.madeOf_methodLines areGroups distinct)).append
    (Report.madeOf_summary (groups.flatMap (·.reports)))
  rw [Report.toTerminal, madeOf.lines_eq, ← List.length_flatMap, ← List.append_assoc]

/-- The terminal text of the reports on an accepted pool has one heading for each type with a
reported method, and the lines of its reported methods under it. -/
theorem terminal_groupedByType (accepted : ofDefinitions definitions = .ok pool)
    (oneLine : ∀ definition ∈ definitions, definition.NamesOneLine)
    {reports : List MethodReport}
    (classified : pool.classify settings parallel threads = .ok reports) :
    ∃ groups, Report.GroupedByType definitions reports groups := by
  have means := (ofDefinitions_eq_ok_iff.mp accepted).1
  obtain ⟨selected, _, rfl⟩ := exists_of_classify_eq_ok classified
  have complete := pool.flatMap_reportedTypes settings selected
  have areGroups := means.isGroup (namesOneLine_withRoot oneLine) settings selected
  have headings := means.map_typeName_reportedTypes settings selected
  have distinct : ((pool.reportedTypes settings selected).map (·.typeName)).Nodup :=
    headings ▸ means.distinct.filter _
  have declared : ∀ group ∈ pool.reportedTypes settings selected, _ :=
    fun _ => means.exists_declared
  -- If the root was added to the definitions, no report is about it.
  rw [filter_name_withRoot] at headings
  · exact ⟨_, complete, headings, distinct, declared, lines_toTerminal complete areGroups distinct⟩
  · intro name mentioned
    obtain ⟨report, reportMember, named⟩ := List.any_eq_true.mp mentioned
    rw [← complete, List.mem_flatMap] at reportMember
    obtain ⟨group, groupMember, reported⟩ := reportMember
    obtain ⟨definition, defined, sameName, _⟩ := declared group groupMember
    have sameType := (areGroups group groupMember).sameType report reported
    exact List.mem_map.mpr
      ⟨definition, defined, sameName.trans (sameType.symm.trans (of_decide_eq_true named))⟩

theorem terminal_groupedByType_scenario :
    ∃ pool reports groups, ofDefinitions Scenario.covariantReturn = .ok pool ∧
      (∀ definition ∈ Scenario.covariantReturn, definition.NamesOneLine) ∧
      pool.classify {} = .ok reports ∧
      Report.GroupedByType Scenario.covariantReturn reports groups ∧
      groups.map (·.typeName) = ["com.example.Base", "com.example.Sub"] := by
  obtain ⟨pool, reports, accepted, classified, headings⟩ :
      ∃ pool reports, ofDefinitions Scenario.covariantReturn = .ok pool ∧
        pool.classify {} = .ok reports ∧
        ((Scenario.covariantReturn.map (·.name)).filter fun name =>
          reports.any (·.typeName = name)) = ["com.example.Base", "com.example.Sub"] :=
    ⟨_, _, rfl, rfl, by decide +kernel⟩
  have oneLine : ∀ definition ∈ Scenario.covariantReturn, definition.NamesOneLine := by
    decide +kernel
  obtain ⟨groups, grouped⟩ := terminal_groupedByType accepted oneLine classified
  exact ⟨pool, reports, groups, accepted, oneLine, classified, grouped,
    grouped.headings.trans headings⟩

end ClassPool

end BridgeMethods
