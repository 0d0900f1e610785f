import BridgeMethods.Proofs.Classification.Narrowing
import BridgeMethods.Proofs.Flags
import BridgeMethods.Proofs.Pool.Hierarchy

/-!
# Full reports account for every method

The full reports on a pool are one report on each method that its definitions declare, so nothing
is lost or told twice on the way from the definitions to the reports.  In their summary the methods
of the three kinds add up to all methods, and only methods that are marked as bridges are counted
for a bridge sort.
-/

namespace BridgeMethods

namespace SortCounts

/-- How many methods of a sort are counted; a sort that does not occur has no entry. -/
def count (summary : SortCounts) (s : MethodSort) : Nat :=
  (summary.counts.lookup s).getD 0

theorem count_ofReports (reports : List MethodReport) (s : MethodSort) :
    (ofReports reports).count s = reports.countP (s ∈ ·.sorts) := by
  rw [count, ofReports, List.lookup_filter_map_pair, List.countP_eq_length_filter]
  split_ifs with occurs
  · rfl
  · simp only [s.mem_all, true_and, decide_eq_true_eq, Nat.not_lt, Nat.le_zero] at occurs
    rw [occurs]
    rfl

end SortCounts

namespace MethodView

theorem kind_eq (method : MethodView) :
    method.kind = .method ∨ method.kind = .constructor ∨ method.kind = .typeInitializer := by
  rw [kind]
  split_ifs <;> simp

/-- Every method is of one kind, so the methods of the three kinds are all methods. -/
theorem countP_kinds (methods : List MethodView) :
    methods.countP (·.kind = .method) + methods.countP (·.kind = .constructor)
      + methods.countP (·.kind = .typeInitializer) = methods.length := by
  induction methods with
  | nil => rfl
  | cons method rest ih =>
      simp only [List.countP_cons, List.length_cons, ← ih]
      rcases method.kind_eq with isKind | isKind | isKind <;> simp [isKind] <;> omega

end MethodView

theorem MethodReport.isBridge_full (pool : ClassPool) (method : MethodView) :
    (full pool method).isBridge = method.isBridge := by
  rw [Bool.eq_iff_iff, isBridge, List.contains_iff_mem, full, AccessFlags.modifiers, List.mem_filter]
  exact and_iff_right (Modifier.mem_all .bridge)

/-- The declared methods, each with the definition that declares it, in order. -/
def ClassDef.declarations (definitions : List ClassDef) : List (ClassDef × MethodDef) :=
  definitions.flatMap fun definition => definition.methods.map (definition, ·)

/-- A report is about a declared method: it has the name of the declaring type, the name of the
method stands in its signature, and it has just the modifiers that the declaration names. -/
structure MethodDef.ReportedBy (declared : ClassDef × MethodDef) (report : MethodReport) : Prop where
  typeName : report.typeName = declared.1.name
  signature : ∃ returnType parameterTypes,
    report.signature = returnType ++ " " ++ declared.2.name ++ "("
      ++ Text.joinWith ", " parameterTypes ++ ")" ∧
    parameterTypes.length = declared.2.parameters.length
  modifiers : report.modifiers = Modifier.all.filter (· ∈ declared.2.modifiers)

theorem MethodDef.Describes.reportedBy {definition : ClassDef} {entry : ClassEntry}
    {method : MethodDef} {methodEntry : MethodEntry} {outer : List String}
    (describes : definition.DescribesHeader entry.toClassHeader)
    (methodDescribes : method.Describes outer methodEntry) (pool : ClassPool) :
    MethodDef.ReportedBy (definition, method) (.full pool ⟨.declaration entry, methodEntry⟩) where
  typeName := describes.name
  signature := by
    rw [← methodDescribes.internalName]
    refine ⟨_, _, rfl, ?_⟩
    rw [MethodView.parameterTypes, List.length_map]
    exact methodDescribes.parameterTypes.length_eq.symm
  modifiers := by
    rw [← AccessFlags.modifiers_ofModifiers, ← methodDescribes.flags]
    rfl

namespace ClassPool

variable {pool : ClassPool}

theorem countP_sorts_fullReports (pool : ClassPool) (s : MethodSort) :
    pool.fullReports.countP (s ∈ ·.sorts) = pool.methods.countP (pool.isOfSort · s) := by
  rw [fullReports, List.countP_map]
  refine List.countP_congr fun method _ => ?_
  rw [Function.comp_apply, decide_eq_true_iff]
  exact mem_sortsOf_iff

/-- What a full report says is in balance with the definitions that it is about. -/
structure Accounts (definitions : List ClassDef) (reports : List MethodReport) : Prop where
  /-- Each declared method is reported once, in the order of the definitions. -/
  complete : List.Forall₂ MethodDef.ReportedBy (ClassDef.declarations definitions) reports
  /-- The number of methods in the summary is that of the declared methods. -/
  methods : (SortCounts.ofReports reports).methods =
    (definitions.map fun definition => definition.methods.length).sum
  /-- The methods of the three kinds add up to all methods. -/
  kinds : (SortCounts.ofReports reports).count .method
    + (SortCounts.ofReports reports).count .constructor
    + (SortCounts.ofReports reports).count .typeInitializer = (SortCounts.ofReports reports).methods
  /-- No more methods are counted for a reason for bridges than there are bridges. -/
  bridges : ∀ s, s.isBridgeSort = true →
    (SortCounts.ofReports reports).count s ≤ (reports.filter (·.isBridge)).length

theorem declarations_withRoot (definitions : List ClassDef) :
    ClassDef.declarations (withRoot definitions) = ClassDef.declarations definitions := by
  rw [withRoot]
  split_ifs
  · rfl
  · -- The root that is added has no methods.
    simp [ClassDef.declarations, ClassDef.ofClass, ClassDef.asPublic, ClassDef.withModifiers]

/-- The declared methods of definitions and the full reports on the classes that they describe
correspond one to one. -/
theorem reportedBy_fullReports {definitions : List ClassDef}
    (described : List.Forall₂ ClassDef.Describes definitions pool.classes) :
    List.Forall₂ MethodDef.ReportedBy (ClassDef.declarations definitions) pool.fullReports := by
  rw [fullReports, methods, types, List.flatMap_map, List.map_flatMap]
  refine List.rel_flatMap described fun definition entry describes => ?_
  rw [TypeView.methods, List.map_map, List.forall₂_map_left_iff, List.forall₂_map_right_iff]
  exact describes.methods.imp fun _ _ methodDescribes =>
    methodDescribes.reportedBy describes.toDescribesHeader pool

theorem kinds_add_up (pool : ClassPool) :
    pool.fullReports.countP (.method ∈ ·.sorts) + pool.fullReports.countP (.constructor ∈ ·.sorts)
      + pool.fullReports.countP (.typeInitializer ∈ ·.sorts) = pool.fullReports.length := by
  have ofKind {s : MethodSort} (isKind : s.isKind = true) :
      pool.fullReports.countP (s ∈ ·.sorts) = pool.methods.countP (·.kind = s) := by
    rw [countP_sorts_fullReports]
    refine List.countP_congr fun method _ => ?_
    rw [isOfSort_iff_of_isKind isKind, decide_eq_true_iff, eq_comm]
  rw [ofKind rfl, ofKind rfl, ofKind rfl, MethodView.countP_kinds, fullReports, List.length_map]

theorem countP_le_bridges (pool : ClassPool) {s : MethodSort} (isBridgeSort : s.isBridgeSort = true) :
    pool.fullReports.countP (s ∈ ·.sorts) ≤ pool.fullReports.countP (·.isBridge) := by
  refine List.countP_mono_left fun report member ofSort => ?_
  obtain ⟨method, _, rfl⟩ := List.mem_map.mp member
  rw [MethodReport.isBridge_full]
  exact isBridge_of_isBridgeSort isBridgeSort (mem_sortsOf_iff.mp (of_decide_eq_true ofSort))

/-- Classifying the pool of accepted definitions with all sorts selected reports each method that
they declare just once, whether unmatched methods are asked for or not, and the summary balances.
Nothing fails unless threads that are asked for cannot be started. -/
theorem fullReports_account {definitions : List ClassDef}
    (accepted : ofDefinitions definitions = .ok pool) {settings : ClassificationSettings}
    (selects : settings.selectedSorts = .ok MethodSort.all) :
    ∃ reports, Accounts definitions reports ∧ ∀ parallel threads,
      pool.classify settings parallel threads =
        (parallel.startThreads threads).map fun _ => reports := by
  have means := (ofDefinitions_eq_ok_iff.mp accepted).1
  have complete := reportedBy_fullReports means.described
  rw [declarations_withRoot] at complete
  refine ⟨pool.fullReports, ⟨complete, ?_, ?_, ?_⟩, fun parallel threads => ?_⟩
  · rw [SortCounts.ofReports, ← complete.length_eq, ClassDef.declarations, List.length_flatMap]
    simp only [List.length_map]
  · simp only [SortCounts.count_ofReports]
    exact kinds_add_up pool
  · intro s isBridgeSort
    rw [SortCounts.count_ofReports, ← List.countP_eq_length_filter]
    exact countP_le_bridges pool isBridgeSort
  · rw [classify_shared, classify_of_selects_all selects]
    rfl

theorem fullReports_account_scenario :
    ∃ pool reports, ofDefinitions Scenario.closestTypeVariableAncestor = .ok pool ∧
      ClassificationSettings.selectedSorts { sorts := some (MethodSort.all.map (·.name)) } =
        .ok MethodSort.all ∧
      pool.classify { sorts := some (MethodSort.all.map (·.name)) } = .ok reports ∧
      Accounts Scenario.closestTypeVariableAncestor reports ∧
      (SortCounts.ofReports reports).methods = 4 := by
  obtain ⟨pool, accepted⟩ :
      ∃ pool, ofDefinitions Scenario.closestTypeVariableAncestor = .ok pool := ⟨_, rfl⟩
  have selects : ClassificationSettings.selectedSorts
      { sorts := some (MethodSort.all.map (·.name)) } = .ok MethodSort.all := by
    decide +kernel
  obtain ⟨reports, accounts, classified⟩ := fullReports_account accepted selects
  exact ⟨pool, reports, accepted, selects, classified .sequential .unlimited, accounts,
    accounts.methods⟩

end ClassPool

end BridgeMethods
