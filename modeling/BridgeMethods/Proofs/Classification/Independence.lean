import BridgeMethods.Definition.Scenario
import BridgeMethods.Proofs.Classification.Locality
import BridgeMethods.Proofs.Classification.Selection
import BridgeMethods.Proofs.Pool.Union

/-!
# Independent hierarchies are classified side by side

A part of a pool is a `Simulation` of itself in the whole pool, so its methods are of the same sorts
in both.  The reports on two independent hierarchies, put one after the other, are then the reports
on the one followed by those on the other.  The types that the expressions of a hierarchy mention
are only names: it does not matter whether the other hierarchy defines them.
-/

namespace BridgeMethods

namespace ClassPool

variable {part pool firstPool secondPool : ClassPool} {first second : List ClassDef}

theorem owner_mem_of_mem_methods {method : MethodView} (member : method ∈ pool.methods) :
    method.owner.entry ∈ pool.classes := by
  rcases List.mem_flatMap.mp member with ⟨view, viewMember, methodMember⟩
  rcases List.mem_map.mp viewMember with ⟨entry, entryMember, rfl⟩
  rw [TypeView.owner_of_mem_methods methodMember]
  exact entryMember

namespace PartOf

variable {method : MethodView}

/-- The name of a class of a part leads to the same class in the part and in the pool. -/
theorem exists_lookup? (isPart : part.PartOf pool) {name : String}
    (defined : ∃ entry ∈ part.classes, entry.name = name) :
    ∃ entry ∈ part.classes, part.lookup? name = some entry ∧ pool.lookup? name = some entry := by
  cases found : part.lookup? name with
  | none =>
      rcases defined with ⟨entry, member, named⟩
      exact absurd named (lookup?_eq_none_iff.mp found entry member)
  | some entry =>
      have member : entry ∈ part.classes := List.mem_of_find?_eq_some found
      have named : entry.name = name := by simpa using List.find?_some found
      exact ⟨entry, member, rfl,
        (lookup?_eq_some_iff isPart.distinct).mpr ⟨isPart.subset member, named⟩⟩

theorem simulationFor (isPart : part.PartOf pool) (name : String) :
    SimulationFor name part pool fun entry other => entry = other ∧ entry ∈ part.classes where
  header := by
    rintro entry _ ⟨rfl, _⟩
    exact .refl entry.toClassHeader
  superReference := by
    rintro entry _ ⟨rfl, _⟩
    rfl
  target := by
    rintro entry _ ⟨rfl, member⟩ reference extended
    have subclass : part.Subclass entry.name reference.name :=
      ⟨entry, member, rfl, reference, extended, rfl⟩
    obtain ⟨target, targetMember, found, otherFound⟩ :=
      isPart.exists_lookup? (isPart.closed _ _ subclass)
    rw [found, otherFound]
    exact .some ⟨rfl, targetMember⟩
  methods := by
    rintro entry _ ⟨rfl, _⟩
    exact List.forall₂_same.mpr fun method _ => .refl method

theorem sortsOf_eq (isPart : part.PartOf pool) (acyclic : Acyclic part.Subclass)
    (poolAcyclic : Acyclic pool.Subclass) (member : method.owner.entry ∈ part.classes) :
    part.sortsOf method = pool.sortsOf method :=
  (isPart.simulationFor method.internalName).sortsOf_eq acyclic poolAcyclic member
    (isPart.subset member) ⟨⟨rfl, member⟩, rfl⟩ (.refl method) rfl

/-- What is reported on the methods of a part does not depend on what else is in the pool. -/
theorem map_ofMethod_eq (isPart : part.PartOf pool) (acyclic : Acyclic part.Subclass)
    (poolAcyclic : Acyclic pool.Subclass) (selected : List MethodSort) :
    part.methods.map (MethodReport.ofMethod part selected) =
      part.methods.map (MethodReport.ofMethod pool selected) := by
  refine List.map_congr_left fun method member => ?_
  rw [MethodReport.ofMethod, MethodReport.ofMethod,
    isPart.sortsOf_eq acyclic poolAcyclic (owner_mem_of_mem_methods member)]

end PartOf

/-- The root that is left out of a join has no methods. -/
theorem methods_join (means : firstPool.Means (withRoot first))
    (rootless : ∀ definition ∈ first, definition.name ≠ objectName) :
    (firstPool.join secondPool).methods = firstPool.methods ++ secondPool.methods := by
  obtain ⟨entries, classes, _⟩ := means.exists_classes_eq rootless
  have rootMethods : (TypeView.declaration .implicitRoot).methods = [] := rfl
  simp only [methods, types, join, classes, List.dropLast_concat, List.map_append,
    List.flatMap_append, List.map_cons, List.map_nil, List.flatMap_cons, List.flatMap_nil,
    rootMethods, List.append_nil]

theorem reports_join (accepted : ofDefinitions first = .ok firstPool)
    (otherAccepted : ofDefinitions second = .ok secondPool)
    (independent : ClassDef.Independent first second) (settings : ClassificationSettings)
    (selected : List MethodSort) :
    (firstPool.join secondPool).reports settings selected =
      firstPool.reports settings selected ++ secondPool.reports settings selected := by
  have isPart := partOf_join_left accepted otherAccepted independent
  have otherIsPart := partOf_join_right accepted otherAccepted independent
  rcases ofDefinitions_eq_ok_iff.mp accepted with ⟨means, consistent⟩
  rcases ofDefinitions_eq_ok_iff.mp otherAccepted with ⟨_, otherConsistent⟩
  have acyclic := (consistent_join accepted otherAccepted independent).acyclic
  rw [reports, methods_join means independent.firstRootless, List.map_append, List.filter_append,
    ← isPart.map_ofMethod_eq consistent.acyclic acyclic,
    ← otherIsPart.map_ofMethod_eq otherConsistent.acyclic acyclic]
  rfl

/-- Two lists of definitions, each of them accepted, that have no type name in common and do not
define the root are accepted one after the other.  Whatever the settings are, the reports on both
are those on the first followed by those on the second; settings that name an unknown sort are
refused with the same error for both together as for each of them.  So it is for a single thread,
and for any number of threads that can be started. -/
theorem classify_append (accepted : ofDefinitions first = .ok firstPool)
    (otherAccepted : ofDefinitions second = .ok secondPool)
    (independent : ClassDef.Independent first second) :
    ∃ pool, ofDefinitions (first ++ second) = .ok pool ∧
      ∀ settings : ClassificationSettings,
        (∀ unknown, settings.firstUnknown? = some unknown → ∀ parallel threads,
          firstPool.classify settings parallel threads = .error (.unknownSort unknown) ∧
            secondPool.classify settings parallel threads = .error (.unknownSort unknown) ∧
            pool.classify settings parallel threads = .error (.unknownSort unknown)) ∧
        (settings.firstUnknown? = none → ∃ reports otherReports, ∀ parallel threads,
          firstPool.classify settings parallel threads =
              (parallel.startThreads threads).map (fun _ => reports) ∧
            secondPool.classify settings parallel threads =
              (parallel.startThreads threads).map (fun _ => otherReports) ∧
            pool.classify settings parallel threads =
              (parallel.startThreads threads).map fun _ => reports ++ otherReports) := by
  refine ⟨firstPool.join secondPool,
    ofDefinitions_append accepted otherAccepted independent, fun settings => ⟨?_, ?_⟩⟩
  · intro unknown found parallel threads
    exact ⟨classify_eq_error found _, classify_eq_error found _, classify_eq_error found _⟩
  · intro known
    obtain ⟨selected, selects⟩ := ClassificationSettings.exists_selectedSorts known
    refine ⟨_, _, fun parallel threads =>
      ⟨classify_eq_map selects _, classify_eq_map selects _, ?_⟩⟩
    rw [classify_eq_map selects, reports_join accepted otherAccepted independent]

/-- A hierarchy whose type expressions mention classes of `Scenario.closestTypeVariableAncestor`,
none of which it defines. -/
def mentioningOthers : List ClassDef := [
  { name := "user.Box", typeParameters := [{ name := "T", bound := some "chain.tv.Top" }]
    methods := [{ name := "put", parameters := ["T"] }] },
  { name := "user.Sub", extending := some "user.Box<chain.tv.Mid<java.lang.String>>"
    methods := [
      { name := "put", parameters := ["chain.tv.Mid<java.lang.String>"] },
      { name := "put", modifiers := [.bridge], parameters := ["chain.tv.Top"] }] }]

theorem classify_append_scenario :
    ∃ pool otherPool bothPool,
      ofDefinitions Scenario.closestTypeVariableAncestor = .ok pool ∧
      ofDefinitions mentioningOthers = .ok otherPool ∧
      ClassDef.Independent Scenario.closestTypeVariableAncestor mentioningOthers ∧
      ofDefinitions (Scenario.closestTypeVariableAncestor ++ mentioningOthers) = .ok bothPool ∧
      bothPool.classify { sorts := some ["method", "bogus"] } = .error (.unknownSort "bogus") ∧
      ∃ reports otherReports, pool.classify {} = .ok reports ∧
        otherPool.classify {} = .ok otherReports ∧
        bothPool.classify {} = .ok (reports ++ otherReports) := by
  obtain ⟨pool, otherPool, accepted, otherAccepted⟩ :
      ∃ pool otherPool, ofDefinitions Scenario.closestTypeVariableAncestor = .ok pool ∧
        ofDefinitions mentioningOthers = .ok otherPool := ⟨_, _, rfl, rfl⟩
  have independent : ClassDef.Independent Scenario.closestTypeVariableAncestor mentioningOthers :=
    ⟨by decide +kernel, by decide +kernel, by decide +kernel⟩
  obtain ⟨bothPool, bothAccepted, classified⟩ := classify_append accepted otherAccepted independent
  have unknown : ClassificationSettings.firstUnknown? { sorts := some ["method", "bogus"] } =
      some "bogus" := by decide +kernel
  obtain ⟨reports, otherReports, inParts⟩ := (classified {}).2 rfl
  exact ⟨pool, otherPool, bothPool, accepted, otherAccepted, independent, bothAccepted,
    ((classified _).1 "bogus" unknown .sequential .unlimited).2.2, reports, otherReports,
    inParts .sequential .unlimited⟩

end ClassPool

end BridgeMethods
