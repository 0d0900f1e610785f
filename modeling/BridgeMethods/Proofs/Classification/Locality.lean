import BridgeMethods.Proofs.Flags
import BridgeMethods.Proofs.Pool.Acceptance
import BridgeMethods.Proofs.View.Root
import BridgeMethods.Proofs.View.Simulation

/-!
# Classification is local

The sorts of a method depend on its class, on the classes above it, and on what these declare under
the name of the method; nothing else in the hierarchy has a part in it.  The rules search all
methods of a class, but no rule can find a method of another name than it is asked for.  So the
classes of two pools need to agree only in the methods of one name for a `Simulation` between the
pools to carry over to the sorts of these methods.
-/

namespace BridgeMethods

/-! ## Methods of one name -/

/-- The methods that a class declares under a name. -/
def ClassEntry.methodsNamed (entry : ClassEntry) (name : String) : List MethodEntry :=
  entry.methods.filter (·.internalName = name)

/-- The methods that a type declares under a name. -/
def TypeView.methodsNamed (view : TypeView) (name : String) : List MethodView :=
  view.methods.filter (·.internalName = name)

theorem TypeView.methodsNamed_eq_map (view : TypeView) (name : String) :
    view.methodsNamed name = (view.entry.methodsNamed name).map fun entry => ⟨view, entry⟩ := by
  rw [methodsNamed, methods, List.filter_map]
  rfl

theorem TypeView.overridableWith?_eq_find?_methodsNamed (view : TypeView) (token : MethodToken) :
    view.overridableWith? token =
      (view.methodsNamed token.internalName).find? (·.isOverridableWith token) := by
  rw [methodsNamed, overridableWith?_eq_find?, List.find?_filter_of_imp]
  intro method found
  rw [MethodView.isOverridableWith, Bool.and_eq_true, decide_eq_true_iff] at found
  rw [decide_eq_true_iff, ← found.2]
  rfl

theorem TypeView.declaredWith?_eq_find?_methodsNamed (view : TypeView) (token : MethodToken) :
    view.declaredWith? token =
      (view.methodsNamed token.internalName).find? (·.asDeclared.token = token) := by
  rw [methodsNamed, declaredWith?, List.find?_filter_of_imp]
  intro method found
  rw [decide_eq_true_iff] at found ⊢
  rw [← found]
  rfl

theorem MethodView.isReturnTypeBridge_eq_methodsNamed (method : MethodView) :
    method.isReturnTypeBridge = (method.isBridge &&
      (method.owner.methodsNamed method.internalName).any method.isSiblingOf) := by
  rw [isReturnTypeBridge_eq, TypeView.methodsNamed, List.any_filter]
  refine congrArg (method.isBridge && method.owner.methods.any ·) (funext fun candidate => ?_)
  cases sibling : method.isSiblingOf candidate with
  | false => rw [Bool.and_false]
  | true =>
      rw [isSiblingOf, Bool.and_eq_true, Bool.and_eq_true] at sibling
      rw [sibling.1.2, Bool.true_and]

/-! ## Pools that agree in the methods of one name -/

/-- Related classes also declare the same methods of a name, up to what is not seen. -/
structure ClassPool.SimulationFor (name : String) (pool other : ClassPool)
    (related : ClassEntry → ClassEntry → Prop) : Prop extends pool.Simulation other related where
  methods : ∀ entry entry', related entry entry' →
    List.Forall₂ MethodEntry.Alike (entry.methodsNamed name) (entry'.methodsNamed name)

namespace ClassPool.SimulationFor

variable {pool other : ClassPool} {related : ClassEntry → ClassEntry → Prop} {name : String}
  {view otherView : TypeView} {method otherMethod : MethodView}

theorem methodsNamed_correspond (simulation : SimulationFor name pool other related)
    (start : view.Related related otherView) :
    List.Forall₂ MethodView.Corresponds (view.methodsNamed name) (otherView.methodsNamed name) := by
  rw [TypeView.methodsNamed_eq_map, TypeView.methodsNamed_eq_map, List.forall₂_map_left_iff,
    List.forall₂_map_right_iff]
  apply (simulation.methods _ _ start.entry).imp
  intro entry otherEntry entryAlike
  have alike : (MethodView.mk view entry).Alike ⟨otherView, otherEntry⟩ :=
    ⟨simulation.alike start, entryAlike⟩
  exact alike.corresponds

theorem overridableWith?_rel (simulation : SimulationFor name pool other related)
    (start : view.Related related otherView) {token : MethodToken}
    (named : token.internalName = name) :
    Option.Rel MethodView.Corresponds (view.overridableWith? token)
      (otherView.overridableWith? token) := by
  rw [view.overridableWith?_eq_find?_methodsNamed, otherView.overridableWith?_eq_find?_methodsNamed,
    named]
  apply (simulation.methodsNamed_correspond start).find?_rel
  intro candidate otherCandidate corresponds
  exact corresponds.isOverridableWith_eq token

theorem declaredWith?_rel (simulation : SimulationFor name pool other related)
    (start : view.Related related otherView) {token : MethodToken}
    (named : token.internalName = name) :
    Option.Rel MethodView.Corresponds (view.declaredWith? token)
      (otherView.declaredWith? token) := by
  rw [view.declaredWith?_eq_find?_methodsNamed, otherView.declaredWith?_eq_find?_methodsNamed,
    named]
  apply (simulation.methodsNamed_correspond start).find?_rel
  intro candidate otherCandidate corresponds
  rw [corresponds.declaredToken]

theorem isReturnTypeBridge_eq (simulation : SimulationFor name pool other related)
    (start : method.owner.Related related otherMethod.owner)
    (corresponds : method.Corresponds otherMethod) (named : method.internalName = name) :
    method.isReturnTypeBridge = otherMethod.isReturnTypeBridge := by
  have siblings := (simulation.methodsNamed_correspond start).any_eq
    fun _ _ candidates => corresponds.isSiblingOf_eq candidates
  rw [method.isReturnTypeBridge_eq_methodsNamed, otherMethod.isReturnTypeBridge_eq_methodsNamed,
    corresponds.isBridge_eq, ← corresponds.internalName_eq, named, siblings]

/-- Along the related super types, both searches ask for the name of the method only. -/
theorem sortsOf_eq (simulation : SimulationFor name pool other related)
    (acyclic : Acyclic pool.Subclass) (otherAcyclic : Acyclic other.Subclass)
    (member : method.owner.entry ∈ pool.classes)
    (otherMember : otherMethod.owner.entry ∈ other.classes)
    (start : method.owner.Related related otherMethod.owner)
    (corresponds : method.Corresponds otherMethod)
    (named : method.internalName = name) : pool.sortsOf method = other.sortsOf otherMethod := by
  have superTypes := simulation.superTypes acyclic otherAcyclic member otherMember start
  apply sortsOf_eq_of_findings corresponds
  · exact simulation.isReturnTypeBridge_eq start corresponds named
  · apply superTypes.findSome?_rel
    intro view otherView related
    exact simulation.overridableWith?_rel related named
  · apply superTypes.findSome?_rel
    intro view otherView related
    exact simulation.declaredWith?_rel related named

theorem methodsNamed_sorted (simulation : SimulationFor name pool other related)
    (acyclic : Acyclic pool.Subclass) (otherAcyclic : Acyclic other.Subclass)
    (member : view.entry ∈ pool.classes) (otherMember : otherView.entry ∈ other.classes)
    (start : view.Related related otherView) :
    List.Forall₂ (fun method otherMethod : MethodView =>
        method.signature = otherMethod.signature ∧
          pool.sortsOf method = other.sortsOf otherMethod)
      (view.methodsNamed name) (otherView.methodsNamed name) := by
  apply (simulation.methodsNamed_correspond start).imp_of_mem
  intro method methodMember otherMethod otherMethodMember corresponds
  have listed := List.mem_filter.mp methodMember
  have otherListed := List.mem_filter.mp otherMethodMember
  have owner : method.owner = view := TypeView.owner_of_mem_methods listed.1
  have otherOwner : otherMethod.owner = otherView := TypeView.owner_of_mem_methods otherListed.1
  have named : method.internalName = name := of_decide_eq_true listed.2
  refine ⟨corresponds.signature_eq, ?_⟩
  apply simulation.sortsOf_eq acyclic otherAcyclic _ _ _ corresponds named
  · rw [owner]
    exact member
  · rw [otherOwner]
    exact otherMember
  · rw [owner, otherOwner]
    exact start

end ClassPool.SimulationFor

/-! ## Definitions that agree in the methods of one name -/

/-- Two definitions of a method agree in what is seen. -/
structure MethodDef.Alike (definition other : MethodDef) : Prop where
  name : definition.name = other.name
  modifiers : ∀ m : Modifier, m.isUnseen = false →
    (m ∈ definition.modifiers ↔ m ∈ other.modifiers)
  typeParameters : definition.typeParameters = other.typeParameters
  returns : definition.returns = other.returns
  parameters : definition.parameters = other.parameters

/-- The methods that a class is defined with under a name. -/
def ClassDef.methodsNamed (definition : ClassDef) (name : String) : List MethodDef :=
  definition.methods.filter (·.name = name)

/-- Two definitions of a class agree in what is seen of the class, in its super class and in the
methods of a name. -/
structure ClassDef.AlikeFor (methodName : String) (definition other : ClassDef) : Prop where
  name : definition.name = other.name
  kind : definition.kind = other.kind
  isFinal : .final ∈ definition.modifiers ↔ .final ∈ other.modifiers
  typeParameters : definition.typeParameters = other.typeParameters
  extending : definition.extending = other.extending
  methods : List.Forall₂ MethodDef.Alike (definition.methodsNamed methodName)
    (other.methodsNamed methodName)

instance (definition other : MethodDef) : Decidable (definition.Alike other) :=
  decidable_of_iff
    (definition.name = other.name ∧
      (∀ m ∈ Modifier.all, m.isUnseen = false →
        (m ∈ definition.modifiers ↔ m ∈ other.modifiers)) ∧
      definition.typeParameters = other.typeParameters ∧ definition.returns = other.returns ∧
      definition.parameters = other.parameters)
    ⟨fun ⟨name, modifiers, typeParameters, returns, parameters⟩ =>
        ⟨name, fun m => modifiers m m.mem_all, typeParameters, returns, parameters⟩,
      fun alike => ⟨alike.name, fun m _ => alike.modifiers m, alike.typeParameters, alike.returns,
        alike.parameters⟩⟩

instance (methodName : String) (definition other : ClassDef) :
    Decidable (definition.AlikeFor methodName other) :=
  decidable_of_iff
    (definition.name = other.name ∧ definition.kind = other.kind ∧
      (.final ∈ definition.modifiers ↔ .final ∈ other.modifiers) ∧
      definition.typeParameters = other.typeParameters ∧ definition.extending = other.extending ∧
      List.Forall₂ MethodDef.Alike (definition.methodsNamed methodName)
        (other.methodsNamed methodName))
    ⟨fun ⟨name, kind, isFinal, typeParameters, extending, methods⟩ =>
        ⟨name, kind, isFinal, typeParameters, extending, methods⟩,
      fun alike => ⟨alike.name, alike.kind, alike.isFinal, alike.typeParameters, alike.extending,
        alike.methods⟩⟩

/-- Two classes agree in what is seen of the class, in its super class and in the methods of a
name. -/
structure ClassEntry.AlikeFor (methodName : String) (entry other : ClassEntry) : Prop where
  header : entry.toClassHeader.Alike other.toClassHeader
  superReference : entry.superReference = other.superReference
  methods : List.Forall₂ MethodEntry.Alike (entry.methodsNamed methodName)
    (other.methodsNamed methodName)

theorem MethodDef.Alike.entry_alike {definition other : MethodDef} (alike : definition.Alike other)
    {outer : List String} {entry otherEntry : MethodEntry}
    (describes : definition.Describes outer entry)
    (otherDescribes : other.Describes outer otherEntry) : entry.Alike otherEntry := by
  rcases definition with ⟨name, modifiers, typeParameters, returns, parameters⟩
  rcases other with ⟨_, otherModifiers, _, _, _⟩
  rcases alike with ⟨rfl, sameModifiers, rfl, rfl, rfl⟩
  exact {
    internalName := describes.internalName.trans otherDescribes.internalName.symm
    flags := by
      intro m seen
      rw [describes.flags, otherDescribes.flags]
      exact AccessFlags.has_ofModifiers_congr (sameModifiers m seen)
    typeParameters :=
      List.right_unique_forall₂' (TypeVariableDef.Describes.rightUnique _) describes.typeParameters
        otherDescribes.typeParameters
    returnType := describes.returnType.unique otherDescribes.returnType
    parameterTypes := List.right_unique_forall₂' (Denotes.rightUnique _) describes.parameterTypes
      otherDescribes.parameterTypes }

theorem ClassDef.Describes.methodsNamed {definition : ClassDef} {entry : ClassEntry}
    (describes : definition.Describes entry) (name : String) :
    List.Forall₂ (MethodDef.Describes definition.parameterNames) (definition.methodsNamed name)
      (entry.methodsNamed name) := by
  refine List.rel_filter (fun method methodEntry methodDescribes => ?_) describes.methods
  simp [methodDescribes.internalName]

theorem ClassDef.AlikeFor.entry_alikeFor {methodName : String} {definition other : ClassDef}
    (alike : definition.AlikeFor methodName other) {entry otherEntry : ClassEntry}
    (describes : definition.Describes entry) (otherDescribes : other.Describes otherEntry)
    {definitions otherDefinitions : List ClassDef}
    (doesExtend : definition.Extends definitions entry.superReference)
    (otherExtends : other.Extends otherDefinitions otherEntry.superReference) :
    entry.AlikeFor methodName otherEntry where
  header := by
    have parameterNames := ClassDef.parameterNames_congr alike.typeParameters
    exact {
      name := describes.name.trans (alike.name.trans otherDescribes.name.symm)
      isInterface := by rw [describes.isInterface, otherDescribes.isInterface, alike.kind]
      isFinal := by
        rw [describes.flags, otherDescribes.flags]
        exact AccessFlags.has_ofModifiers_congr alike.isFinal
      typeParameters := by
        have otherParameters := otherDescribes.typeParameters
        rw [← alike.typeParameters, ← parameterNames] at otherParameters
        exact List.right_unique_forall₂' (TypeVariableDef.Describes.rightUnique _)
          describes.typeParameters otherParameters }
  superReference := by
    have sameExtends := doesExtend.congr alike.name alike.kind alike.typeParameters alike.extending
      fun _ _ refers => refers
    exact sameExtends.unique otherExtends
  methods := by
    have otherMethods := otherDescribes.methodsNamed methodName
    rw [← ClassDef.parameterNames_congr alike.typeParameters] at otherMethods
    refine alike.methods.square (describes.methodsNamed methodName) otherMethods ?_
    exact fun _ _ _ _ alike describes otherDescribes => alike.entry_alike describes otherDescribes

/-! ## Two lists of definitions -/

/-- Two lists define a class and all classes above it alike, as far as the methods of a name are
concerned. -/
def ClassDef.AgreeFrom (className methodName : String) (definitions other : List ClassDef) : Prop :=
  ∀ ancestor, Relation.ReflTransGen (Subclass definitions) className ancestor →
    ∃ definition ∈ definitions, definition.name = ancestor ∧
      ∃ otherDefinition ∈ other, definition.AlikeFor methodName otherDefinition

/-- What is above a class of a completed list is defined in the list. -/
theorem ClassDef.exists_mem_of_above {definitions : List ClassDef} {className ancestor : String}
    (defined : ∃ definition ∈ ClassPool.withRoot definitions, definition.name = className)
    (above : Relation.ReflTransGen (Subclass (ClassPool.withRoot definitions)) className ancestor) :
    ∃ definition ∈ ClassPool.withRoot definitions, definition.name = ancestor := by
  cases above with
  | refl => exact defined
  | tail _ last =>
      rcases last with ⟨_, _, _, _, doesExtend, rfl⟩
      exact doesExtend.exists_target

namespace ClassPool

variable {definitions otherDefinitions : List ClassDef} {pool other : ClassPool}
  {className methodName : String}

theorem Means.exists_alikeFor (means : pool.Means definitions)
    (otherMeans : other.Means otherDefinitions)
    (agree : ClassDef.AgreeFrom className methodName definitions otherDefinitions)
    {ancestor : String}
    (above : Relation.ReflTransGen (ClassDef.Subclass definitions) className ancestor) :
    ∃ entry otherEntry, pool.lookup? ancestor = some entry ∧
      other.lookup? ancestor = some otherEntry ∧ entry.AlikeFor methodName otherEntry := by
  rcases agree ancestor above with ⟨definition, member, rfl, otherDefinition, otherMember, alike⟩
  rcases means.classes.exists_of_mem_left member with ⟨entry, entryMember, describes, doesExtend⟩
  rcases otherMeans.classes.exists_of_mem_left otherMember with
    ⟨otherEntry, otherEntryMember, otherDescribes, otherExtends⟩
  exact ⟨entry, otherEntry,
    (lookup?_eq_some_iff means.names_nodup).mpr ⟨entryMember, describes.name⟩,
    (lookup?_eq_some_iff otherMeans.names_nodup).mpr
      ⟨otherEntryMember, otherDescribes.name.trans alike.name.symm⟩,
    alike.entry_alikeFor describes otherDescribes doesExtend otherExtends⟩

/-- The classes from a class on, which have the same names in both pools, are related. -/
theorem Means.simulationFor (means : pool.Means definitions)
    (otherMeans : other.Means otherDefinitions)
    (agree : ClassDef.AgreeFrom className methodName definitions otherDefinitions) :
    SimulationFor methodName pool other fun entry otherEntry =>
      Relation.ReflTransGen (ClassDef.Subclass definitions) className entry.name ∧
        entry ∈ pool.classes ∧ entry.AlikeFor methodName otherEntry where
  header := fun _ _ related => related.2.2.header
  superReference := fun _ _ related => related.2.2.superReference
  methods := fun _ _ related => related.2.2.methods
  target := by
    rintro entry otherEntry ⟨above, member, _⟩ reference extended
    have subclass : ClassDef.Subclass definitions entry.name reference.name :=
      means.subclass_iff.mp ⟨entry, member, rfl, reference, extended, rfl⟩
    obtain ⟨target, otherTarget, found, otherFound, alike⟩ :=
      means.exists_alikeFor otherMeans agree (above.tail subclass)
    rcases (lookup?_eq_some_iff means.names_nodup).mp found with ⟨targetMember, targetName⟩
    rw [found, otherFound]
    exact .some ⟨targetName ▸ above.tail subclass, targetMember, alike⟩

/-- The methods of a name that a class declares are of the same sorts in two pools whose definitions
agree in the class, in the classes above it and in their methods of that name.  Neither other
classes nor the order of the classes matter, and neither do methods of other names or what the
classes and the methods say about access. -/
theorem classification_is_local (accepted : ofDefinitions definitions = .ok pool)
    (otherAccepted : ofDefinitions otherDefinitions = .ok other)
    (agree : ClassDef.AgreeFrom className methodName (withRoot definitions)
      (withRoot otherDefinitions)) :
    ∃ view otherView, pool.find? className = some view ∧ other.find? className = some otherView ∧
      List.Forall₂ (fun method otherMethod : MethodView =>
          method.signature = otherMethod.signature ∧
            pool.sortsOf method = other.sortsOf otherMethod)
        (view.methodsNamed methodName) (otherView.methodsNamed methodName) := by
  rcases ofDefinitions_eq_ok_iff.mp accepted with ⟨means, consistent⟩
  rcases ofDefinitions_eq_ok_iff.mp otherAccepted with ⟨otherMeans, otherConsistent⟩
  obtain ⟨entry, otherEntry, found, otherFound, alike⟩ :=
    means.exists_alikeFor otherMeans agree .refl
  rcases (lookup?_eq_some_iff means.names_nodup).mp found with ⟨member, rfl⟩
  rcases (lookup?_eq_some_iff otherMeans.names_nodup).mp otherFound with ⟨otherMember, _⟩
  refine ⟨.declaration entry, .declaration otherEntry, by rw [find?, found, Option.map_some],
    by rw [find?, otherFound, Option.map_some], ?_⟩
  exact (means.simulationFor otherMeans agree).methodsNamed_sorted consistent.acyclic
    otherConsistent.acyclic member otherMember ⟨⟨.refl, member, alike⟩, rfl⟩

/-- `Scenario.closestTypeVariableAncestor` among other classes and methods, in another order and
with other access. -/
def busyTypeVariableAncestor : List ClassDef := [
  { name := "chain.tv.Sub", modifiers := [.abstract]
    extending := some "chain.tv.Mid<java.lang.String>"
    methods := [
      { name := "get", returns := "T" },
      { name := "put", modifiers := [.protected], parameters := ["java.lang.String"] },
      { name := "put", modifiers := [.bridge], parameters := [objectName] }] },
  { name := "chain.tv.Other", extending := some "chain.tv.Sub"
    methods := [{ name := "put", modifiers := [.final], parameters := [objectName] }] },
  { name := "chain.tv.Mid", typeParameters := [{ name := "T" }], extending := some "chain.tv.Top"
    methods := [{ name := "put", parameters := ["T"] }] },
  { name := "chain.tv.Top"
    methods := [{ name := "put", modifiers := [.synthetic], parameters := [objectName] }] }]

theorem classification_is_local_scenario :
    ∃ pool other, ofDefinitions Scenario.closestTypeVariableAncestor = .ok pool ∧
      ofDefinitions busyTypeVariableAncestor = .ok other ∧
      ∃ view otherView, pool.find? "chain.tv.Sub" = some view ∧
        other.find? "chain.tv.Sub" = some otherView ∧
        List.Forall₂ (fun method otherMethod : MethodView =>
            method.signature = otherMethod.signature ∧
              pool.sortsOf method = other.sortsOf otherMethod)
          (view.methodsNamed "put") (otherView.methodsNamed "put") := by
  obtain ⟨pool, other, accepted, otherAccepted⟩ :
      ∃ pool other, ofDefinitions Scenario.closestTypeVariableAncestor = .ok pool ∧
        ofDefinitions busyTypeVariableAncestor = .ok other := ⟨_, _, rfl, rfl⟩
  have everywhere : ∀ definition ∈ withRoot Scenario.closestTypeVariableAncestor,
      ∃ otherDefinition ∈ withRoot busyTypeVariableAncestor,
        definition.AlikeFor "put" otherDefinition := by decide +kernel
  refine ⟨pool, other, accepted, otherAccepted,
    classification_is_local accepted otherAccepted fun ancestor above => ?_⟩
  obtain ⟨definition, member, named⟩ := ClassDef.exists_mem_of_above (by decide +kernel) above
  exact ⟨definition, member, named, everywhere definition member⟩

end ClassPool

end BridgeMethods
