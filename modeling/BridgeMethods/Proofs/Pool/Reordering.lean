import BridgeMethods.Proofs.Pool.Change

/-!
# Methods in another order

Definitions may list the methods of a class in any order.  The order has no part in whether they are
accepted, and the pools that they become differ in the order of the methods only.
-/

namespace BridgeMethods

/-- Two definitions of a class differ at most in the order of the methods. -/
structure ClassDef.Reordered (definition other : ClassDef) : Prop where
  name : definition.name = other.name
  kind : definition.kind = other.kind
  modifiers : definition.modifiers = other.modifiers
  typeParameters : definition.typeParameters = other.typeParameters
  extending : definition.extending = other.extending
  methods : definition.methods.Perm other.methods

/-- Two classes differ at most in the order of the methods. -/
structure ClassEntry.Reordered (entry other : ClassEntry) : Prop where
  header : entry.toClassHeader = other.toClassHeader
  superReference : entry.superReference = other.superReference
  methods : entry.methods.Perm other.methods

/-- Two pools differ at most in the order in which their classes list the methods. -/
def ClassPool.Reordered (pool other : ClassPool) : Prop :=
  List.Forall₂ ClassEntry.Reordered pool.classes other.classes

theorem ClassDef.Reordered.refl (definition : ClassDef) : definition.Reordered definition :=
  ⟨rfl, rfl, rfl, rfl, rfl, .refl _⟩

theorem ClassEntry.Reordered.symm {entry other : ClassEntry} (reordered : entry.Reordered other) :
    other.Reordered entry :=
  ⟨reordered.header.symm, reordered.superReference.symm, reordered.methods.symm⟩

theorem ClassEntry.Reordered.name_eq {entry other : ClassEntry}
    (reordered : entry.Reordered other) : entry.name = other.name :=
  congrArg (·.name) reordered.header

/-- The order of the methods in a definition becomes the order in the class. -/
theorem ClassDef.Reordered.exists_describes {definition other : ClassDef}
    (reordered : definition.Reordered other) {entry : ClassEntry}
    (describes : definition.Describes entry) :
    ∃ otherEntry, other.Describes otherEntry ∧ entry.Reordered otherEntry := by
  obtain ⟨methods, described, sameMethods⟩ :=
    List.perm_comp_forall₂ reordered.methods.symm describes.methods
  have parameterNames := ClassDef.parameterNames_congr reordered.typeParameters
  have header : other.DescribesHeader entry.toClassHeader := {
    name := describes.name.trans reordered.name
    isInterface := reordered.kind ▸ describes.isInterface
    flags := reordered.modifiers ▸ describes.flags
    typeParameters := parameterNames ▸ reordered.typeParameters ▸ describes.typeParameters }
  exact ⟨⟨entry.toClassHeader, entry.superReference, methods⟩,
    ⟨header, parameterNames ▸ described⟩, rfl, rfl, sameMethods.symm⟩

theorem ClassDef.Reordered.sameRole {definition other : ClassDef}
    (reordered : definition.Reordered other) : definition.SameRole other :=
  ⟨reordered.name, reordered.kind, congrArg List.length reordered.typeParameters⟩

theorem ClassEntry.Reordered.congruent {entry other : ClassEntry}
    (reordered : entry.Reordered other) : entry.Congruent other where
  name := reordered.name_eq
  superName := by rw [reordered.superReference]
  tokensDistinct := fun distinct => distinct.congr reordered.header reordered.methods

namespace ClassPool

variable {definitions others : List ClassDef} {pool other : ClassPool}

theorem Means.exists_reordered (means : pool.Means definitions)
    (reordered : List.Forall₂ ClassDef.Reordered definitions others) :
    ∃ other : ClassPool, other.Means others ∧ pool.Reordered other := by
  apply means.exists_changed reordered fun _ _ same => same.name
  intro definition otherDefinition same entry _ describes doesExtend
  rcases same.exists_describes describes with ⟨otherEntry, otherDescribes, sameEntry⟩
  have otherExtends : otherDefinition.Extends others entry.superReference :=
    doesExtend.congr same.name same.kind same.typeParameters same.extending
      fun _ _ refers => refers.congr (reordered.imp fun _ _ same => same.sameRole)
  exact ⟨otherEntry, otherDescribes, sameEntry.superReference ▸ otherExtends, sameEntry⟩

theorem Reordered.consistent (reordered : pool.Reordered other) (consistent : pool.Consistent) :
    other.Consistent :=
  consistent.congr (List.Forall₂.imp (fun _ _ same => same.congruent) reordered)

/-- Classes of one name correspond. -/
theorem Reordered.entry_reordered (reordered : pool.Reordered other)
    (distinct : (other.classes.map (·.name)).Nodup) {entry otherEntry : ClassEntry}
    (member : entry ∈ pool.classes) (otherMember : otherEntry ∈ other.classes)
    (sameName : entry.name = otherEntry.name) : entry.Reordered otherEntry := by
  rcases List.Forall₂.exists_of_mem_left reordered member with ⟨found, foundMember, same⟩
  obtain rfl : found = otherEntry := List.inj_on_of_nodup_map distinct foundMember otherMember
    (same.name_eq.symm.trans sameName)
  exact same

/-- Definitions are accepted with their methods in any order. -/
theorem ofDefinitions_reordered (accepted : ofDefinitions definitions = .ok pool)
    (reordered : List.Forall₂ ClassDef.Reordered definitions others) :
    ∃ other, ofDefinitions others = .ok other ∧ pool.Reordered other := by
  rcases ofDefinitions_eq_ok_iff.mp accepted with ⟨means, consistent⟩
  have completed : List.Forall₂ ClassDef.Reordered (withRoot definitions) (withRoot others) :=
    forall₂_withRoot reordered (fun _ _ same => same.name) ClassDef.Reordered.refl
  rcases means.exists_reordered completed with ⟨other, otherMeans, same⟩
  exact ⟨other, ofDefinitions_eq_ok_iff.mpr ⟨otherMeans, same.consistent consistent⟩, same⟩

end ClassPool

/-! ## A method that comes first -/

/-- The definition of a class with one of its methods before all others. -/
def ClassDef.withFirst (definition : ClassDef) (method : MethodDef) : ClassDef :=
  { definition with methods := method :: definition.methods.erase method }

/-- Definitions in which one class lists one of its methods before all others. -/
def ClassDef.bringFirst (definitions : List ClassDef) (definition : ClassDef)
    (method : MethodDef) : List ClassDef :=
  definitions.map fun other => if other = definition then definition.withFirst method else other

theorem ClassDef.bringFirst_reordered {definitions : List ClassDef} {definition : ClassDef}
    {method : MethodDef} (member : method ∈ definition.methods) :
    List.Forall₂ Reordered definitions (bringFirst definitions definition method) := by
  rw [bringFirst, List.forall₂_map_right_iff, List.forall₂_same]
  intro other _
  split_ifs with same
  · rw [same]
    exact ⟨rfl, rfl, rfl, rfl, rfl, List.perm_cons_erase member⟩
  · exact .refl other

theorem ClassDef.withFirst_mem_bringFirst {definitions : List ClassDef} {definition : ClassDef}
    (member : definition ∈ definitions) (method : MethodDef) :
    definition.withFirst method ∈ bringFirst definitions definition method :=
  List.mem_map.mpr ⟨definition, member, if_pos rfl⟩

/-- Every method of a class comes first in some order. -/
theorem ClassPool.exists_reordered_with_first {definitions : List ClassDef} {pool : ClassPool}
    (accepted : ofDefinitions definitions = .ok pool) {entry : ClassEntry}
    (member : entry ∈ pool.classes) {method : MethodEntry} (methodMember : method ∈ entry.methods) :
    ∃ others other, List.Forall₂ ClassDef.Reordered definitions others ∧
      ofDefinitions others = .ok other ∧ pool.Reordered other ∧
      ∀ otherEntry ∈ other.classes, otherEntry.name = entry.name →
        otherEntry.methods.head? = some method := by
  have means := (ofDefinitions_eq_ok_iff.mp accepted).1
  rcases means.described.exists_of_mem_right member with ⟨definition, definitionMember, describes⟩
  rcases describes.methods.exists_of_mem_right methodMember with
    ⟨methodDef, methodDefMember, methodDescribes⟩
  have defined : definition ∈ definitions := by
    rcases mem_or_eq_of_mem_withRoot definitionMember with defined | rfl
    · exact defined
    · contradiction
  have reordered : List.Forall₂ ClassDef.Reordered definitions
      (ClassDef.bringFirst definitions definition methodDef) :=
    ClassDef.bringFirst_reordered methodDefMember
  rcases ofDefinitions_reordered accepted reordered with ⟨other, otherAccepted, same⟩
  have otherMeans := (ofDefinitions_eq_ok_iff.mp otherAccepted).1
  have otherDefined := subset_withRoot (ClassDef.withFirst_mem_bringFirst defined methodDef)
  rcases otherMeans.described.exists_of_mem_left otherDefined with
    ⟨firstEntry, firstMember, firstDescribes⟩
  refine ⟨_, other, reordered, otherAccepted, same, fun otherEntry otherMember named => ?_⟩
  obtain rfl : firstEntry = otherEntry := List.inj_on_of_nodup_map otherMeans.names_nodup
    firstMember otherMember (firstDescribes.name.trans (describes.name.symm.trans named.symm))
  -- The definition that now comes first describes one method only, so this is the first method.
  rcases List.forall₂_cons_left_iff.mp firstDescribes.methods with
    ⟨first, rest, firstMethodDescribes, _, methods⟩
  rw [methods, List.head?_cons, methodDescribes.unique firstMethodDescribes]

end BridgeMethods
