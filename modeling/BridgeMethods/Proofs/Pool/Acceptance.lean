import BridgeMethods.Proofs.Pool.Hierarchy
import BridgeMethods.Proofs.View.Alike

/-!
# Accepted definitions

Which lists of definitions become a pool, said about the definitions alone: `ValidHierarchy` speaks
of texts that can be read, of names and of the relation between a class and its super class.  The
passes of the builder, the order in which they are made and the errors that they give do not occur.
-/

namespace BridgeMethods

/-- A text is a type expression. -/
def Readable (text : String) : Prop :=
  ∃ t, TypeExpr.parse text = .ok t

/-- The texts of a method definition: the bounds of its type parameters, the return type and the
parameter types. -/
def MethodDef.texts (definition : MethodDef) : List String :=
  definition.typeParameters.filterMap (·.bound) ++ definition.returns :: definition.parameters

/-- The texts of a class definition, that of its super class excepted. -/
def ClassDef.texts (definition : ClassDef) : List String :=
  definition.typeParameters.filterMap (·.bound) ++ definition.methods.flatMap MethodDef.texts

theorem ClassDef.mem_texts_of_method {definition : ClassDef} {method : MethodDef} {text : String}
    (member : method ∈ definition.methods) (isText : text ∈ method.texts) :
    text ∈ definition.texts :=
  List.mem_append_right _ (List.mem_flatMap.mpr ⟨method, member, isText⟩)

/-- The first name is that of a class whose super class, by its definition, has the second name. -/
def ClassDef.Subclass (definitions : List ClassDef) (sub super : String) : Prop :=
  ∃ definition ∈ definitions, definition.name = sub ∧
    ∃ reference, definition.Extends definitions (some reference) ∧ reference.name = super

/-- The definitions that are accepted. -/
structure ValidHierarchy (definitions : List ClassDef) : Prop where
  /-- No two types have one name. -/
  distinct : (definitions.map (·.name)).Nodup
  /-- Bounds, return types and parameter types are type expressions. -/
  readable : ∀ definition ∈ definitions, ∀ text ∈ definition.texts, Readable text
  /-- No interface extends a class. -/
  interfaces : ∀ definition ∈ definitions, definition.kind = .interface →
    definition.extending = none
  /-- What a class extends is a class of the list, applied to as many arguments as it takes. -/
  superTypes : ∀ definition ∈ definitions, definition.kind = .class →
    ∀ text, definition.extending = some text →
      ∃ t reference, Denotes definition.parameterNames text t ∧
        SuperReference.Refers definitions t reference
  /-- No class is above itself. -/
  acyclic : Acyclic (ClassDef.Subclass definitions)
  /-- No two methods of a type agree in name, erased return type and erased parameter types. -/
  tokensDistinct : ∀ definition ∈ definitions, ∀ entry, definition.Describes entry →
    entry.TokensDistinct

/-! ## What can be described -/

theorem exists_denotes_iff {scope : List String} {text : String} :
    (∃ t, Denotes scope text t) ↔ Readable text := by
  constructor
  · rintro ⟨_, written, parsed, _⟩
    exact ⟨written, parsed⟩
  · rintro ⟨written, parsed⟩
    exact ⟨_, written, parsed, rfl⟩

theorem ValidHierarchy.readable_extending {definitions : List ClassDef}
    (valid : ValidHierarchy definitions) {definition : ClassDef} (member : definition ∈ definitions)
    {text : String} (extended : definition.extending = some text) : Readable text := by
  cases kind : definition.kind with
  | interface =>
      rw [valid.interfaces definition member kind] at extended
      contradiction
  | «class» =>
      obtain ⟨t, _, denotes, _⟩ := valid.superTypes definition member kind text extended
      exact exists_denotes_iff.mp ⟨t, denotes⟩

theorem TypeVariableDef.exists_describes_iff {scope : List String}
    {definition : TypeVariableDef} :
    (∃ parameter, definition.Describes scope parameter) ↔
      ∀ text, definition.bound = some text → Readable text := by
  rcases definition with ⟨name, bound⟩
  constructor
  · rintro ⟨parameter, _, boundDenotes⟩ text rfl
    exact exists_denotes_iff.mp ⟨_, boundDenotes⟩
  · intro readable
    cases bound with
    | none => exact ⟨⟨name, .object⟩, rfl, rfl⟩
    | some text =>
        rcases exists_denotes_iff.mpr (readable text rfl) with ⟨t, denotes⟩
        exact ⟨⟨name, t⟩, rfl, denotes⟩

theorem exists_typeParameters_iff {scope : List String} {definitions : List TypeVariableDef} :
    (∃ parameters, List.Forall₂ (TypeVariableDef.Describes scope) definitions parameters) ↔
      ∀ text ∈ definitions.filterMap (·.bound), Readable text := by
  rw [List.exists_forall₂_iff]
  simp only [TypeVariableDef.exists_describes_iff, List.mem_filterMap]
  constructor
  · rintro readable text ⟨definition, member, bounded⟩
    exact readable definition member text bounded
  · intro readable definition member text bounded
    exact readable text ⟨definition, member, bounded⟩

theorem MethodDef.exists_describes_iff {outer : List String} {definition : MethodDef} :
    (∃ entry, definition.Describes outer entry) ↔ ∀ text ∈ definition.texts, Readable text := by
  rw [texts, List.forall_mem_append, List.forall_mem_cons]
  constructor
  · rintro ⟨entry, describes⟩
    refine ⟨exists_typeParameters_iff.mp ⟨_, describes.typeParameters⟩,
      exists_denotes_iff.mp ⟨_, describes.returnType⟩, fun text member => ?_⟩
    rcases describes.parameterTypes.exists_of_mem_left member with ⟨t, _, denotes⟩
    exact exists_denotes_iff.mp ⟨t, denotes⟩
  · rintro ⟨boundsReadable, returnReadable, parametersReadable⟩
    rcases exists_typeParameters_iff.mpr boundsReadable with ⟨typeParameters, described⟩
    rcases exists_denotes_iff.mpr returnReadable with ⟨returnType, denotes⟩
    obtain ⟨parameterTypes, denote⟩ := List.exists_forall₂_iff.mpr fun text member =>
      exists_denotes_iff.mpr (parametersReadable text member)
    exact ⟨⟨definition.name, .ofModifiers definition.modifiers, typeParameters, returnType,
      parameterTypes⟩, rfl, rfl, described, denotes, denote⟩

theorem ClassDef.exists_describes_iff {definition : ClassDef}
    {reference : Option SuperReference} :
    (∃ entry, definition.Describes entry ∧ entry.superReference = reference) ↔
      ∀ text ∈ definition.texts, Readable text := by
  rw [texts, List.forall_mem_append, List.forall_mem_flatMap]
  constructor
  · rintro ⟨entry, describes, _⟩
    refine ⟨exists_typeParameters_iff.mp ⟨_, describes.typeParameters⟩, fun method member => ?_⟩
    rcases describes.methods.exists_of_mem_left member with ⟨methodEntry, _, methodDescribes⟩
    exact MethodDef.exists_describes_iff.mp ⟨methodEntry, methodDescribes⟩
  · rintro ⟨boundsReadable, methodsReadable⟩
    rcases exists_typeParameters_iff.mpr boundsReadable with ⟨typeParameters, described⟩
    obtain ⟨methods, methodsDescribed⟩ := List.exists_forall₂_iff.mpr fun method member =>
      MethodDef.exists_describes_iff.mpr (methodsReadable method member)
    let header : ClassHeader :=
      ⟨definition.name, decide (definition.kind = .interface), .ofModifiers definition.modifiers,
        typeParameters⟩
    exact ⟨⟨header, reference, methods⟩, ⟨⟨rfl, rfl, rfl, described⟩, methodsDescribed⟩, rfl⟩

theorem ClassDef.exists_extends_iff {definitions : List ClassDef} {definition : ClassDef} :
    (∃ reference, definition.Extends definitions reference) ↔
      (definition.kind = .interface → definition.extending = none) ∧
        (definition.kind = .class → ∀ text, definition.extending = some text →
          ∃ t reference, Denotes definition.parameterNames text t ∧
            SuperReference.Refers definitions t reference) := by
  constructor
  · rintro ⟨_, doesExtend⟩
    cases doesExtend with
    | interface isInterface extending => simp [isInterface, extending]
    | root isClass extending => simp [isClass, extending]
    | implicit isClass extending => simp [isClass, extending]
    | explicit isClass extending denotes refers =>
        refine ⟨by simp [isClass], fun _ text extending' => ?_⟩
        obtain rfl : _ = text := Option.some.inj (extending.symm.trans extending')
        exact ⟨_, _, denotes, refers⟩
  · rintro ⟨interfaces, superTypes⟩
    cases kind : definition.kind with
    | interface => exact ⟨none, .interface kind (interfaces kind)⟩
    | «class» =>
        cases extending : definition.extending with
        | none =>
            by_cases isRoot : definition.name = objectName
            · exact ⟨none, .root kind extending isRoot⟩
            · exact ⟨_, .implicit kind extending isRoot⟩
        | some text =>
            rcases superTypes kind text extending with ⟨t, reference, denotes, refers⟩
            exact ⟨_, .explicit kind extending denotes refers⟩

/-! ## What is described is unique -/

theorem ClassDef.Describes.toClassHeader_eq {definition : ClassDef} {entry other : ClassEntry}
    (describes : definition.Describes entry) (otherDescribes : definition.Describes other) :
    entry.toClassHeader = other.toClassHeader := by
  have read := ClassHeader.ofDefinition_eq_ok_iff.mpr describes.toDescribesHeader
  have otherRead := ClassHeader.ofDefinition_eq_ok_iff.mpr otherDescribes.toDescribesHeader
  exact Except.ok.inj (read.symm.trans otherRead)

/-- A definition means the same class whatever the other definitions are. -/
theorem ClassDef.Describes.unique {definition : ClassDef} {entry other : ClassEntry}
    (describes : definition.Describes entry) (otherDescribes : definition.Describes other)
    {definitions others : List ClassDef}
    (doesExtend : definition.Extends definitions entry.superReference)
    (otherExtends : definition.Extends others other.superReference) : entry = other := by
  have header := describes.toClassHeader_eq otherDescribes
  have superReference := doesExtend.unique otherExtends
  have methods := describes.methods_eq otherDescribes
  rw [ClassEntry.mk.injEq]
  exact ⟨header, superReference, methods⟩

/-- The order of the methods does not matter for their tokens. -/
theorem ClassEntry.TokensDistinct.congr {entry other : ClassEntry}
    (header : entry.toClassHeader = other.toClassHeader)
    (methods : entry.methods.Perm other.methods) (distinct : entry.TokensDistinct) :
    other.TokensDistinct := by
  have token (method : MethodEntry) :
      (MethodView.mk (.declaration entry) method).token =
        (MethodView.mk (.declaration other) method).token := by
    apply MethodView.Alike.token_eq
    exact ⟨⟨header ▸ .refl entry.toClassHeader, rfl⟩, .refl method⟩
  rw [tokensDistinct_iff] at distinct ⊢
  simp only [token] at distinct
  exact (methods.map _).nodup distinct

namespace ClassPool.Means

variable {definitions : List ClassDef} {pool : ClassPool}

/-- The classes of a pool are related as their definitions are. -/
theorem subclass_iff (means : pool.Means definitions) {sub super : String} :
    pool.Subclass sub super ↔ ClassDef.Subclass definitions sub super := by
  constructor
  · rintro ⟨entry, member, rfl, reference, extended, superName⟩
    obtain ⟨definition, definitionMember, describes, doesExtend⟩ :=
      means.classes.exists_of_mem_right member
    exact ⟨definition, definitionMember, describes.name.symm, reference, extended ▸ doesExtend,
      superName⟩
  · rintro ⟨definition, member, rfl, reference, doesExtend, superName⟩
    obtain ⟨entry, entryMember, describes, entryExtends⟩ :=
      means.classes.exists_of_mem_left member
    exact ⟨entry, entryMember, describes.name, reference,
      entryExtends.unique doesExtend, superName⟩

theorem subclass_eq (means : pool.Means definitions) :
    pool.Subclass = ClassDef.Subclass definitions :=
  funext fun _ => funext fun _ => propext means.subclass_iff

theorem acyclic_iff (means : pool.Means definitions) :
    Acyclic pool.Subclass ↔ Acyclic (ClassDef.Subclass definitions) := by
  rw [means.subclass_eq]

theorem validHierarchy (means : pool.Means definitions) (consistent : pool.Consistent) :
    ValidHierarchy definitions where
  distinct := means.distinct
  readable := by
    intro definition member
    rcases means.described.exists_of_mem_left member with ⟨entry, _, describes⟩
    exact ClassDef.exists_describes_iff.mp ⟨entry, describes, rfl⟩
  interfaces := by
    intro definition member
    rcases means.classes.exists_of_mem_left member with ⟨entry, _, _, doesExtend⟩
    exact (ClassDef.exists_extends_iff.mp ⟨_, doesExtend⟩).1
  superTypes := by
    intro definition member
    rcases means.classes.exists_of_mem_left member with ⟨entry, _, _, doesExtend⟩
    exact (ClassDef.exists_extends_iff.mp ⟨_, doesExtend⟩).2
  acyclic := means.acyclic_iff.mp consistent.acyclic
  tokensDistinct := by
    intro definition member entry describes
    rcases means.described.exists_of_mem_left member with ⟨other, otherMember, otherDescribes⟩
    exact (consistent.tokensDistinct other otherMember).congr
      (otherDescribes.toClassHeader_eq describes) (.of_eq (otherDescribes.methods_eq describes))

theorem consistent (means : pool.Means definitions) (valid : ValidHierarchy definitions) :
    pool.Consistent where
  acyclic := means.acyclic_iff.mpr valid.acyclic
  tokensDistinct := by
    intro entry member
    rcases means.described.exists_of_mem_right member with ⟨definition, definitionMember, describes⟩
    exact valid.tokensDistinct definition definitionMember entry describes

end ClassPool.Means

theorem ValidHierarchy.exists_means {definitions : List ClassDef}
    (valid : ValidHierarchy definitions) : ∃ pool : ClassPool, pool.Means definitions := by
  have each : ∀ definition ∈ definitions, ∃ entry : ClassEntry,
      definition.Describes entry ∧ definition.Extends definitions entry.superReference := by
    intro definition member
    obtain ⟨reference, doesExtend⟩ := ClassDef.exists_extends_iff.mpr
      ⟨valid.interfaces definition member, valid.superTypes definition member⟩
    obtain ⟨entry, describes, extended⟩ :=
      ClassDef.exists_describes_iff.mpr (valid.readable definition member)
    exact ⟨entry, describes, extended ▸ doesExtend⟩
  rcases List.exists_forall₂_iff.mpr each with ⟨classes, described⟩
  exact ⟨⟨classes⟩, valid.distinct, described⟩

/-- A list of definitions, completed with the root, becomes a pool if and only if it is a valid
hierarchy. -/
theorem ClassPool.accepts_iff_validHierarchy (definitions : List ClassDef) :
    (∃ pool, ofDefinitions definitions = .ok pool) ↔ ValidHierarchy (withRoot definitions) := by
  simp only [ofDefinitions_eq_ok_iff]
  constructor
  · rintro ⟨pool, means, consistent⟩
    exact means.validHierarchy consistent
  · intro valid
    rcases valid.exists_means with ⟨pool, means⟩
    exact ⟨pool, means, means.consistent valid⟩

end BridgeMethods
