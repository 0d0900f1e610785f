import BridgeMethods.Proofs.View.Renaming

/-!
# Definitions with renamed type parameters

In a definition a type parameter is a name, and so is everything that refers to it.  `Renames` says
of two definitions that the second one is the first one with other names for type parameters: the
leaves of the texts that refer to them have been renamed, but not those that are hidden by a type
parameter of a method.

If the new names occur nowhere in the definition, then each leaf refers to the renamed type
parameter exactly if it referred to it before, and the definition means the renamed class.
-/

namespace BridgeMethods

open Text (IsName)

/-- The names in a text that have no type arguments. -/
def leafNames (text : String) : List String :=
  match TypeExpr.parse text with
  | .ok t => t.leaves
  | .error _ => []

/-- The names of the type parameters in a definition, and all names that may refer to one. -/
def ClassDef.usedNames (definition : ClassDef) : List String :=
  definition.parameterNames ++ definition.methods.flatMap (·.parameterNames) ++
    (definition.texts ++ definition.extending.toList).flatMap leafNames

/-- Each of the names is kept or becomes an identifier that is not in use, and no two of them become
the same. -/
structure Freshens (used names : List String) (r : String → String) : Prop where
  keepsApart : KeepsApart r names names
  fresh : ∀ name ∈ names, r name = name ∨ IsName (r name) ∧ r name ∉ used

instance (used names : List String) (r : String → String) : Decidable (Freshens used names r) :=
  decidable_of_iff (KeepsApart r names names ∧
      ∀ name ∈ names, r name = name ∨ IsName (r name) ∧ r name ∉ used)
    ⟨fun ⟨keepsApart, fresh⟩ => ⟨keepsApart, fresh⟩,
      fun freshens => ⟨freshens.keepsApart, freshens.fresh⟩⟩

/-- Names that are declared here are renamed in one way, all others in the way of the outer
scope. -/
def renameIn (declared : List String) (inner outer : String → String) (name : String) : String :=
  if name ∈ declared then inner name else outer name

/-- The second text is the first one with other names for the leaves. -/
def RenamesText (r : String → String) (text other : String) : Prop :=
  ∃ t, TypeExpr.parse text = .ok t ∧ TypeExpr.parse other = .ok (t.rename r)

/-- The second declaration is the first one with other names for type parameters. -/
structure TypeVariableDef.Renames (r : String → String) (definition other : TypeVariableDef) :
    Prop where
  name : other.name = r definition.name
  bound : Option.Rel (RenamesText r) definition.bound other.bound

/-- The second method is the first one with other names for its type parameters.  Type parameters of
the class are renamed by `outer` where the method does not hide them. -/
structure MethodDef.Renames (outer inner : String → String) (definition other : MethodDef) :
    Prop where
  name : other.name = definition.name
  modifiers : other.modifiers = definition.modifiers
  typeParameters :
    List.Forall₂ (TypeVariableDef.Renames (renameIn definition.parameterNames inner outer))
      definition.typeParameters other.typeParameters
  returns :
    RenamesText (renameIn definition.parameterNames inner outer) definition.returns other.returns
  parameters :
    List.Forall₂ (RenamesText (renameIn definition.parameterNames inner outer))
      definition.parameters other.parameters

/-- Methods apart, the second class is the first one with other names for its type parameters. -/
structure ClassDef.RenamesHeader (r : String → String) (definition other : ClassDef) : Prop where
  name : other.name = definition.name
  kind : other.kind = definition.kind
  modifiers : other.modifiers = definition.modifiers
  typeParameters :
    List.Forall₂ (TypeVariableDef.Renames (renameIn definition.parameterNames r id))
      definition.typeParameters other.typeParameters
  extending :
    Option.Rel (RenamesText (renameIn definition.parameterNames r id))
      definition.extending other.extending

/-- The second class is the first one with other names for its type parameters. -/
structure ClassDef.Renames (r : String → String) (definition other : ClassDef) : Prop extends
    ClassDef.RenamesHeader r definition other where
  methods :
    List.Forall₂ (MethodDef.Renames (renameIn definition.parameterNames r id) id)
      definition.methods other.methods

/-! ## New names in scope -/

theorem Freshens.id (used names : List String) : Freshens used names id :=
  ⟨fun _ _ _ _ same => same, fun _ _ => .inl rfl⟩

/-- A name in use is given to nothing else. -/
theorem Freshens.eq_of_used {used names : List String} {r : String → String}
    (freshens : Freshens used names r) {name other : String} (member : name ∈ names)
    (isUsed : other ∈ used) (same : r name = other) : name = other := by
  rcases freshens.fresh name member with kept | ⟨_, unused⟩
  · exact kept.symm.trans same
  · exact absurd (same ▸ isUsed) unused

theorem renameIn_of_mem {declared : List String} {inner outer : String → String} {name : String}
    (member : name ∈ declared) : renameIn declared inner outer name = inner name :=
  if_pos member

theorem renameIn_of_not_mem {declared : List String} {inner outer : String → String} {name : String}
    (notMember : name ∉ declared) : renameIn declared inner outer name = outer name :=
  if_neg notMember

theorem renameIn_id (declared : List String) : renameIn declared id id = id := by
  funext name
  rw [renameIn, ite_self]

/-- A name is renamed to a name of the new scope exactly if it is one of the old scope, and it is
not renamed if it is none. -/
structure Carries (r : String → String) (scope other : List String) (name : String) : Prop where
  mem_iff : r name ∈ other ↔ name ∈ scope
  kept : name ∉ scope → r name = name

namespace Carries

variable {inner outer : String → String} {scope other declared used : List String} {name : String}

theorem outermost (name : String) : Carries id [] [] name :=
  ⟨Iff.rfl, fun _ => rfl⟩

/-- Further names are declared in a scope and renamed. -/
theorem declare (outside : Carries outer scope other name) (freshens : Freshens used declared inner)
    (isUsed : name ∈ used) :
    Carries (renameIn declared inner outer) (scope ++ declared)
      (other ++ declared.map (renameIn declared inner outer)) name := by
  by_cases member : name ∈ declared
  · have renamedMember : renameIn declared inner outer name ∈
        declared.map (renameIn declared inner outer) := List.mem_map_of_mem member
    exact {
      mem_iff := iff_of_true (List.mem_append_right _ renamedMember)
        (List.mem_append_right _ member)
      kept := fun notInScope => absurd (List.mem_append_right _ member) notInScope }
  · have renamed_eq : renameIn declared inner outer name = outer name := renameIn_of_not_mem member
    constructor
    · rw [renamed_eq, List.mem_append, List.mem_append, outside.mem_iff]
      by_cases inScope : name ∈ scope
      · exact iff_of_true (.inl inScope) (.inl inScope)
      · -- Declared names have become fresh ones or are kept, so none has become this name.
        apply or_congr_right
        refine iff_of_false (fun renamed => ?_) member
        rcases List.mem_map.mp renamed with ⟨own, ownMember, same⟩
        rw [renameIn_of_mem ownMember, outside.kept inScope] at same
        exact member (freshens.eq_of_used ownMember isUsed same ▸ ownMember)
    · intro notInScope
      rw [renamed_eq]
      exact outside.kept fun inScope => notInScope (List.mem_append_left _ inScope)

end Carries

theorem keepsApart_renameIn {inner outer : String → String} {scope declared used : List String}
    (freshens : Freshens used declared inner)
    (apart : ∀ own ∈ declared, ∀ name ∈ scope, inner own = outer name → own = name) :
    KeepsApart (renameIn declared inner outer) declared (scope ++ declared) := by
  intro own ownMember name member same
  rw [renameIn_of_mem ownMember] at same
  by_cases isOwn : name ∈ declared
  · rw [renameIn_of_mem isOwn] at same
    exact freshens.keepsApart own ownMember name isOwn same
  · rw [renameIn_of_not_mem isOwn] at same
    exact apart own ownMember name ((List.mem_append.mp member).resolve_right isOwn) same

/-! ## What renamed definitions mean -/

theorem Denotes.rename {scope otherScope : List String} {r : String → String}
    {text other : String} {t : TypeExpr} (denotes : Denotes scope text t)
    (renames : RenamesText r text other)
    (carries : ∀ name ∈ leafNames text, Carries r scope otherScope name) :
    Denotes otherScope other (t.renameVars r) := by
  obtain ⟨written, parsed, rfl⟩ := denotes
  obtain ⟨written', parsed', otherParsed⟩ := renames
  obtain rfl := Except.ok.inj (parsed.symm.trans parsed')
  refine ⟨written.rename r, otherParsed, ?_⟩
  apply TypeExpr.resolve_rename
  intro name leaf
  have isLeaf : name ∈ leafNames text := by
    rw [leafNames, parsed]
    exact leaf
  have carried := carries name isLeaf
  constructor
  · rw [Bool.eq_iff_iff, List.contains_iff_mem, List.contains_iff_mem]
    exact carried.mem_iff
  · intro notContained
    exact carried.kept (by simpa using notContained)

theorem TypeVariableDef.Describes.rename {scope otherScope : List String} {r : String → String}
    {definition other : TypeVariableDef} {parameter : TypeParameter}
    (describes : definition.Describes scope parameter) (renames : definition.Renames r other)
    (carries : ∀ text, definition.bound = some text → ∀ name ∈ leafNames text,
      Carries r scope otherScope name) :
    other.Describes otherScope (parameter.rename r) := by
  rcases definition with ⟨name, bound⟩
  rcases other with ⟨otherName, otherBound⟩
  rcases describes with ⟨named, bounded⟩
  rcases renames with ⟨renamed, boundRenamed⟩
  refine ⟨(congrArg r named).trans renamed.symm, ?_⟩
  cases boundRenamed with
  | none =>
      have isObject : parameter.bound = .object := bounded
      show parameter.bound.renameVars r = .object
      rw [isObject]
      rfl
  | some textRenamed => exact Denotes.rename bounded textRenamed (carries _ rfl)

theorem parameterNames_of_renames {r : String → String} {definitions others : List TypeVariableDef}
    (renames : List.Forall₂ (TypeVariableDef.Renames r) definitions others) :
    others.map (·.name) = (definitions.map (·.name)).map r := by
  rw [List.map_map]
  exact renames.flip.map_eq_map fun _ _ renames => renames.name

theorem forall₂_describes_rename {scope otherScope : List String} {r : String → String}
    {definitions others : List TypeVariableDef} {parameters : List TypeParameter}
    (described : List.Forall₂ (TypeVariableDef.Describes scope) definitions parameters)
    (renames : List.Forall₂ (TypeVariableDef.Renames r) definitions others)
    (carries : ∀ text ∈ definitions.filterMap (·.bound), ∀ name ∈ leafNames text,
      Carries r scope otherScope name) :
    List.Forall₂ (TypeVariableDef.Describes otherScope) others
      (parameters.map (·.rename r)) := by
  rw [List.forall₂_map_right_iff]
  apply renames.of_common described
  intro definition member other parameter renames describes
  exact describes.rename renames fun text bounded =>
    carries text (List.mem_filterMap.mpr ⟨definition, member, bounded⟩)

theorem MethodDef.Describes.rename {scope otherScope : List String} {outer inner : String → String}
    {definition other : MethodDef} {entry : MethodEntry}
    (describes : definition.Describes scope entry) (renames : definition.Renames outer inner other)
    (carries : ∀ text ∈ definition.texts, ∀ name ∈ leafNames text,
      Carries (renameIn definition.parameterNames inner outer) (scope ++ definition.parameterNames)
        (otherScope ++ definition.parameterNames.map
          (renameIn definition.parameterNames inner outer)) name) :
    other.Describes otherScope
      (entry.rename (renameIn definition.parameterNames inner outer)) := by
  have names : other.parameterNames = definition.parameterNames.map
      (renameIn definition.parameterNames inner outer) :=
    parameterNames_of_renames renames.typeParameters
  rw [texts, List.forall_mem_append, List.forall_mem_cons, ← names] at carries
  obtain ⟨carriesBounds, carriesReturn, carriesParameters⟩ := carries
  exact {
    internalName := describes.internalName.trans renames.name.symm
    flags := by rw [renames.modifiers]; exact describes.flags
    typeParameters :=
      forall₂_describes_rename describes.typeParameters renames.typeParameters carriesBounds
    returnType := describes.returnType.rename renames.returns carriesReturn
    parameterTypes := by
      rw [MethodEntry.rename, List.forall₂_map_right_iff]
      apply renames.parameters.of_common describes.parameterTypes
      intro text member otherText t textRenamed denotes
      exact denotes.rename textRenamed (carriesParameters text member) }

theorem SuperReference.Refers.rename {definitions : List ClassDef} {r : String → String}
    {t : TypeExpr} {reference : SuperReference} (refers : Refers definitions t reference) :
    Refers definitions (t.renameVars r) (reference.rename r) := by
  cases refers with
  | raw member isClass => exact .raw member isClass
  | generic member isClass noWildcard sameLength =>
      rw [TypeExpr.renameVars, TypeExpr.substitute_generic]
      apply Refers.generic member isClass
      · intro t argument
        rcases List.mem_map.mp argument with ⟨original, originalMember, rfl⟩
        exact (TypeExpr.isWildcard_renameVars original).trans (noWildcard original originalMember)
      · rw [List.length_map, sameLength]

theorem ClassDef.Extends.rename {definitions : List ClassDef} {r : String → String}
    {definition other : ClassDef} {reference : Option SuperReference}
    (doesExtend : definition.Extends definitions reference)
    (renames : definition.RenamesHeader r other)
    (carries : ∀ text, definition.extending = some text → ∀ name ∈ leafNames text,
      Carries (renameIn definition.parameterNames r id) definition.parameterNames
        other.parameterNames name) :
    other.Extends definitions
      (reference.map (·.rename (renameIn definition.parameterNames r id))) := by
  have extendingNone (notExtending : definition.extending = none) : other.extending = none := by
    have extending := renames.extending
    rw [notExtending] at extending
    exact extending.eq_none
  cases doesExtend with
  | interface isInterface notExtending =>
      exact .interface (renames.kind.trans isInterface) (extendingNone notExtending)
  | root isClass notExtending isRoot =>
      exact .root (renames.kind.trans isClass) (extendingNone notExtending)
        (renames.name.trans isRoot)
  | implicit isClass notExtending notRoot =>
      exact .implicit (renames.kind.trans isClass) (extendingNone notExtending)
        (renames.name.symm ▸ notRoot)
  | explicit isClass extended denotes refers =>
      have extending := renames.extending
      rw [extended] at extending
      obtain ⟨otherText, otherExtended, textRenamed⟩ := extending.exists_of_some
      exact .explicit (renames.kind.trans isClass) otherExtended
        (denotes.rename textRenamed (carries _ extended)) refers.rename

/-! ## One class with renamed type parameters -/

theorem mem_usedNames_of_parameter {definition : ClassDef} {name : String}
    (member : name ∈ definition.parameterNames) : name ∈ definition.usedNames :=
  List.mem_append_left _ (List.mem_append_left _ member)

theorem mem_usedNames_of_method {definition : ClassDef} {method : MethodDef} {name : String}
    (member : method ∈ definition.methods) (own : name ∈ method.parameterNames) :
    name ∈ definition.usedNames :=
  List.mem_append_left _
    (List.mem_append_right _ (List.mem_flatMap.mpr ⟨method, member, own⟩))

theorem mem_usedNames_of_text {definition : ClassDef} {text name : String}
    (member : text ∈ definition.texts) (leaf : name ∈ leafNames text) :
    name ∈ definition.usedNames :=
  List.mem_append_right _
    (List.mem_flatMap.mpr ⟨text, List.mem_append_left _ member, leaf⟩)

theorem mem_usedNames_of_extending {definition : ClassDef} {text name : String}
    (extended : definition.extending = some text) (leaf : name ∈ leafNames text) :
    name ∈ definition.usedNames := by
  have member : text ∈ definition.extending.toList := by simp [extended]
  exact List.mem_append_right _
    (List.mem_flatMap.mpr ⟨text, List.mem_append_right _ member, leaf⟩)

/-- A method of a class gets new names that can be told from those of the class. -/
structure MethodDef.RenamesApart (scope used : List String) (outer : String → String)
    (definition other : MethodDef) (inner : String → String) : Prop where
  renames : definition.Renames outer inner other
  freshens : Freshens used definition.parameterNames inner
  apart : ∀ own ∈ definition.parameterNames, ∀ name ∈ scope, inner own = outer name → own = name

theorem MethodDef.Describes.renamed_of_renamesApart {scope used : List String}
    {outer inner : String → String} {definition other : MethodDef} {entry : MethodEntry}
    (describes : definition.Describes scope entry)
    (renamed : definition.RenamesApart scope used outer other inner) :
    entry.Renamed scope outer (renameIn definition.parameterNames inner outer)
      (entry.rename (renameIn definition.parameterNames inner outer)) := by
  have ownNames : entry.typeParameters.map (·.name) = definition.parameterNames :=
    names_eq_of_describes describes.typeParameters
  constructor
  · rfl
  · rw [ownNames]
    exact keepsApart_renameIn renamed.freshens renamed.apart
  · intro name _ notOwn
    exact renameIn_of_not_mem (ownNames ▸ notOwn)

namespace ClassDef

variable {definition other : ClassDef} {entry : ClassEntry} {r : String → String}

theorem carries_of_used (freshens : Freshens definition.usedNames definition.parameterNames r)
    (renames : definition.RenamesHeader r other) {name : String}
    (isUsed : name ∈ definition.usedNames) :
    Carries (renameIn definition.parameterNames r id) definition.parameterNames
      other.parameterNames name := by
  have names : other.parameterNames =
      definition.parameterNames.map (renameIn definition.parameterNames r id) :=
    parameterNames_of_renames renames.typeParameters
  rw [names]
  exact (Carries.outermost name).declare freshens isUsed

/-- A class that is defined again with new names for type parameters is the same class with these
names. -/
theorem Describes.exists_renamed (describes : definition.Describes entry)
    (freshens : Freshens definition.usedNames definition.parameterNames r)
    (renames : definition.RenamesHeader r other)
    (methods : List.Forall₂ (fun method otherMethod => ∃ inner,
        method.RenamesApart definition.parameterNames definition.usedNames
          (renameIn definition.parameterNames r id) otherMethod inner)
      definition.methods other.methods) {definitions : List ClassDef}
    (doesExtend : definition.Extends definitions entry.superReference) :
    ∃ otherEntry : ClassEntry, other.Describes otherEntry ∧
      other.Extends definitions otherEntry.superReference ∧
      entry.Renamed (renameIn definition.parameterNames r id) otherEntry := by
  have carries {name : String} (isUsed : name ∈ definition.usedNames) :=
    carries_of_used freshens renames isUsed
  have scope : entry.typeParameters.map (·.name) = definition.parameterNames :=
    names_eq_of_describes describes.typeParameters
  have typeParameters := forall₂_describes_rename describes.typeParameters renames.typeParameters
    fun text bound name leaf =>
      carries (mem_usedNames_of_text (List.mem_append_left _ bound) leaf)
  have doesExtend := doesExtend.rename renames fun text extended name leaf =>
    carries (mem_usedNames_of_extending extended leaf)
  have exists_method : ∀ (method otherMethod : MethodDef) (methodEntry : MethodEntry),
      (method ∈ definition.methods ∧ ∃ inner,
        method.RenamesApart definition.parameterNames definition.usedNames
          (renameIn definition.parameterNames r id) otherMethod inner) →
      method.Describes definition.parameterNames methodEntry →
      ∃ otherMethodEntry : MethodEntry,
        otherMethod.Describes other.parameterNames otherMethodEntry ∧
        ∃ inner, methodEntry.Renamed (entry.typeParameters.map (·.name))
          (renameIn definition.parameterNames r id) inner otherMethodEntry := by
    rintro method otherMethod methodEntry ⟨member, inner, renamed⟩ methodDescribes
    rw [scope]
    refine ⟨_, methodDescribes.rename renamed.renames ?_, _,
      methodDescribes.renamed_of_renamesApart renamed⟩
    intro text isText name leaf
    have isUsed : name ∈ definition.usedNames :=
      mem_usedNames_of_text (mem_texts_of_method member isText) leaf
    exact (carries isUsed).declare renamed.freshens isUsed
  obtain ⟨otherMethods, methodsDescribed, methodsRenamed⟩ :=
    (methods.imp_of_mem fun method member _ _ renamed => ⟨member, renamed⟩).exists_fourth
      describes.methods exists_method
  let header : ClassHeader :=
    { entry.toClassHeader with
      typeParameters :=
        entry.typeParameters.map (·.rename (renameIn definition.parameterNames r id)) }
  have describesHeader : other.DescribesHeader header := {
    name := describes.name.trans renames.name.symm
    isInterface := by rw [renames.kind]; exact describes.isInterface
    flags := by rw [renames.modifiers]; exact describes.flags
    typeParameters := typeParameters }
  have keepsApart : KeepsApart (renameIn definition.parameterNames r id)
      (entry.typeParameters.map (·.name)) (entry.typeParameters.map (·.name)) := by
    rw [scope]
    exact keepsApart_renameIn freshens (nofun : ∀ own ∈ _, ∀ name ∈ [], _)
  exact ⟨⟨header, _, otherMethods⟩, ⟨describesHeader, methodsDescribed⟩, doesExtend, {
    name := rfl
    isInterface := rfl
    flags := rfl
    typeParameters := rfl
    superReference := rfl
    methods := methodsRenamed
    keepsApart := keepsApart }⟩

end ClassDef

end BridgeMethods
