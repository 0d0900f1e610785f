import BridgeMethods.Pool.Validation
import BridgeMethods.Proofs.Lookup
import BridgeMethods.Proofs.Result

/-!
# Definitions describe entries

A definition is text, an entry of a pool is what the text means.  The relations of this module say
when an entry means what a definition says; they are written down without the readers, and the
readers succeed with just the entries that are described.

Super classes are kept apart from the rest.  A definition describes its own class whatever the other
definitions are, and `ClassDef.Extends` says which super class it has among all of them.
-/

namespace BridgeMethods

/-- A text means an expression, in which the names of a scope are type variables. -/
def Denotes (scope : List String) (text : String) (t : TypeExpr) : Prop :=
  ∃ written, TypeExpr.parse text = .ok written ∧ written.resolve scope.contains = t

/-- A definition means a type parameter.  Without a bound it is bounded by the root. -/
def TypeVariableDef.Describes (scope : List String) (definition : TypeVariableDef)
    (parameter : TypeParameter) : Prop :=
  parameter.name = definition.name ∧
    match definition.bound with
    | none => parameter.bound = .object
    | some text => Denotes scope text parameter.bound

/-- The names of the type parameters of a method, in order. -/
def MethodDef.parameterNames (definition : MethodDef) : List String :=
  definition.typeParameters.map (·.name)

/-- The names of the type parameters of a class, in order. -/
def ClassDef.parameterNames (definition : ClassDef) : List String :=
  definition.typeParameters.map (·.name)

theorem ClassDef.parameterNames_congr {definition other : ClassDef}
    (same : definition.typeParameters = other.typeParameters) :
    definition.parameterNames = other.parameterNames := by
  rw [parameterNames, parameterNames, same]

/-- A definition means a method of a class whose type parameters have the names `outer`. -/
structure MethodDef.Describes (outer : List String) (definition : MethodDef)
    (entry : MethodEntry) : Prop where
  internalName : entry.internalName = definition.name
  flags : entry.flags = .ofModifiers definition.modifiers
  typeParameters :
    List.Forall₂ (TypeVariableDef.Describes (outer ++ definition.parameterNames))
      definition.typeParameters entry.typeParameters
  returnType : Denotes (outer ++ definition.parameterNames) definition.returns entry.returnType
  parameterTypes :
    List.Forall₂ (Denotes (outer ++ definition.parameterNames)) definition.parameters
      entry.parameterTypes

/-- A definition means the header of a class. -/
structure ClassDef.DescribesHeader (definition : ClassDef) (header : ClassHeader) : Prop where
  name : header.name = definition.name
  isInterface : header.isInterface = decide (definition.kind = .interface)
  flags : header.flags = .ofModifiers definition.modifiers
  typeParameters :
    List.Forall₂ (TypeVariableDef.Describes definition.parameterNames)
      definition.typeParameters header.typeParameters

/-- A definition means a class, whatever its super class is. -/
structure ClassDef.Describes (definition : ClassDef) (entry : ClassEntry) : Prop extends
    ClassDef.DescribesHeader definition entry.toClassHeader where
  methods :
    List.Forall₂ (MethodDef.Describes definition.parameterNames) definition.methods entry.methods

/-- An expression refers to a class that can be a super class: a class of the definitions, either
raw or with an argument, which is no wildcard, for each of its type parameters. -/
inductive SuperReference.Refers (definitions : List ClassDef) : TypeExpr → SuperReference → Prop
  | raw {target : ClassDef} : target ∈ definitions → target.kind = .class →
      Refers definitions (.named target.name) ⟨target.name, []⟩
  | generic {target : ClassDef} {arguments : List TypeExpr} :
      target ∈ definitions → target.kind = .class →
      (∀ t ∈ arguments, t.isWildcard = false) →
      arguments.length = target.typeParameters.length →
      Refers definitions (.generic target.name arguments) ⟨target.name, arguments⟩

/-- The super class of a definition among all definitions, if it has one. -/
inductive ClassDef.Extends (definitions : List ClassDef) (definition : ClassDef) :
    Option SuperReference → Prop
  | interface : definition.kind = .interface → definition.extending = none →
      Extends definitions definition none
  | root : definition.kind = .class → definition.extending = none →
      definition.name = objectName → Extends definitions definition none
  | implicit : definition.kind = .class → definition.extending = none →
      definition.name ≠ objectName → Extends definitions definition (some ⟨objectName, []⟩)
  | explicit {text : String} {t : TypeExpr} {reference : SuperReference} :
      definition.kind = .class → definition.extending = some text →
      Denotes definition.parameterNames text t → SuperReference.Refers definitions t reference →
      Extends definitions definition (some reference)

/-! ## What is described is unique -/

theorem Denotes.unique {scope : List String} {text : String} {t t' : TypeExpr}
    (denotes : Denotes scope text t) (denotes' : Denotes scope text t') : t = t' := by
  rcases denotes with ⟨written, parsed, rfl⟩
  rcases denotes' with ⟨written', parsed', rfl⟩
  rw [Except.ok.inj (parsed.symm.trans parsed')]

theorem Denotes.rightUnique (scope : List String) : Relator.RightUnique (Denotes scope) :=
  fun _ _ _ => Denotes.unique

theorem TypeVariableDef.Describes.unique {scope : List String} {definition : TypeVariableDef}
    {parameter parameter' : TypeParameter} (describes : definition.Describes scope parameter)
    (describes' : definition.Describes scope parameter') : parameter = parameter' := by
  rcases definition with ⟨_, bound⟩
  rcases parameter with ⟨_, _⟩
  rcases parameter' with ⟨_, _⟩
  rcases describes with ⟨rfl, boundDenotes⟩
  rcases describes' with ⟨rfl, boundDenotes'⟩
  cases bound with
  | none => exact congrArg _ (boundDenotes.trans boundDenotes'.symm)
  | some text => exact congrArg _ (boundDenotes.unique boundDenotes')

theorem TypeVariableDef.Describes.rightUnique (scope : List String) :
    Relator.RightUnique (TypeVariableDef.Describes scope) :=
  fun _ _ _ => Describes.unique

theorem MethodDef.Describes.unique {outer : List String} {definition : MethodDef}
    {entry other : MethodEntry} (describes : definition.Describes outer entry)
    (otherDescribes : definition.Describes outer other) : entry = other := by
  have typeParameters := List.right_unique_forall₂' (TypeVariableDef.Describes.rightUnique _)
    describes.typeParameters otherDescribes.typeParameters
  have returnType := describes.returnType.unique otherDescribes.returnType
  have parameterTypes := List.right_unique_forall₂' (Denotes.rightUnique _)
    describes.parameterTypes otherDescribes.parameterTypes
  rw [MethodEntry.mk.injEq]
  exact ⟨describes.internalName.trans otherDescribes.internalName.symm,
    describes.flags.trans otherDescribes.flags.symm, typeParameters, returnType, parameterTypes⟩

theorem MethodDef.Describes.rightUnique (outer : List String) :
    Relator.RightUnique (MethodDef.Describes outer) :=
  fun _ _ _ => Describes.unique

theorem ClassDef.Describes.methods_eq {definition : ClassDef} {entry other : ClassEntry}
    (describes : definition.Describes entry) (otherDescribes : definition.Describes other) :
    entry.methods = other.methods :=
  List.right_unique_forall₂' (MethodDef.Describes.rightUnique _) describes.methods
    otherDescribes.methods

theorem SuperReference.Refers.expr_eq {definitions : List ClassDef} {t : TypeExpr}
    {reference : SuperReference} (refers : Refers definitions t reference) :
    t = .named reference.name ∧ reference.arguments = [] ∨
      t = .generic reference.name reference.arguments := by
  cases refers with
  | raw => exact .inl ⟨rfl, rfl⟩
  | generic => exact .inr rfl

theorem SuperReference.Refers.unique {definitions otherDefinitions : List ClassDef} {t : TypeExpr}
    {reference other : SuperReference} (refers : Refers definitions t reference)
    (otherRefers : Refers otherDefinitions t other) : reference = other := by
  rcases reference with ⟨name, arguments⟩
  rcases other with ⟨otherName, otherArguments⟩
  rcases refers.expr_eq with ⟨rfl, rfl⟩ | rfl <;>
    rcases otherRefers.expr_eq with ⟨same, noArguments⟩ | same
  · cases same
    cases noArguments
    rfl
  · contradiction
  · contradiction
  · cases same
    rfl

/-- Which super class a definition has is said by the definition alone, even though the others
decide whether it has one. -/
theorem ClassDef.Extends.unique {definitions otherDefinitions : List ClassDef}
    {definition : ClassDef} {reference other : Option SuperReference}
    (doesExtend : definition.Extends definitions reference)
    (otherExtend : definition.Extends otherDefinitions other) : reference = other := by
  cases doesExtend with
  | interface kind _ =>
      cases otherExtend with
      | interface => rfl
      | root kind' | implicit kind' | explicit kind' => simp [kind] at kind'
  | root kind named isRoot =>
      cases otherExtend with
      | interface kind' => simp [kind] at kind'
      | root => rfl
      | implicit _ _ notRoot => contradiction
      | explicit _ named' => simp [named] at named'
  | implicit kind named notRoot =>
      cases otherExtend with
      | interface kind' => simp [kind] at kind'
      | root _ _ isRoot => contradiction
      | implicit => rfl
      | explicit _ named' => simp [named] at named'
  | explicit kind named denotes refers =>
      cases otherExtend with
      | interface kind' => simp [kind] at kind'
      | root _ named' | implicit _ named' => simp [named] at named'
      | explicit _ named' denotes' refers' =>
          obtain rfl := Option.some.inj (named.symm.trans named')
          obtain rfl := denotes.unique denotes'
          rw [refers.unique refers']

/-- A definition that differs in its modifiers and methods only has the same super class. -/
theorem ClassDef.Extends.congr {definitions otherDefinitions : List ClassDef}
    {definition other : ClassDef} {reference : Option SuperReference}
    (doesExtend : definition.Extends definitions reference) (name : definition.name = other.name)
    (kind : definition.kind = other.kind)
    (typeParameters : definition.typeParameters = other.typeParameters)
    (extending : definition.extending = other.extending)
    (refers : ∀ t reference, SuperReference.Refers definitions t reference →
      SuperReference.Refers otherDefinitions t reference) :
    other.Extends otherDefinitions reference := by
  have parameterNames := ClassDef.parameterNames_congr typeParameters
  cases doesExtend with
  | interface isInterface named => exact .interface (kind ▸ isInterface) (extending ▸ named)
  | root isClass named isRoot => exact .root (kind ▸ isClass) (extending ▸ named) (name ▸ isRoot)
  | implicit isClass named notRoot =>
      exact .implicit (kind ▸ isClass) (extending ▸ named) (name ▸ notRoot)
  | explicit isClass named denotes doesRefer =>
      exact .explicit (kind ▸ isClass) (extending ▸ named) (parameterNames ▸ denotes)
        (refers _ _ doesRefer)

/-! ## Readers -/

theorem withContext_eq_ok_iff {α : Type} {context : String} {result : Except Error α} {a : α} :
    withContext context result = .ok a ↔ result = .ok a :=
  Except.mapError_eq_ok_iff

theorem readType_eq_ok_iff {text : String} {t : TypeExpr} :
    readType text = .ok t ↔ TypeExpr.parse text = .ok t :=
  Except.mapError_eq_ok_iff

theorem forall₂_denotes_iff {scope texts : List String} {ts : List TypeExpr} :
    List.Forall₂ (Denotes scope) texts ts ↔
      ∃ written, texts.mapM readType = .ok written ∧
        written.map (·.resolve scope.contains) = ts := by
  simp only [Except.mapM_eq_ok_iff fun _ _ => readType_eq_ok_iff]
  constructor
  · intro denote
    induction denote with
    | nil => exact ⟨[], .nil, rfl⟩
    | cons denotes _ ih =>
        rcases denotes with ⟨first, parsed, rfl⟩
        rcases ih with ⟨rest, restParsed, rfl⟩
        exact ⟨first :: rest, .cons parsed restParsed, rfl⟩
  · rintro ⟨written, parsed, rfl⟩
    rw [List.forall₂_map_right_iff]
    exact parsed.imp fun text t parsed => ⟨t, parsed, rfl⟩

theorem readTypeParameters_eq_ok_iff {definitions : List TypeVariableDef} {outer : List String}
    {parameters : List TypeParameter} :
    readTypeParameters definitions outer = .ok parameters ↔
      List.Forall₂ (TypeVariableDef.Describes (outer ++ definitions.map (·.name))) definitions
        parameters := by
  refine Except.mapM_eq_ok_iff fun definition parameter => ?_
  rcases definition with ⟨name, bound⟩
  rcases parameter with ⟨name', bound'⟩
  cases bound with
  | none =>
      simp only [TypeVariableDef.Describes, Except.ok.injEq, TypeParameter.mk.injEq]
      exact and_congr eq_comm eq_comm
  | some text =>
      rw [Except.bind_eq_ok_iff]
      constructor
      · rintro ⟨t, read, h⟩
        cases h
        exact ⟨rfl, t, readType_eq_ok_iff.mp read, rfl⟩
      · rintro ⟨rfl, t, parsed, rfl⟩
        exact ⟨t, readType_eq_ok_iff.mpr parsed, rfl⟩

theorem names_eq_of_describes {scope : List String} {definitions : List TypeVariableDef}
    {parameters : List TypeParameter}
    (described : List.Forall₂ (TypeVariableDef.Describes scope) definitions parameters) :
    parameters.map (·.name) = definitions.map (·.name) :=
  described.flip.map_eq_map fun _ _ describes => describes.1

namespace ClassHeader

theorem ofDefinition_eq_ok_iff {definition : ClassDef} {header : ClassHeader} :
    ofDefinition definition = .ok header ↔ definition.DescribesHeader header := by
  rw [ofDefinition, Except.bind_eq_ok_iff]
  constructor
  · rintro ⟨parameters, read, h⟩
    cases h
    rw [withContext_eq_ok_iff, readTypeParameters_eq_ok_iff] at read
    exact ⟨rfl, rfl, rfl, read⟩
  · rcases header with ⟨name, isInterface, flags, parameters⟩
    rintro ⟨rfl, rfl, rfl, read⟩
    refine ⟨parameters, ?_, rfl⟩
    rw [withContext_eq_ok_iff, readTypeParameters_eq_ok_iff]
    exact read

private theorem fresh_cons_iff {name : String} {taken : List String}
    {definitions : List ClassDef} :
    (∀ definition ∈ definitions, definition.name ∉ name :: taken) ↔
      name ∉ definitions.map (·.name) ∧ ∀ definition ∈ definitions, definition.name ∉ taken := by
  constructor
  · intro fresh
    constructor
    · intro member
      rcases List.mem_map.mp member with ⟨other, member, same⟩
      exact List.ne_of_not_mem_cons (fresh other member) same
    · intro other member
      exact List.not_mem_of_not_mem_cons (fresh other member)
  · rintro ⟨distinct, fresh⟩ other member
    exact List.not_mem_cons_of_ne_of_not_mem
      (fun same => distinct (List.mem_map.mpr ⟨other, member, same⟩)) (fresh other member)

/-- The headers of a list of definitions are read exactly if the names are distinct from each other
and from those taken before. -/
theorem ofDefinitions_eq_ok_iff {taken : List String} {definitions : List ClassDef}
    {headers : List ClassHeader} :
    ofDefinitions taken definitions = .ok headers ↔
      (∀ definition ∈ definitions, definition.name ∉ taken) ∧
        (definitions.map (·.name)).Nodup ∧
        List.Forall₂ ClassDef.DescribesHeader definitions headers := by
  induction definitions generalizing taken headers with
  | nil =>
      simp only [ofDefinitions, List.forall₂_nil_left_iff, Except.ok.injEq]
      simp [eq_comm]
  | cons definition rest ih =>
      rw [ofDefinitions, List.forall₂_cons_left_iff, List.map_cons, List.nodup_cons,
        List.forall_mem_cons]
      split_ifs with repeated
      · simp [repeated]
      · rw [Except.bind_eq_ok_iff]
        constructor
        · rintro ⟨header, read, h⟩
          rcases Except.bind_eq_ok_iff.mp h with ⟨restHeaders, restRead, h⟩
          cases h
          rcases ih.mp restRead with ⟨fresh, nodup, described⟩
          rcases fresh_cons_iff.mp fresh with ⟨distinct, fresh⟩
          exact ⟨⟨repeated, fresh⟩, ⟨distinct, nodup⟩, header, restHeaders,
            ofDefinition_eq_ok_iff.mp read, described, rfl⟩
        · rintro ⟨⟨_, fresh⟩, ⟨distinct, nodup⟩, header, restHeaders, describes, described, rfl⟩
          have restRead := ih.mpr ⟨fresh_cons_iff.mpr ⟨distinct, fresh⟩, nodup, described⟩
          exact ⟨header, ofDefinition_eq_ok_iff.mpr describes,
            Except.bind_eq_ok_iff.mpr ⟨restHeaders, restRead, rfl⟩⟩

theorem readMethod_eq_ok_iff {header : ClassHeader} {definition : MethodDef}
    {entry : MethodEntry} :
    header.readMethod definition = .ok entry ↔
      definition.Describes (header.typeParameters.map (·.name)) entry := by
  rw [readMethod, withContext_eq_ok_iff, Except.bind_eq_ok_iff]
  constructor
  · rintro ⟨parameters, parametersRead, h⟩
    rcases Except.bind_eq_ok_iff.mp h with ⟨returnType, returnRead, h⟩
    rcases Except.bind_eq_ok_iff.mp h with ⟨parameterTypes, typesRead, h⟩
    cases h
    have described := readTypeParameters_eq_ok_iff.mp parametersRead
    have names : parameters.map (·.name) = definition.parameterNames :=
      names_eq_of_describes described
    exact {
      internalName := rfl
      flags := rfl
      typeParameters := described
      returnType := ⟨returnType, readType_eq_ok_iff.mp returnRead, by rw [names]⟩
      parameterTypes := forall₂_denotes_iff.mpr ⟨parameterTypes, typesRead, by rw [names]⟩ }
  · intro describes
    rcases entry with ⟨name, flags, parameters, returnType, parameterTypes⟩
    rcases describes with ⟨rfl, rfl, described, ⟨writtenReturn, returnParsed, rfl⟩, typesDenote⟩
    rcases forall₂_denotes_iff.mp typesDenote with ⟨writtenTypes, typesRead, rfl⟩
    have names : parameters.map (·.name) = definition.parameterNames :=
      names_eq_of_describes described
    refine ⟨parameters, readTypeParameters_eq_ok_iff.mpr described, ?_⟩
    refine Except.bind_eq_ok_iff.mpr ⟨writtenReturn, readType_eq_ok_iff.mpr returnParsed, ?_⟩
    refine Except.bind_eq_ok_iff.mpr ⟨writtenTypes, typesRead, ?_⟩
    simp only [names]
    rfl

variable {definitions : List ClassDef} {headers : List ClassHeader}

theorem find?_header_eq_some_iff (distinct : (definitions.map (·.name)).Nodup)
    (described : List.Forall₂ ClassDef.DescribesHeader definitions headers) {name : String}
    {header : ClassHeader} :
    headers.find? (·.name = name) = some header ↔ header ∈ headers ∧ header.name = name := by
  have names : headers.map (·.name) = definitions.map (·.name) :=
    described.flip.map_eq_map fun _ _ describes => describes.name
  exact List.find?_key_eq_some_iff (names ▸ distinct)

/-- The header of a class that is no interface is found exactly if a class is defined. -/
theorem exists_target_iff (distinct : (definitions.map (·.name)).Nodup)
    (described : List.Forall₂ ClassDef.DescribesHeader definitions headers) {name : String}
    {count : Nat} :
    (∃ header, headers.find? (·.name = name) = some header ∧ header.isInterface = false ∧
        header.typeParameters.length = count) ↔
      ∃ target ∈ definitions, target.kind = .class ∧ target.name = name ∧
        target.typeParameters.length = count := by
  have kind_iff {target : ClassDef} {header : ClassHeader}
      (describes : target.DescribesHeader header) :
      header.isInterface = false ↔ target.kind = .class := by
    rw [describes.isInterface]
    cases target.kind <;> decide
  simp only [find?_header_eq_some_iff distinct described]
  constructor
  · rintro ⟨header, ⟨member, rfl⟩, isClass, rfl⟩
    rcases described.exists_of_mem_right member with ⟨target, targetMember, describes⟩
    exact ⟨target, targetMember, (kind_iff describes).mp isClass, describes.name.symm,
      describes.typeParameters.length_eq⟩
  · rintro ⟨target, targetMember, isClass, rfl, rfl⟩
    rcases described.exists_of_mem_left targetMember with ⟨header, member, describes⟩
    exact ⟨header, ⟨member, describes.name⟩, (kind_iff describes).mpr isClass,
      describes.typeParameters.length_eq.symm⟩

/-- The header of a name, without which a super class is unknown. -/
def named (headers : List ClassHeader) (name : String) : Except Error ClassHeader :=
  match headers.find? (·.name = name) with
  | some header => .ok header
  | none => .error (.unknownType name)

theorem named_eq_ok_iff {name : String} {header : ClassHeader} :
    named headers name = .ok header ↔ headers.find? (·.name = name) = some header := by
  rw [named]
  cases headers.find? (·.name = name) <;> simp

theorem named_eq_error_iff {name : String} {error : Error} :
    named headers name = .error error ↔
      headers.find? (·.name = name) = none ∧ .unknownType name = error := by
  rw [named]
  cases headers.find? (·.name = name) <;> simp

theorem superReferenceOf_named (headers : List ClassHeader) (className name : String) :
    superReferenceOf headers className (.named name) =
      (named headers name).bind fun header =>
        if header.isInterface then
          .error (.invalidSuperType className ("'" ++ name ++ "' is an interface"))
        else .ok ⟨name, []⟩ :=
  rfl

theorem superReferenceOf_generic (headers : List ClassHeader) (className head : String)
    (arguments : List TypeExpr) :
    superReferenceOf headers className (.generic head arguments) =
      if arguments.any (·.isWildcard) then
        .error (.invalidSuperType className
          ("'" ++ (TypeExpr.generic head arguments).print ++ "' has a wildcard type argument"))
      else
        (named headers head).bind fun header =>
          if header.isInterface then
            .error (.invalidSuperType className ("'" ++ head ++ "' is an interface"))
          else if arguments.length = header.typeParameters.length then .ok ⟨head, arguments⟩
          else .error (.typeArgumentMismatch head header.typeParameters.length arguments.length) :=
  rfl

theorem superReferenceOf_eq_ok_iff (distinct : (definitions.map (·.name)).Nodup)
    (described : List.Forall₂ ClassDef.DescribesHeader definitions headers) {className : String}
    {t : TypeExpr} {reference : SuperReference} :
    superReferenceOf headers className t = .ok reference ↔
      SuperReference.Refers definitions t reference := by
  constructor
  · intro accepted
    cases t with
    | named name =>
        rw [superReferenceOf_named] at accepted
        rcases Except.bind_eq_ok_iff.mp accepted with ⟨header, found, accepted⟩
        rw [named_eq_ok_iff] at found
        split_ifs at accepted with isInterface
        cases accepted
        obtain ⟨target, member, isClass, rfl, _⟩ :=
          (exists_target_iff distinct described).mp
            ⟨header, found, by simpa using isInterface, rfl⟩
        exact .raw member isClass
    | generic head arguments =>
        rw [superReferenceOf_generic] at accepted
        split_ifs at accepted with hasWildcard
        rcases Except.bind_eq_ok_iff.mp accepted with ⟨header, found, accepted⟩
        rw [named_eq_ok_iff] at found
        split_ifs at accepted with isInterface sameLength
        cases accepted
        obtain ⟨target, member, isClass, rfl, length_eq⟩ :=
          (exists_target_iff distinct described).mp
            ⟨header, found, by simpa using isInterface, sameLength.symm⟩
        exact .generic member isClass (by simpa using hasWildcard) length_eq.symm
    | typeVar name | array component | wildcard upper lower => contradiction
  · rintro (⟨member, isClass⟩ | ⟨member, isClass, noWildcard, sameLength⟩)
    · obtain ⟨header, found, notInterface, _⟩ :=
        (exists_target_iff distinct described).mpr ⟨_, member, isClass, rfl, rfl⟩
      rw [superReferenceOf_named]
      refine Except.bind_eq_ok_iff.mpr ⟨header, named_eq_ok_iff.mpr found, ?_⟩
      rw [if_neg (by simp [notInterface])]
    · obtain ⟨header, found, notInterface, length_eq⟩ :=
        (exists_target_iff distinct described).mpr ⟨_, member, isClass, rfl, sameLength.symm⟩
      rw [superReferenceOf_generic, if_neg (by simpa using noWildcard)]
      refine Except.bind_eq_ok_iff.mpr ⟨header, named_eq_ok_iff.mpr found, ?_⟩
      rw [if_neg (by simp [notInterface]), if_pos length_eq.symm]

theorem readSuperReference_eq_ok_iff (distinct : (definitions.map (·.name)).Nodup)
    (described : List.Forall₂ ClassDef.DescribesHeader definitions headers)
    {definition : ClassDef} {reference : Option SuperReference} :
    readSuperReference headers definition = .ok reference ↔
      definition.Extends definitions reference := by
  constructor
  · intro read
    unfold readSuperReference at read
    split at read
    · contradiction
    · cases read
      exact .interface ‹_› ‹_›
    · cases read
      split_ifs with isRoot
      · exact .root ‹_› ‹_› isRoot
      · exact .implicit ‹_› ‹_› isRoot
    · rcases Except.bind_eq_ok_iff.mp read with ⟨t, textRead, read⟩
      rcases Except.bind_eq_ok_iff.mp read with ⟨found, accepted, read⟩
      cases read
      rw [withContext_eq_ok_iff, readType_eq_ok_iff] at textRead
      exact .explicit ‹_› ‹_› ⟨t, textRead, rfl⟩
        ((superReferenceOf_eq_ok_iff distinct described).mp accepted)
  · rintro (⟨kind, extending⟩ | ⟨kind, extending, isRoot⟩ | ⟨kind, extending, isRoot⟩ |
      ⟨kind, extending, ⟨written, parsed, rfl⟩, refers⟩)
    · simp only [readSuperReference, kind, extending]
    · simp only [readSuperReference, kind, extending, if_pos isRoot]
    · simp only [readSuperReference, kind, extending, if_neg isRoot]
    · simp only [readSuperReference, kind, extending]
      refine Except.bind_eq_ok_iff.mpr ⟨written, ?_, ?_⟩
      · rw [withContext_eq_ok_iff, readType_eq_ok_iff]
        exact parsed
      · exact Except.bind_eq_ok_iff.mpr
          ⟨_, (superReferenceOf_eq_ok_iff distinct described).mpr refers, rfl⟩

theorem complete_eq_ok_iff (distinct : (definitions.map (·.name)).Nodup)
    (described : List.Forall₂ ClassDef.DescribesHeader definitions headers)
    {header : ClassHeader} {definition : ClassDef} (describes : definition.DescribesHeader header)
    {entry : ClassEntry} :
    header.complete headers definition = .ok entry ↔
      entry.toClassHeader = header ∧ definition.Describes entry ∧
        definition.Extends definitions entry.superReference := by
  have names : header.typeParameters.map (·.name) = definition.parameterNames :=
    names_eq_of_describes describes.typeParameters
  have methods_iff {entries : List MethodEntry} :
      definition.methods.mapM header.readMethod = .ok entries ↔
        List.Forall₂ (MethodDef.Describes definition.parameterNames) definition.methods
          entries :=
    Except.mapM_eq_ok_iff fun _ _ => by rw [readMethod_eq_ok_iff, names]
  rw [complete, Except.bind_eq_ok_iff]
  constructor
  · rintro ⟨reference, referenceRead, h⟩
    rcases Except.bind_eq_ok_iff.mp h with ⟨entries, methodsRead, h⟩
    cases h
    exact ⟨rfl, { toDescribesHeader := describes, methods := methods_iff.mp methodsRead },
      (readSuperReference_eq_ok_iff distinct described).mp referenceRead⟩
  · rintro ⟨rfl, describesAll, doesExtend⟩
    exact ⟨entry.superReference,
      (readSuperReference_eq_ok_iff distinct described).mpr doesExtend,
      Except.bind_eq_ok_iff.mpr ⟨entry.methods, methods_iff.mpr describesAll.methods, rfl⟩⟩

end ClassHeader

end BridgeMethods
