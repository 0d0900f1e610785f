import BridgeMethods.Proofs.Pool.Acceptance
import BridgeMethods.Proofs.Pool.Scope
import BridgeMethods.Proofs.View.Chain

/-!
# Refused definitions

A list of definitions that does not become a pool is refused with an error, and the error tells
something about the list.  `Error.TrueOf` says what: it speaks of the definitions alone, and of the
passes of the builder no more than `ValidHierarchy` does.  Every error that the builder gives is
true of the definitions, and it gives no others.
-/

namespace BridgeMethods

/-- The expression that the super class of a class is written as. -/
def ClassDef.SuperExpr (definition : ClassDef) (t : TypeExpr) : Prop :=
  definition.kind = .class ∧
    ∃ text, definition.extending = some text ∧ Denotes definition.parameterNames text t

/-- Texts of a definition, with the words that an error in one of them is told with. -/
inductive ClassDef.Tells (definition : ClassDef) : String → List String → Prop
  | bounds : Tells definition ("Invalid type parameters of '" ++ definition.name ++ "'")
      (definition.typeParameters.filterMap (·.bound))
  | superType {text : String} : definition.kind = .class → definition.extending = some text →
      Tells definition ("Invalid super type of '" ++ definition.name ++ "'") [text]
  | method {method : MethodDef} : method ∈ definition.methods →
      Tells definition
        ("Invalid signature of '" ++ definition.name ++ "." ++ method.name ++ "'") method.texts

/-- What an error says holds of the definitions. -/
inductive Error.TrueOf (definitions : List ClassDef) : Error → Prop
  /-- Two types have the name. -/
  | duplicateType {first second : ClassDef} : [first, second].Sublist definitions →
      first.name = second.name → TrueOf definitions (.duplicateType second.name)
  /-- A class extends the name, and not even the root has it. -/
  | unknownType {definition : ClassDef} {t : TypeExpr} {name : String} :
      definition ∈ definitions → definition.SuperExpr t → t.headName? = some name →
      (∀ other ∈ ClassPool.withRoot definitions, other.name ≠ name) →
      TrueOf definitions (.unknownType name)
  /-- A class extends another with more or fewer arguments than that takes. -/
  | typeArgumentMismatch {definition target : ClassDef} {arguments : List TypeExpr} :
      definition ∈ definitions → definition.SuperExpr (.generic target.name arguments) →
      target ∈ ClassPool.withRoot definitions →
      target.typeParameters.length ≠ arguments.length →
      TrueOf definitions
        (.typeArgumentMismatch target.name target.typeParameters.length arguments.length)
  /-- An interface extends something. -/
  | extendingInterface {definition : ClassDef} : definition ∈ definitions →
      definition.kind = .interface → definition.extending ≠ none →
      TrueOf definitions (.invalidSuperType definition.name "interfaces cannot extend a class")
  /-- A class extends a type parameter of its own, or an array. -/
  | notClassType {definition : ClassDef} {t : TypeExpr} : definition ∈ definitions →
      definition.SuperExpr t →
      (∃ name ∈ definition.parameterNames, t = .typeVar name) ∨
        (∃ component, t = .array component) →
      TrueOf definitions
        (.invalidSuperType definition.name ("'" ++ t.print ++ "' is not a class type"))
  /-- A class extends a generic type, one of whose arguments is a wildcard. -/
  | wildcardArgument {definition : ClassDef} {head : String} {arguments : List TypeExpr}
      {argument : TypeExpr} : definition ∈ definitions →
      definition.SuperExpr (.generic head arguments) → argument ∈ arguments →
      argument.isWildcard = true →
      TrueOf definitions (.invalidSuperType definition.name
        ("'" ++ (TypeExpr.generic head arguments).print ++ "' has a wildcard type argument"))
  /-- A class extends an interface. -/
  | interfaceHead {definition target : ClassDef} {t : TypeExpr} : definition ∈ definitions →
      definition.SuperExpr t → t.headName? = some target.name → target ∈ definitions →
      target.kind = .interface →
      TrueOf definitions
        (.invalidSuperType definition.name ("'" ++ target.name ++ "' is an interface"))
  /-- The class of the name is above itself. -/
  | cyclicHierarchy {name : String} :
      Relation.TransGen (ClassDef.Subclass (ClassPool.withRoot definitions)) name name →
      TrueOf definitions (.cyclicHierarchy name)
  /-- A type declares two methods with one token, and with the signature. -/
  | duplicateMethod {definition : ClassDef} {entry : ClassEntry} {earlier later : MethodView} :
      definition ∈ definitions → definition.Describes entry →
      [earlier, later].Sublist (TypeView.declaration entry).methods →
      earlier.token = later.token → earlier.signature = later.signature →
      TrueOf definitions (.duplicateMethod definition.name later.signature)
  /-- A text of a class, or of one of its methods, is no type expression. -/
  | withContext {definition : ClassDef} {context text : String} {texts : List String}
      {fault : TypeExpr.SyntaxError} : definition ∈ definitions → definition.Tells context texts →
      text ∈ texts → TypeExpr.parse text = .error fault →
      TrueOf definitions (.withContext context (Error.ofSyntax text fault).message)

/-! ## The implicit root is never to blame -/

theorem ClassDef.Tells.mem_texts {definition : ClassDef} {context : String} {texts : List String}
    (tells : definition.Tells context texts) {text : String} (member : text ∈ texts) :
    text ∈ definition.texts ∨ definition.extending = some text := by
  cases tells with
  | bounds => exact .inl (List.mem_append_left _ member)
  | superType _ extending =>
      rw [List.mem_singleton.mp member]
      exact .inr extending
  | method methodMember =>
      exact .inl (ClassDef.mem_texts_of_method methodMember member)

namespace ClassPool

variable {definitions : List ClassDef} {definition : ClassDef} {text : String}

theorem mem_of_mem_texts (member : definition ∈ withRoot definitions)
    (written : text ∈ definition.texts ∨ definition.extending = some text) :
    definition ∈ definitions := by
  rcases mem_or_eq_of_mem_withRoot member with defined | rfl
  · exact defined
  · rcases written with written | extending
    · cases written
    · cases extending

theorem mem_of_interface (member : definition ∈ withRoot definitions)
    (isInterface : definition.kind = .interface) : definition ∈ definitions := by
  rcases mem_or_eq_of_mem_withRoot member with defined | rfl
  · exact defined
  · contradiction

/-- The root is added only if it makes no name occur twice. -/
theorem pair_sublist_of_withRoot {first second : ClassDef}
    (pair : [first, second].Sublist (withRoot definitions)) (sameName : first.name = second.name) :
    [first, second].Sublist definitions := by
  rw [withRoot] at pair
  split_ifs at pair with named
  · exact pair
  · have notRoot : ∀ definition ∈ definitions, definition.name ≠ objectName := by simpa using named
    have reversed := pair.reverse
    rw [List.reverse_append, List.reverse_singleton, List.singleton_append] at reversed
    cases reversed with
    | cons _ sublist => exact List.reverse_sublist.mp sublist
    | cons_cons _ sublist =>
        have defined : first ∈ definitions :=
          List.mem_reverse.mp (List.singleton_sublist.mp sublist)
        exact absurd sameName (notRoot first defined)

end ClassPool

/-! ## Errors of the readers -/

theorem withContext_eq_error_iff {α : Type} {context : String} {result : Except Error α}
    {error : Error} :
    withContext context result = .error error ↔
      ∃ cause, result = .error cause ∧ cause.addContext context = error :=
  Except.mapError_eq_error_iff

/-- One of some texts is no type expression, and that is what an error says. -/
def Error.Faults (texts : List String) (error : Error) : Prop :=
  ∃ text ∈ texts, ∃ fault, TypeExpr.parse text = .error fault ∧ error = .ofSyntax text fault

theorem Error.Faults.mono {texts others : List String} {error : Error} (faults : error.Faults texts)
    (subset : texts ⊆ others) : error.Faults others := by
  rcases faults with ⟨text, member, isFault⟩
  exact ⟨text, subset member, isFault⟩

theorem faults_of_readType {text : String} {error : Error} (failed : readType text = .error error)
    {texts : List String} (member : text ∈ texts) : error.Faults texts := by
  rcases Except.mapError_eq_error_iff.mp failed with ⟨fault, notParsed, rfl⟩
  exact ⟨text, member, fault, notParsed, rfl⟩

theorem faults_of_readTypeParameters {definitions : List TypeVariableDef} {outer : List String}
    {error : Error} (failed : readTypeParameters definitions outer = .error error) :
    error.Faults (definitions.filterMap (·.bound)) := by
  rcases Except.exists_of_mapM_eq_error failed with ⟨definition, member, failed⟩
  split at failed
  · contradiction
  · rename_i text bounded
    rcases Except.bind_eq_error_iff.mp failed with failed | ⟨_, _, failed⟩
    · exact faults_of_readType failed (List.mem_filterMap.mpr ⟨definition, member, bounded⟩)
    · contradiction

namespace ClassHeader

theorem exists_faults_of_ofDefinition {definition : ClassDef} {error : Error}
    (failed : ofDefinition definition = .error error) :
    ∃ cause : Error, cause.Faults (definition.typeParameters.filterMap (·.bound)) ∧
      cause.addContext ("Invalid type parameters of '" ++ definition.name ++ "'") = error := by
  rcases Except.bind_eq_error_iff.mp failed with failed | ⟨_, _, failed⟩
  · rcases withContext_eq_error_iff.mp failed with ⟨cause, failed, told⟩
    exact ⟨cause, faults_of_readTypeParameters failed, told⟩
  · contradiction

theorem exists_faults_of_readMethod {header : ClassHeader} {definition : MethodDef} {error : Error}
    (failed : header.readMethod definition = .error error) :
    ∃ cause : Error, cause.Faults definition.texts ∧
      cause.addContext ("Invalid signature of '" ++ header.name ++ "." ++ definition.name ++ "'") =
        error := by
  rcases withContext_eq_error_iff.mp failed with ⟨cause, failed, told⟩
  refine ⟨cause, ?_, told⟩
  rcases Except.bind_eq_error_iff.mp failed with failed | ⟨_, _, failed⟩
  · exact (faults_of_readTypeParameters failed).mono (List.subset_append_left _ _)
  · have types_subset : definition.returns :: definition.parameters ⊆ definition.texts :=
      List.subset_append_right _ _
    rcases Except.bind_eq_error_iff.mp failed with failed | ⟨_, _, failed⟩
    · exact faults_of_readType failed (types_subset List.mem_cons_self)
    · rcases Except.bind_eq_error_iff.mp failed with failed | ⟨_, _, failed⟩
      · rcases Except.exists_of_mapM_eq_error failed with ⟨text, member, failed⟩
        exact faults_of_readType failed (types_subset (List.mem_cons_of_mem _ member))
      · contradiction

/-- Either a name is taken when it comes, or a header cannot be read. -/
theorem of_ofDefinitions_eq_error {taken : List String} {definitions : List ClassDef}
    {error : Error} (failed : ofDefinitions taken definitions = .error error) :
    (∃ definition ∈ definitions, definition.name ∈ taken ∧
        error = .duplicateType definition.name) ∨
      (∃ first second, [first, second].Sublist definitions ∧ first.name = second.name ∧
        error = .duplicateType second.name) ∨
      ∃ definition ∈ definitions, ofDefinition definition = .error error := by
  induction definitions generalizing taken with
  | nil => contradiction
  | cons definition rest ih =>
      rw [ofDefinitions] at failed
      split_ifs at failed with repeated
      · cases failed
        exact .inl ⟨definition, List.mem_cons_self, repeated, rfl⟩
      · rcases Except.bind_eq_error_iff.mp failed with failed | ⟨_, _, failed⟩
        · exact .inr (.inr ⟨definition, List.mem_cons_self, failed⟩)
        · rcases Except.bind_eq_error_iff.mp failed with failed | ⟨_, _, failed⟩
          · rcases ih failed with ⟨other, member, repeated, rfl⟩ |
              ⟨first, second, sublist, sameName, rfl⟩ | ⟨other, member, failed⟩
            · rcases List.mem_cons.mp repeated with sameName | repeated
              · have sublist : [definition, other].Sublist (definition :: rest) :=
                  (List.singleton_sublist.mpr member).cons_cons definition
                exact .inr (.inl ⟨definition, other, sublist, sameName.symm, rfl⟩)
              · exact .inl ⟨other, List.mem_cons_of_mem _ member, repeated, rfl⟩
            · exact .inr (.inl ⟨first, second, sublist.cons _, sameName, rfl⟩)
            · exact .inr (.inr ⟨other, List.mem_cons_of_mem _ member, failed⟩)
          · contradiction

end ClassHeader

/-! ## Errors about super types -/

theorem Denotes.isWildcard_eq_false {scope : List String} {text : String} {t : TypeExpr}
    (denotes : Denotes scope text t) : t.isWildcard = false := by
  rcases denotes with ⟨written, parsed, rfl⟩
  cases (TypeExpr.wellFormed_of_parse parsed).isType with
  | named _ =>
      rw [TypeExpr.resolve]
      split_ifs <;> rfl
  | generic _ _ _ | array _ => rfl

namespace ClassHeader

variable {definitions : List ClassDef} {headers : List ClassHeader} {name : String}
  {header : ClassHeader}

theorem exists_target_of_find?
    (described : List.Forall₂ ClassDef.DescribesHeader definitions headers)
    (found : headers.find? (·.name = name) = some header) :
    ∃ target ∈ definitions, target.DescribesHeader header ∧ target.name = name := by
  rcases described.exists_of_mem_right (List.mem_of_find?_eq_some found) with
    ⟨target, member, describes⟩
  have named : header.name = name := by simpa using List.find?_some found
  exact ⟨target, member, describes, describes.name.symm.trans named⟩

theorem name_ne_of_find?_eq_none
    (described : List.Forall₂ ClassDef.DescribesHeader definitions headers)
    (notFound : headers.find? (·.name = name) = none) :
    ∀ other ∈ definitions, other.name ≠ name := by
  intro other member
  rcases described.exists_of_mem_left member with ⟨header, headerMember, describes⟩
  have different : header.name ≠ name := by
    simpa using List.find?_eq_none.mp notFound header headerMember
  exact describes.name ▸ different

end ClassHeader

namespace Error.TrueOf

open ClassPool (withRoot)

variable {definitions : List ClassDef} {headers : List ClassHeader} {definition : ClassDef}
  {error : Error}

theorem of_superReferenceOf
    (described : List.Forall₂ ClassDef.DescribesHeader (withRoot definitions) headers)
    (member : definition ∈ definitions) {t : TypeExpr} (written : definition.SuperExpr t)
    (failed : ClassHeader.superReferenceOf headers definition.name t = .error error) :
    error.TrueOf definitions := by
  -- An interface is no super class, whether arguments are given or not.
  have of_interface {name : String} {header : ClassHeader} (isHead : t.headName? = some name)
      (found : headers.find? (·.name = name) = some header)
      (isInterface : header.isInterface = true) :
      TrueOf definitions
        (.invalidSuperType definition.name ("'" ++ name ++ "' is an interface")) := by
    obtain ⟨target, targetMember, describes, rfl⟩ :=
      ClassHeader.exists_target_of_find? described found
    have kind : target.kind = .interface := by simpa [isInterface] using describes.isInterface
    exact .interfaceHead member written isHead (ClassPool.mem_of_interface targetMember kind) kind
  have of_unknown {name : String} (isHead : t.headName? = some name)
      (failed : ClassHeader.named headers name = .error error) : TrueOf definitions error := by
    obtain ⟨notFound, rfl⟩ := ClassHeader.named_eq_error_iff.mp failed
    exact .unknownType member written isHead
      (ClassHeader.name_ne_of_find?_eq_none described notFound)
  cases t with
  | named name =>
      rw [ClassHeader.superReferenceOf_named] at failed
      rcases Except.bind_eq_error_iff.mp failed with failed | ⟨header, found, failed⟩
      · exact of_unknown rfl failed
      · split_ifs at failed with isInterface
        cases failed
        exact of_interface rfl (ClassHeader.named_eq_ok_iff.mp found) isInterface
  | generic head arguments =>
      rw [ClassHeader.superReferenceOf_generic] at failed
      split_ifs at failed with hasWildcard
      · cases failed
        obtain ⟨argument, argumentMember, isWildcard⟩ := List.any_eq_true.mp hasWildcard
        exact .wildcardArgument member written argumentMember isWildcard
      · rcases Except.bind_eq_error_iff.mp failed with failed | ⟨header, found, failed⟩
        · exact of_unknown rfl failed
        · rw [ClassHeader.named_eq_ok_iff] at found
          split_ifs at failed with isInterface sameLength
          · cases failed
            exact of_interface rfl found isInterface
          · cases failed
            obtain ⟨target, targetMember, describes, rfl⟩ :=
              ClassHeader.exists_target_of_find? described found
            rw [← describes.typeParameters.length_eq] at sameLength ⊢
            exact .typeArgumentMismatch member written targetMember (Ne.symm sameLength)
  | typeVar name =>
      cases failed
      have inScope : name ∈ definition.parameterNames := by
        obtain ⟨_, _, _, denotes⟩ := written
        exact denotes.mem_of_mentions .typeVar
      exact .notClassType member written (.inl ⟨name, inScope, rfl⟩)
  | array component =>
      cases failed
      exact .notClassType member written (.inr ⟨component, rfl⟩)
  | wildcard upper lower =>
      obtain ⟨_, _, _, denotes⟩ := written
      cases denotes.isWildcard_eq_false

/-- What cannot be read is told with the words for the place where it is written. -/
theorem of_faults (member : definition ∈ withRoot definitions) {context : String}
    {texts : List String} (tells : definition.Tells context texts) {cause : Error}
    (faults : cause.Faults texts) : (cause.addContext context).TrueOf definitions := by
  rcases faults with ⟨text, textMember, fault, notParsed, rfl⟩
  exact .withContext (ClassPool.mem_of_mem_texts member (tells.mem_texts textMember)) tells
    textMember notParsed

theorem of_readSuperReference
    (described : List.Forall₂ ClassDef.DescribesHeader (withRoot definitions) headers)
    (member : definition ∈ withRoot definitions)
    (failed : ClassHeader.readSuperReference headers definition = .error error) :
    error.TrueOf definitions := by
  unfold ClassHeader.readSuperReference at failed
  split at failed
  · rename_i isInterface extending
    cases failed
    exact .extendingInterface (ClassPool.mem_of_interface member isInterface) isInterface
      (by simp [extending])
  · contradiction
  · contradiction
  · rename_i text isClass extending
    rcases Except.bind_eq_error_iff.mp failed with failed | ⟨t, read, failed⟩
    · rcases withContext_eq_error_iff.mp failed with ⟨cause, notRead, rfl⟩
      exact of_faults member (.superType isClass extending)
        (faults_of_readType notRead (List.mem_singleton_self text))
    · rw [withContext_eq_ok_iff, readType_eq_ok_iff] at read
      have written : definition.SuperExpr (t.resolve definition.parameterNames.contains) :=
        ⟨isClass, text, extending, t, read, rfl⟩
      rcases Except.bind_eq_error_iff.mp failed with failed | ⟨_, _, failed⟩
      · exact of_superReferenceOf described (ClassPool.mem_of_mem_texts member (.inr extending))
          written failed
      · contradiction

theorem of_complete
    (described : List.Forall₂ ClassDef.DescribesHeader (withRoot definitions) headers)
    (member : definition ∈ withRoot definitions) {header : ClassHeader}
    (describes : definition.DescribesHeader header)
    (failed : header.complete headers definition = .error error) : error.TrueOf definitions := by
  rcases Except.bind_eq_error_iff.mp failed with failed | ⟨_, _, failed⟩
  · exact of_readSuperReference described member failed
  · rcases Except.bind_eq_error_iff.mp failed with failed | ⟨_, _, failed⟩
    · rcases Except.exists_of_mapM_eq_error failed with ⟨method, methodMember, failed⟩
      obtain ⟨cause, faults, rfl⟩ := ClassHeader.exists_faults_of_readMethod failed
      rw [describes.name]
      exact of_faults member (.method methodMember) faults
    · contradiction

theorem of_headers (failed : ClassHeader.ofDefinitions [] (withRoot definitions) = .error error) :
    error.TrueOf definitions := by
  rcases ClassHeader.of_ofDefinitions_eq_error failed with ⟨_, _, taken, _⟩ |
    ⟨first, second, sublist, sameName, rfl⟩ | ⟨definition, member, failed⟩
  · cases taken
  · exact .duplicateType (ClassPool.pair_sublist_of_withRoot sublist sameName) sameName
  · obtain ⟨cause, faults, rfl⟩ := ClassHeader.exists_faults_of_ofDefinition failed
    exact of_faults member .bounds faults

end Error.TrueOf

/-! ## Errors about the whole pool -/

namespace ClassPool

variable {definitions : List ClassDef} {pool : ClassPool} {name : String}

/-- The class that is met again is on the cycle, wherever the walk has started. -/
theorem Trail.transGen_of_meets {visited : List String} {entry : ClassEntry}
    (trail : pool.Trail visited entry) (meets : pool.Meets visited entry (some name)) :
    Relation.TransGen pool.Subclass name name := by
  generalize met : some name = result at meets
  induction meets with
  | again repeated =>
      obtain rfl := Option.some.inj met
      exact trail.below _ repeated
  | top _ _ => contradiction
  | up fresh above _ ih => exact ih (trail.step fresh above) met

theorem transGen_of_findCycle? (found : pool.findCycle? = some name) :
    Relation.TransGen pool.Subclass name name := by
  obtain ⟨entry, member, repeated⟩ := List.exists_of_findSome?_eq_some found
  have trail : pool.Trail [] entry := .start member
  exact trail.transGen_of_meets (repeated ▸ (meets_iff member).mpr rfl)

end ClassPool

/-- A method whose token has been seen comes after another one with this token. -/
theorem TypeView.of_firstRepeatedMethod? {seen : List MethodToken} {methods : List MethodView}
    {later : MethodView} (found : firstRepeatedMethod? seen methods = some later) :
    (later ∈ methods ∧ later.token ∈ seen) ∨
      ∃ earlier, [earlier, later].Sublist methods ∧ earlier.token = later.token := by
  induction methods generalizing seen with
  | nil => contradiction
  | cons method rest ih =>
      rw [firstRepeatedMethod?] at found
      split_ifs at found with repeated
      · obtain rfl := Option.some.inj found
        exact .inl ⟨List.mem_cons_self, repeated⟩
      · rcases ih found with ⟨member, seenBefore⟩ | ⟨earlier, sublist, same⟩
        · rcases List.mem_cons.mp seenBefore with same | seenBefore
          · exact .inr ⟨method, (List.singleton_sublist.mpr member).cons_cons _, same.symm⟩
          · exact .inl ⟨List.mem_cons_of_mem _ member, seenBefore⟩
        · exact .inr ⟨earlier, sublist.cons _, same⟩

namespace ClassPool

variable {definitions : List ClassDef} {pool : ClassPool} {error : Error}

theorem Means.trueOf_of_repeated (means : pool.Means (withRoot definitions)) {method : MethodView}
    (repeated : pool.findRepeatedMethod? = some method) :
    Error.TrueOf definitions (.duplicateMethod method.owner.name method.signature) := by
  obtain ⟨view, viewMember, found⟩ := List.exists_of_findSome?_eq_some repeated
  obtain ⟨entry, entryMember, rfl⟩ := List.mem_map.mp viewMember
  obtain ⟨definition, member, describes⟩ := means.described.exists_of_mem_right entryMember
  rcases TypeView.of_firstRepeatedMethod? found with ⟨_, seen⟩ | ⟨earlier, sublist, same⟩
  · cases seen
  · have methodMember : method ∈ (TypeView.declaration entry).methods :=
      sublist.subset (List.mem_cons_of_mem _ List.mem_cons_self)
    have owner_name : method.owner.name = definition.name := by
      rw [TypeView.owner_of_mem_methods methodMember]
      exact describes.name
    have defined : definition ∈ definitions := by
      obtain ⟨methodDefinition, methodDefined, _⟩ :=
        describes.methods.exists_of_mem_right (TypeView.entry_mem_of_mem_methods methodMember)
      rcases mem_or_eq_of_mem_withRoot member with defined | rfl
      · exact defined
      · cases methodDefined
    rw [owner_name]
    exact .duplicateMethod defined describes sublist same (MethodView.signature_eq_of_token_eq same)

/-- Definitions that are refused give an error that is true of them. -/
theorem error_trueOf (refused : ofDefinitions definitions = .error error) :
    error.TrueOf definitions := by
  rcases Except.bind_eq_error_iff.mp refused with failed | ⟨headers, headersRead, refused⟩
  · exact .of_headers failed
  · obtain ⟨_, _, described⟩ := ClassHeader.ofDefinitions_eq_ok_iff.mp headersRead
    rcases Except.bind_eq_error_iff.mp refused with failed | ⟨classes, completed, refused⟩
    · obtain ⟨⟨header, definition⟩, pairMember, failed⟩ := Except.exists_of_mapM_eq_error failed
      have describes := List.forall₂_zip described.flip pairMember
      exact .of_complete described (List.of_mem_zip pairMember).2 describes failed
    · have means : (ClassPool.mk classes).Means (withRoot definitions) :=
        means_iff_completed.mpr ⟨headers, headersRead, completed⟩
      cases cycle : (ClassPool.mk classes).findCycle? with
      | some name =>
          simp only [cycle] at refused
          cases refused
          exact .cyclicHierarchy (means.subclass_eq ▸ transGen_of_findCycle? cycle)
      | none =>
          cases repeated : (ClassPool.mk classes).findRepeatedMethod? with
          | some method =>
              simp only [cycle, repeated] at refused
              cases refused
              exact means.trueOf_of_repeated repeated
          | none =>
              simp only [cycle, repeated] at refused
              contradiction

/-- A class below a cycle, a cycle of two classes, and a class that declares a method twice. -/
def belowCycle : List ClassDef := [
  { name := "a.Below", extending := some "a.One" },
  { name := "a.One", extending := some "a.Two" },
  { name := "a.Two", extending := some "a.One"
    methods := [{ name := "m" }, { name := "m" }] }]

theorem error_trueOf_scenario :
    ofDefinitions belowCycle = .error (.cyclicHierarchy "a.One") ∧
      Error.TrueOf belowCycle (.cyclicHierarchy "a.One") := by
  have refused : ofDefinitions belowCycle = .error (.cyclicHierarchy "a.One") := rfl
  exact ⟨refused, error_trueOf refused⟩

end ClassPool

end BridgeMethods
