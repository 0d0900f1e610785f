import BridgeMethods.Proofs.Pool.Renaming

/-!
# Names of type parameters

A class can be defined again with other names for its type parameters, or for those of one of its
methods, and no signature and no sort of a method changes.  It does not matter in which way the
texts are written, as long as they can be read and differ from the old ones in the leaves that refer
to renamed type parameters.  Such texts exist: the old ones are read, renamed and written again.
-/

namespace BridgeMethods

open Text (IsName)

/-! ## There are renamed definitions -/

theorem isName_renameIn {used declared : List String} {inner outer : String → String}
    (freshens : Freshens used declared inner)
    (outerNames : ∀ name, IsName name → IsName (outer name))
    {name : String} (isName : IsName name) : IsName (renameIn declared inner outer name) := by
  by_cases member : name ∈ declared
  · rw [renameIn_of_mem member]
    rcases freshens.fresh name member with kept | ⟨renamedIsName, _⟩
    · rw [kept]
      exact isName
    · exact renamedIsName
  · rw [renameIn_of_not_mem member]
    exact outerNames name isName

section Exists

variable {r outer inner : String → String}

theorem exists_renamesText (names : ∀ name, IsName name → IsName (r name)) {text : String}
    (readable : Readable text) : ∃ other, RenamesText r text other := by
  obtain ⟨t, parsed⟩ := readable
  have wellFormed := (TypeExpr.wellFormed_of_parse parsed).rename names
  exact ⟨(t.rename r).print, t, parsed, TypeExpr.parse_print wellFormed⟩

theorem exists_renamesText_option (names : ∀ name, IsName name → IsName (r name))
    {text : Option String} (readable : ∀ written, text = some written → Readable written) :
    ∃ other, Option.Rel (RenamesText r) text other := by
  cases text with
  | none => exact ⟨none, .none⟩
  | some written =>
      obtain ⟨other, renames⟩ := exists_renamesText names (readable written rfl)
      exact ⟨some other, .some renames⟩

theorem exists_renames_typeParameters (names : ∀ name, IsName name → IsName (r name))
    {definitions : List TypeVariableDef}
    (readable : ∀ text ∈ definitions.filterMap (·.bound), Readable text) :
    ∃ others, List.Forall₂ (TypeVariableDef.Renames r) definitions others := by
  apply List.exists_forall₂_iff.mpr
  intro definition member
  obtain ⟨bound, renames⟩ := exists_renamesText_option names fun text bounded =>
    readable text (List.mem_filterMap.mpr ⟨definition, member, bounded⟩)
  exact ⟨⟨r definition.name, bound⟩, rfl, renames⟩

theorem MethodDef.exists_renames {definition : MethodDef} {used : List String}
    (freshens : Freshens used definition.parameterNames inner)
    (outerNames : ∀ name, IsName name → IsName (outer name))
    (readable : ∀ text ∈ definition.texts, Readable text) :
    ∃ other, definition.Renames outer inner other := by
  rw [texts, List.forall_mem_append, List.forall_mem_cons] at readable
  obtain ⟨boundsReadable, returnReadable, parametersReadable⟩ := readable
  have names : ∀ name, IsName name →
      IsName (renameIn definition.parameterNames inner outer name) :=
    fun _ isName => isName_renameIn freshens outerNames isName
  obtain ⟨typeParameters, typeParametersRenamed⟩ :=
    exists_renames_typeParameters names boundsReadable
  obtain ⟨returns, returnsRenamed⟩ := exists_renamesText names returnReadable
  obtain ⟨parameters, parametersRenamed⟩ := List.exists_forall₂_iff.mpr fun text member =>
    exists_renamesText names (parametersReadable text member)
  exact ⟨⟨definition.name, definition.modifiers, typeParameters, returns, parameters⟩, rfl, rfl,
    typeParametersRenamed, returnsRenamed, parametersRenamed⟩

theorem ClassDef.exists_renames {definition : ClassDef} {used : List String}
    (freshens : Freshens used definition.parameterNames r)
    (readable : ∀ text ∈ definition.texts, Readable text)
    (extendingReadable : ∀ text, definition.extending = some text → Readable text) :
    ∃ other, definition.Renames r other := by
  rw [texts, List.forall_mem_append, List.forall_mem_flatMap] at readable
  obtain ⟨boundsReadable, methodsReadable⟩ := readable
  have names : ∀ name, IsName name → IsName (renameIn definition.parameterNames r id name) :=
    fun _ isName => isName_renameIn freshens (fun _ isName => isName) isName
  obtain ⟨typeParameters, typeParametersRenamed⟩ :=
    exists_renames_typeParameters names boundsReadable
  obtain ⟨extending, extendingRenamed⟩ := exists_renamesText_option names extendingReadable
  obtain ⟨methods, methodsRenamed⟩ := List.exists_forall₂_iff.mpr fun method member =>
    MethodDef.exists_renames (Freshens.id used method.parameterNames) names
      (methodsReadable method member)
  exact ⟨⟨definition.name, definition.kind, definition.modifiers, typeParameters, extending,
    methods⟩, ⟨rfl, rfl, rfl, typeParametersRenamed, extendingRenamed⟩, methodsRenamed⟩

end Exists

/-! ## Nothing renamed -/

theorem RenamesText.refl {text : String} (readable : Readable text) : RenamesText id text text := by
  obtain ⟨t, parsed⟩ := readable
  exact ⟨t, parsed, by rw [TypeExpr.rename_id, parsed]⟩

theorem renamesText_option_refl {text : Option String}
    (readable : ∀ written, text = some written → Readable written) :
    Option.Rel (RenamesText id) text text := by
  cases text with
  | none => exact .none
  | some written => exact .some (.refl (readable written rfl))

theorem renames_typeParameters_refl {definitions : List TypeVariableDef}
    (readable : ∀ text ∈ definitions.filterMap (·.bound), Readable text) :
    List.Forall₂ (TypeVariableDef.Renames id) definitions definitions := by
  rw [List.forall₂_same]
  intro definition member
  exact ⟨rfl, renamesText_option_refl fun text bounded =>
    readable text (List.mem_filterMap.mpr ⟨definition, member, bounded⟩)⟩

theorem MethodDef.Renames.refl {definition : MethodDef}
    (readable : ∀ text ∈ definition.texts, Readable text) :
    definition.Renames id id definition := by
  rw [texts, List.forall_mem_append, List.forall_mem_cons] at readable
  obtain ⟨boundsReadable, returnReadable, parametersReadable⟩ := readable
  constructor
  · rfl
  · rfl
  · rw [renameIn_id]
    exact renames_typeParameters_refl boundsReadable
  · rw [renameIn_id]
    exact .refl returnReadable
  · rw [renameIn_id, List.forall₂_same]
    exact fun text member => .refl (parametersReadable text member)

/-- Nothing but methods is exchanged. -/
theorem ClassDef.RenamesHeader.of_methods {definition : ClassDef} (methods : List MethodDef)
    (readable : ∀ text ∈ definition.texts, Readable text)
    (extendingReadable : ∀ text, definition.extending = some text → Readable text) :
    definition.RenamesHeader id { definition with methods := methods } := by
  rw [texts, List.forall_mem_append] at readable
  constructor
  · rfl
  · rfl
  · rfl
  · rw [renameIn_id]
    exact renames_typeParameters_refl readable.1
  · rw [renameIn_id]
    exact renamesText_option_refl extendingReadable

/-! ## Signatures and sorts -/

namespace ClassPool

variable {before after : List ClassDef} {definition renamed : ClassDef} {pool : ClassPool}
  {r : String → String}

/-- The type parameters of a class are renamed, and those of each method in a way of its own. -/
theorem classifiedAlike_of_renames
    (accepted : ofDefinitions (before ++ definition :: after) = .ok pool)
    (freshens : Freshens definition.usedNames definition.parameterNames r)
    (renames : definition.RenamesHeader r renamed)
    (methods : List.Forall₂ (fun method otherMethod => ∃ inner,
        method.RenamesApart definition.parameterNames definition.usedNames
          (renameIn definition.parameterNames r id) otherMethod inner)
      definition.methods renamed.methods) :
    ∃ other, ofDefinitions (before ++ renamed :: after) = .ok other ∧
      pool.ClassifiedAlike other := by
  obtain ⟨means, consistent⟩ := ofDefinitions_eq_ok_iff.mp accepted
  have wellScoped : ∀ entry ∈ pool.classes, entry.WellScoped := fun _ => means.wellScoped
  have role : definition.SameRole renamed :=
    ⟨renames.name.symm, renames.kind.symm, renames.typeParameters.length_eq⟩
  have refl : ∀ entry ∈ pool.classes, ∃ outer, entry.Renamed outer entry :=
    fun entry _ => ⟨id, .refl entry⟩
  have congruent : ∀ entry ∈ pool.classes, ∀ otherEntry,
      (∃ outer, entry.Renamed outer otherEntry) → entry.Congruent otherEntry := by
    rintro entry member otherEntry ⟨_, entryRenamed⟩
    exact entryRenamed.congruent (wellScoped entry member)
  have each : ∀ definitions others, (∀ t reference, SuperReference.Refers definitions t reference →
        SuperReference.Refers others t reference) →
      ∀ entry ∈ pool.classes, definition.Describes entry →
        definition.Extends definitions entry.superReference →
        ∃ otherEntry : ClassEntry, renamed.Describes otherEntry ∧
          renamed.Extends others otherEntry.superReference ∧
          ∃ outer, entry.Renamed outer otherEntry := by
    intro definitions others refers entry _ describes doesExtend
    obtain ⟨otherEntry, otherDescribes, otherExtends, entryRenamed⟩ :=
      describes.exists_renamed freshens renames methods doesExtend
    exact ⟨otherEntry, otherDescribes, otherExtends.congr rfl rfl rfl rfl refers, _, entryRenamed⟩
  obtain ⟨other, otherAccepted, entries⟩ :=
    ofDefinitions_exchanged accepted role refl each congruent
  refine ⟨other, otherAccepted, ?_⟩
  apply (TypeView.Renamed.correspondence entries wellScoped).classifiedAlike consistent.acyclic
    (ofDefinitions_eq_ok_iff.mp otherAccepted).2.acyclic
  apply entries.imp_of_mem
  rintro entry member otherEntry _ ⟨outer, entryRenamed⟩
  exact ⟨outer, entryRenamed.declaration (wellScoped entry member)⟩

/-- Only the type parameters of the class are renamed. -/
theorem classifiedAlike_of_renames_class
    (accepted : ofDefinitions (before ++ definition :: after) = .ok pool)
    (freshens : Freshens definition.usedNames definition.parameterNames r)
    (renames : definition.Renames r renamed) :
    ∃ other, ofDefinitions (before ++ renamed :: after) = .ok other ∧
      pool.ClassifiedAlike other := by
  apply classifiedAlike_of_renames accepted freshens renames.toRenamesHeader
  apply renames.methods.imp_of_mem
  intro method member otherMethod _ renamesMethod
  refine ⟨id, renamesMethod, .id _ _, ?_⟩
  intro own ownMember name nameMember same
  rw [renameIn_of_mem nameMember] at same
  exact (freshens.eq_of_used nameMember (mem_usedNames_of_method member ownMember) same.symm).symm

/-- Only the type parameters of one method are renamed. -/
theorem classifiedAlike_of_renames_method {front back : List MethodDef}
    {method renamedMethod : MethodDef}
    (accepted : ofDefinitions (before ++ definition :: after) = .ok pool)
    (split : definition.methods = front ++ method :: back)
    (freshens : Freshens definition.usedNames method.parameterNames r)
    (renames : method.Renames id r renamedMethod)
    (readable : ∀ text ∈ definition.texts, Readable text)
    (extendingReadable : ∀ text, definition.extending = some text → Readable text) :
    ∃ other, ofDefinitions (before ++
        { definition with methods := front ++ renamedMethod :: back } :: after) = .ok other ∧
      pool.ClassifiedAlike other := by
  apply classifiedAlike_of_renames accepted (.id _ _)
    (.of_methods (front ++ renamedMethod :: back) readable extendingReadable)
  have unchanged : ∀ method ∈ definition.methods, ∃ inner,
      method.RenamesApart definition.parameterNames definition.usedNames id method inner := by
    intro method member
    have methodReadable : ∀ text ∈ method.texts, Readable text :=
      fun text isText => readable text (ClassDef.mem_texts_of_method member isText)
    exact ⟨id, .refl methodReadable, .id _ _, fun _ _ _ _ same => same⟩
  have changed : method.RenamesApart definition.parameterNames definition.usedNames id renamedMethod
      r := by
    refine ⟨renames, freshens, fun own ownMember name nameMember same => ?_⟩
    exact freshens.eq_of_used ownMember (mem_usedNames_of_parameter nameMember) same
  rw [split] at unchanged ⊢
  rw [renameIn_id]
  obtain ⟨frontUnchanged, rest⟩ := List.forall_mem_append.mp unchanged
  obtain ⟨_, backUnchanged⟩ := List.forall_mem_cons.mp rest
  exact List.rel_append (List.forall₂_same.mpr frontUnchanged)
    (.cons ⟨r, changed⟩ (List.forall₂_same.mpr backUnchanged))

/-- The names of type parameters do not matter.  In an accepted list, those of a class or those of
one of its methods can be replaced by names that occur nowhere in the class, in the declarations and
wherever they are referred to.  Such a definition exists, and with each one the list is accepted and
all methods have the signatures and the sorts that they had. -/
theorem typeParameterNames_irrelevant
    (accepted : ofDefinitions (before ++ definition :: after) = .ok pool) :
    (∀ r, Freshens definition.usedNames definition.parameterNames r →
      (∃ renamed, definition.Renames r renamed) ∧
      ∀ renamed, definition.Renames r renamed →
        ∃ other, ofDefinitions (before ++ renamed :: after) = .ok other ∧
          pool.ClassifiedAlike other) ∧
    ∀ front method back, definition.methods = front ++ method :: back →
      ∀ r, Freshens definition.usedNames method.parameterNames r →
        (∃ renamed, method.Renames id r renamed) ∧
        ∀ renamed, method.Renames id r renamed →
          ∃ other, ofDefinitions (before ++
              { definition with methods := front ++ renamed :: back } :: after) = .ok other ∧
            pool.ClassifiedAlike other := by
  obtain ⟨means, consistent⟩ := ofDefinitions_eq_ok_iff.mp accepted
  have valid := means.validHierarchy consistent
  have member : definition ∈ withRoot (before ++ definition :: after) :=
    subset_withRoot (List.mem_append_right _ List.mem_cons_self)
  have readable := valid.readable definition member
  have extendingReadable : ∀ text, definition.extending = some text → Readable text :=
    fun _ extended => valid.readable_extending member extended
  constructor
  · intro r freshens
    exact ⟨ClassDef.exists_renames freshens readable extendingReadable,
      fun _ renames => classifiedAlike_of_renames_class accepted freshens renames⟩
  · intro front method back split r freshens
    have methodMember : method ∈ definition.methods := by simp [split]
    have methodReadable : ∀ text ∈ method.texts, Readable text :=
      fun text isText => readable text (ClassDef.mem_texts_of_method methodMember isText)
    exact ⟨MethodDef.exists_renames freshens (fun _ isName => isName) methodReadable,
      fun _ renames => classifiedAlike_of_renames_method accepted split freshens renames readable
        extendingReadable⟩

/-- A method with a type parameter of a common name. -/
def hidingPut : MethodDef :=
  { name := "put", typeParameters := [{ name := "T", bound := some "L" }]
    parameters := ["T", "T[]"] }

/-- A class with a type parameter in a bound, and with the method, whose type parameter hides it. -/
def hidingBase : ClassDef :=
  { name := "a.Base"
    typeParameters := [{ name := "T" }, { name := "L", bound := some "java.util.List<T>" }]
    methods := [{ name := "get", returns := "T" }, hidingPut] }

/-- A subclass that gives type arguments. -/
def hidingSub : ClassDef :=
  { name := "a.Sub", extending := some "a.Base<java.lang.String, java.util.Stack<a.Sub>>"
    methods := [{ name := "get", modifiers := [.bridge], returns := "java.lang.String" }] }

/-- The class with other names for its type parameters.  The method keeps its own. -/
def renamedHidingBase : ClassDef :=
  { name := "a.Base"
    typeParameters := [{ name := "X" }, { name := "M", bound := some "java.util.List<X>" }]
    methods :=
      [{ name := "get", returns := "X" },
        { name := "put", typeParameters := [{ name := "T", bound := some "M" }]
          parameters := ["T", "T[]"] }] }

/-- The method with another name for its type parameter. -/
def renamedHidingPut : MethodDef :=
  { name := "put", typeParameters := [{ name := "U", bound := some "L" }]
    parameters := ["U", "U[]"] }

theorem typeParameterNames_irrelevant_scenario :
    ∃ pool, ofDefinitions [hidingBase, hidingSub] = .ok pool ∧
      (∃ other, ofDefinitions [renamedHidingBase, hidingSub] = .ok other ∧
        pool.ClassifiedAlike other) ∧
      ∃ other, ofDefinitions [{ hidingBase with
          methods := [{ name := "get", returns := "T" }] ++ renamedHidingPut :: [] }, hidingSub] =
          .ok other ∧
        pool.ClassifiedAlike other := by
  obtain ⟨pool, accepted⟩ :
      ∃ pool, ofDefinitions ([] ++ hidingBase :: [hidingSub]) = .ok pool := ⟨_, rfl⟩
  obtain ⟨ofClass, ofMethod⟩ := typeParameterNames_irrelevant accepted
  have freshens : Freshens hidingBase.usedNames hidingBase.parameterNames
      fun name => if name = "T" then "X" else "M" := by decide +kernel
  have renames : hidingBase.Renames (fun name => if name = "T" then "X" else "M")
      renamedHidingBase := {
    name := rfl
    kind := rfl
    modifiers := rfl
    typeParameters := .cons ⟨rfl, .none⟩ (.cons ⟨rfl, .some ⟨_, rfl, rfl⟩⟩ .nil)
    extending := .none
    methods := .cons ⟨rfl, rfl, .nil, ⟨_, rfl, rfl⟩, .nil⟩
      (.cons ⟨rfl, rfl, .cons ⟨rfl, .some ⟨_, rfl, rfl⟩⟩ .nil, ⟨_, rfl, rfl⟩,
        .cons ⟨_, rfl, rfl⟩ (.cons ⟨_, rfl, rfl⟩ .nil)⟩ .nil) }
  have freshensPut : Freshens hidingBase.usedNames hidingPut.parameterNames fun _ => "U" := by
    decide +kernel
  have renamesPut : hidingPut.Renames id (fun _ => "U") renamedHidingPut :=
    ⟨rfl, rfl, .cons ⟨rfl, .some ⟨_, rfl, rfl⟩⟩ .nil, ⟨_, rfl, rfl⟩,
      .cons ⟨_, rfl, rfl⟩ (.cons ⟨_, rfl, rfl⟩ .nil)⟩
  exact ⟨pool, accepted, (ofClass _ freshens).2 _ renames,
    (ofMethod [_] hidingPut [] rfl _ freshensPut).2 _ renamesPut⟩

end ClassPool

end BridgeMethods
