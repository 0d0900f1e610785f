import BridgeMethods.Proofs.Pool.Change
import BridgeMethods.Proofs.Pool.Scope
import BridgeMethods.Proofs.TypeExpr.Renaming
import BridgeMethods.Proofs.View.Correspondence

/-!
# Renamed type parameters

The type parameters of a class can be given other names, and those of its methods too, as long as
each name finds the declaration that it found before.  So a type parameter of a method may not get
the name of another one in scope; it may hide one of the class as before, and then the two may even
be renamed in different ways.

The types of such a class and of its methods are erased as before: the walk along the bounds passes
through the renamed variables one by one.
-/

namespace BridgeMethods

/-- The same type parameter with other names for the variables. -/
def TypeParameter.rename (r : String → String) (parameter : TypeParameter) : TypeParameter :=
  ⟨r parameter.name, parameter.bound.renameVars r⟩

/-- The same reference with other names for the variables. -/
def SuperReference.rename (r : String → String) (reference : SuperReference) : SuperReference :=
  ⟨reference.name, reference.arguments.map (·.renameVars r)⟩

/-- The same method with other names for the variables. -/
def MethodEntry.rename (r : String → String) (method : MethodEntry) : MethodEntry :=
  { method with
    typeParameters := method.typeParameters.map (·.rename r)
    returnType := method.returnType.renameVars r
    parameterTypes := method.parameterTypes.map (·.renameVars r) }

/-- No name gets the new name of another one among the given names. -/
def KeepsApart (r : String → String) (names others : List String) : Prop :=
  ∀ name ∈ names, ∀ other ∈ others, r name = r other → name = other

instance (r : String → String) (names others : List String) :
    Decidable (KeepsApart r names others) :=
  inferInstanceAs (Decidable (∀ name ∈ names, ∀ other ∈ others, r name = r other → name = other))

/-- A method gets other names for its variables.  The type parameters of its class have the names
`scope`; those that the method does not hide are renamed as in the class. -/
structure MethodEntry.Renamed (scope : List String) (outer inner : String → String)
    (method other : MethodEntry) : Prop where
  entry : other = method.rename inner
  keepsApart : KeepsApart inner (method.typeParameters.map (·.name))
    (scope ++ method.typeParameters.map (·.name))
  outside : ∀ name ∈ scope, name ∉ method.typeParameters.map (·.name) → inner name = outer name

/-- A class gets other names for its variables: its own by `outer`, those of each method by another
renaming. -/
structure ClassEntry.Renamed (outer : String → String) (entry other : ClassEntry) : Prop where
  name : other.name = entry.name
  isInterface : other.isInterface = entry.isInterface
  flags : other.flags = entry.flags
  typeParameters : other.typeParameters = entry.typeParameters.map (·.rename outer)
  superReference : other.superReference = entry.superReference.map (·.rename outer)
  methods : List.Forall₂ (fun method otherMethod =>
      ∃ inner, method.Renamed (entry.typeParameters.map (·.name)) outer inner otherMethod)
    entry.methods other.methods
  keepsApart : KeepsApart outer (entry.typeParameters.map (·.name))
    (entry.typeParameters.map (·.name))

/-- Two views show a class and the same class with other names for the variables, and the variables
of the class are bound alike. -/
structure TypeView.Renamed (outer : String → String) (view other : TypeView) : Prop where
  wellScoped : view.entry.WellScoped
  entry : view.entry.Renamed outer other.entry
  bindings : ∀ name ∈ view.entry.typeParameters.map (·.name),
    other.bindings.lookup (outer name) = view.bindings.lookup name

/-! ## Nothing renamed -/

theorem TypeParameter.map_rename_id (parameters : List TypeParameter) :
    parameters.map (·.rename id) = parameters := by
  have each (parameter : TypeParameter) : parameter.rename id = parameter := by
    rw [rename, TypeExpr.renameVars_id]
    rfl
  rw [funext each, List.map_id']

theorem SuperReference.rename_id (reference : SuperReference) :
    reference.rename id = reference := by
  rw [rename, funext TypeExpr.renameVars_id, List.map_id']

theorem MethodEntry.rename_id (method : MethodEntry) : method.rename id = method := by
  rw [rename, TypeParameter.map_rename_id, TypeExpr.renameVars_id, funext TypeExpr.renameVars_id,
    List.map_id']

theorem MethodEntry.Renamed.refl (scope : List String) (method : MethodEntry) :
    method.Renamed scope id id method :=
  ⟨method.rename_id.symm, fun _ _ _ _ same => same, fun _ _ _ => rfl⟩

theorem ClassEntry.Renamed.refl (entry : ClassEntry) : entry.Renamed id entry where
  name := rfl
  isInterface := rfl
  flags := rfl
  typeParameters := (TypeParameter.map_rename_id _).symm
  superReference := by
    rw [funext SuperReference.rename_id, Option.map_id']
  methods := List.forall₂_same.mpr fun method _ => ⟨id, .refl _ method⟩
  keepsApart := fun _ _ _ _ same => same

/-! ## Renamed variables are found -/

theorem TypeParameter.map_name_rename (r : String → String) (parameters : List TypeParameter) :
    (parameters.map (·.rename r)).map (·.name) = (parameters.map (·.name)).map r := by
  rw [List.map_map, List.map_map]
  rfl

theorem TypeParameter.find?_map_rename {r : String → String} {parameters : List TypeParameter}
    {name : String} (apart : ∀ other ∈ parameters.map (·.name), r other = r name → other = name) :
    find? (parameters.map (·.rename r)) (r name) =
      (find? parameters name).map (·.rename r) := by
  induction parameters with
  | nil => rfl
  | cons parameter rest ih =>
      obtain ⟨first, others⟩ := List.forall_mem_cons.mp apart
      have rest_eq := ih others
      rw [find?, find?] at rest_eq
      rw [find?, find?, List.map_cons, List.find?_cons, List.find?_cons, rest_eq]
      by_cases same : parameter.name = name
      · simp [rename, same]
      · have different : r parameter.name ≠ r name := fun sameNew => same (first sameNew)
        simp [rename, same, different]

/-- Without a type parameter of the method of this name, a variable is erased as in the class. -/
theorem TypeView.eraseVar_of_not_ofMethod (view : TypeView) {method : MethodEntry} {name : String}
    (notOfMethod : TypeParameter.find? method.typeParameters name = none) (budget : Nat) :
    view.eraseVar budget (some method) name = view.eraseVar budget none name := by
  cases budget with
  | zero => rfl
  | succ budget => simp only [eraseVar, Option.bind_some, notOfMethod, Option.bind_none]

namespace TypeView.Renamed

variable {outer inner : String → String} {view other : TypeView} {method otherMethod : MethodEntry}
  {name : String}

/-- The renamed variables of a class are erased as before.  The induction is on the number of
variables that may still be passed. -/
theorem eraseVar_class (renamed : view.Renamed outer other) (budget : Nat)
    (inScope : name ∈ view.entry.typeParameters.map (·.name)) :
    other.eraseVar budget none (outer name) = view.eraseVar budget none name := by
  induction budget generalizing name with
  | zero => rfl
  | succ budget ih =>
      have found := TypeParameter.find?_map_rename fun parameter member =>
        renamed.entry.keepsApart parameter member name inScope
      simp only [eraseVar, Option.bind_none, renamed.bindings name inScope,
        renamed.entry.typeParameters, found]
      cases view.bindings.lookup name with
      | some erased => rfl
      | none =>
          cases declared : TypeParameter.find? view.entry.typeParameters name with
          | none => rfl
          | some parameter =>
              have member := TypeParameter.mem_of_find? declared
              simp only [Option.map_some, TypeParameter.rename, TypeExpr.erasure_renameVars]
              apply TypeExpr.erasure_congr
              intro next asked
              have mentioned := renamed.wellScoped.bounds parameter member next
                (.of_erasedVariable? asked)
              rw [ClassEntry.variablesInScope_none] at mentioned
              exact ih mentioned

/-- The renamed variables in scope of a method are erased as before.  Those that the method does not
declare are left to the class. -/
theorem eraseVar_method (renamed : view.Renamed outer other) (member : method ∈ view.entry.methods)
    (renamedMethod :
      method.Renamed (view.entry.typeParameters.map (·.name)) outer inner otherMethod)
    (budget : Nat) (inScope : name ∈ view.entry.variablesInScope (some method)) :
    other.eraseVar budget (some otherMethod) (inner name) =
      view.eraseVar budget (some method) name := by
  induction budget generalizing name with
  | zero => rfl
  | succ budget ih =>
      have found : TypeParameter.find? otherMethod.typeParameters (inner name) =
          (TypeParameter.find? method.typeParameters name).map (·.rename inner) := by
        rw [renamedMethod.entry]
        apply TypeParameter.find?_map_rename
        intro parameter parameterMember
        exact renamedMethod.keepsApart parameter parameterMember name inScope
      cases declared : TypeParameter.find? method.typeParameters name with
      | some parameter =>
          rw [declared] at found
          have parameterMember := TypeParameter.mem_of_find? declared
          simp only [eraseVar, Option.bind_some, found, declared, Option.map_some,
            TypeParameter.rename, TypeExpr.erasure_renameVars]
          apply TypeExpr.erasure_congr
          intro next asked
          exact ih (renamed.wellScoped.methodBounds method member parameter parameterMember next
            (.of_erasedVariable? asked))
      | none =>
          rw [declared] at found
          have notOwn := TypeParameter.find?_eq_none_iff.mp declared
          -- The class goes on with the same budget, so the induction hypothesis is not what helps.
          have ofClass : name ∈ view.entry.typeParameters.map (·.name) :=
            (List.mem_append.mp inScope).resolve_right notOwn
          calc
            other.eraseVar (budget + 1) (some otherMethod) (inner name) =
                other.eraseVar (budget + 1) none (inner name) :=
              other.eraseVar_of_not_ofMethod found (budget + 1)
            _ = other.eraseVar (budget + 1) none (outer name) := by
              rw [renamedMethod.outside name ofClass notOwn]
            _ = view.eraseVar (budget + 1) none name :=
              renamed.eraseVar_class (budget + 1) ofClass
            _ = view.eraseVar (budget + 1) (some method) name :=
              (view.eraseVar_of_not_ofMethod declared (budget + 1)).symm

/-! ## Renamed expressions are erased as before -/

theorem erase_class (renamed : view.Renamed outer other) {t : TypeExpr}
    (inScope : view.entry.Scoped none t) :
    other.erase none (t.renameVars outer) = view.erase none t := by
  rw [erase, erase, TypeExpr.erasure_renameVars]
  apply TypeExpr.erasure_congr
  intro name asked
  have ofClass := inScope name (.of_erasedVariable? asked)
  rw [ClassEntry.variablesInScope_none] at ofClass
  exact renamed.eraseVar_class maxBoundChain ofClass

theorem erase_method (renamed : view.Renamed outer other) (member : method ∈ view.entry.methods)
    (renamedMethod :
      method.Renamed (view.entry.typeParameters.map (·.name)) outer inner otherMethod)
    {t : TypeExpr} (inScope : view.entry.Scoped (some method) t) :
    other.erase (some otherMethod) (t.renameVars inner) = view.erase (some method) t := by
  rw [erase, erase, TypeExpr.erasure_renameVars]
  apply TypeExpr.erasure_congr
  intro name asked
  exact renamed.eraseVar_method member renamedMethod maxBoundChain
    (inScope name (.of_erasedVariable? asked))

theorem token_eq (renamed : view.Renamed outer other) (member : method ∈ view.entry.methods)
    (renamedMethod :
      method.Renamed (view.entry.typeParameters.map (·.name)) outer inner otherMethod) :
    (MethodView.mk view method).token = (MethodView.mk other otherMethod).token := by
  have erase_eq {t : TypeExpr} (inScope : view.entry.Scoped (some method) t) :
      view.erase (some method) t = other.erase (some otherMethod) (t.renameVars inner) :=
    (renamed.erase_method member renamedMethod inScope).symm
  have returnType := erase_eq (renamed.wellScoped.returnTypes method member)
  have parameterTypes : method.parameterTypes.map (view.erase (some method)) =
      (method.parameterTypes.map (·.renameVars inner)).map (other.erase (some otherMethod)) := by
    rw [List.map_map]
    apply List.map_congr_left
    intro t isParameterType
    exact erase_eq (renamed.wellScoped.parameterTypes method member t isParameterType)
  have entry := renamedMethod.entry
  simp only [MethodView.token, MethodView.internalName, MethodView.returnType,
    MethodView.parameterTypes, returnType, parameterTypes]
  rw [entry]
  rfl

theorem asDeclaration (renamed : view.Renamed outer other) :
    view.asDeclaration.Renamed outer other.asDeclaration :=
  ⟨renamed.wellScoped, renamed.entry, fun _ _ => rfl⟩

theorem corresponds (renamed : view.Renamed outer other) : view.Corresponds other := by
  rw [Corresponds, methods, methods, List.forall₂_map_left_iff, List.forall₂_map_right_iff]
  apply renamed.entry.methods.imp_of_mem
  rintro method member otherMethod _ ⟨inner, renamedMethod⟩
  exact {
    ownerName := renamed.entry.name.symm
    isInterface := renamed.entry.isInterface.symm
    isFinal := congrArg (·.has .final) renamed.entry.flags.symm
    flags := fun _ _ => by rw [renamedMethod.entry]; rfl
    token := renamed.token_eq member renamedMethod
    declaredToken := renamed.asDeclaration.token_eq member renamedMethod }

end TypeView.Renamed

/-! ## Pools with renamed classes -/

namespace ClassEntry.Renamed

variable {outer : String → String} {entry other : ClassEntry}

theorem declaration (renamed : entry.Renamed outer other) (wellScoped : entry.WellScoped) :
    (TypeView.declaration entry).Renamed outer (.declaration other) :=
  ⟨wellScoped, renamed, fun _ _ => rfl⟩

theorem congruent (renamed : entry.Renamed outer other) (wellScoped : entry.WellScoped) :
    entry.Congruent other where
  name := renamed.name.symm
  superName := by
    rw [renamed.superReference, Option.map_map]
    rfl
  tokensDistinct := (renamed.declaration wellScoped).corresponds.tokensDistinct

end ClassEntry.Renamed

namespace TypeView.Renamed

variable {pool other : ClassPool}

/-- The super class of a class binds the renamed variables to the same names. -/
theorem stepsRelated
    (entries : List.Forall₂ (fun entry otherEntry => ∃ outer, entry.Renamed outer otherEntry)
      pool.classes other.classes) (wellScoped : ∀ entry ∈ pool.classes, entry.WellScoped) :
    pool.StepsRelated other fun view otherView => ∃ outer, view.Renamed outer otherView := by
  rintro view otherView ⟨outer, renamed⟩
  have targets := ClassPool.lookup?_rel entries fun _ _ ⟨_, renamed⟩ => renamed.name
  apply ClassPool.superType?_rel
  rw [renamed.entry.superReference]
  cases extended : view.entry.superReference with
  | none => exact .none
  | some reference =>
      apply Option.Rel.some
      apply (targets reference.name).imp
      rintro target otherTarget ⟨member, targetOuter, renamedTarget⟩
      refine ⟨targetOuter, wellScoped target member, renamedTarget, ?_⟩
      intro name inScope
      have erased : (reference.rename outer).arguments.map (otherView.erase none) =
          reference.arguments.map (view.erase none) := by
        rw [SuperReference.rename, List.map_map]
        apply List.map_congr_left
        intro t argument
        exact renamed.erase_class (renamed.wellScoped.arguments reference extended t argument)
      rw [superView, superView, erased, renamedTarget.typeParameters, TypeParameter.map_name_rename]
      apply List.lookup_zip_map_left
      intro other otherMember
      exact renamedTarget.keepsApart other otherMember name inScope

theorem correspondence
    (entries : List.Forall₂ (fun entry otherEntry => ∃ outer, entry.Renamed outer otherEntry)
      pool.classes other.classes) (wellScoped : ∀ entry ∈ pool.classes, entry.WellScoped) :
    pool.Correspondence other fun view otherView => ∃ outer, view.Renamed outer otherView where
  name := fun _ _ ⟨_, renamed⟩ => renamed.entry.name.symm
  methods := fun _ _ ⟨_, renamed⟩ => renamed.corresponds
  steps := stepsRelated entries wellScoped

end TypeView.Renamed

end BridgeMethods
