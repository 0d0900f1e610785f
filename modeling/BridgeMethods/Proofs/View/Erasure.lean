import BridgeMethods.Definition.Scenario
import BridgeMethods.Proofs.Pool.Scope
import BridgeMethods.Proofs.View.Expansion

/-!
# Erasing early is erasing late

A view erases the arguments of its class at once and knows them by name.  A generic view keeps them
as they are.  `Underlies` relates the two; it is preserved from a class to its super class, since
the arguments of the super class are erased by the view just as the generic view expands them.

The number of variables that a view may pass is limited, so bounds must not lead too far.
-/

namespace BridgeMethods

/-- A view is what a generic view looks like once its arguments are erased. -/
structure GenericView.Underlies (generic : GenericView) (view : TypeView) : Prop where
  entry_eq : generic.entry = view.entry
  bound : ∀ name erased, view.bindings.lookup name = some erased →
    ∃ argument scope, generic.argument? name = some (argument, scope) ∧
      scope.Erases none argument erased
  unbound : ∀ name, view.bindings.lookup name = none → generic.argument? name = none

/-- A view gives all methods of its class the types that a generic view says they have. -/
structure GenericView.Agrees (generic : GenericView) (view : TypeView) : Prop where
  entry_eq : generic.entry = view.entry
  returnTypes : ∀ method ∈ view.methods,
    generic.Erases (some method.entry) method.entry.returnType method.returnType
  parameterTypes : ∀ method ∈ view.methods,
    List.Forall₂ (generic.Erases (some method.entry)) method.entry.parameterTypes
      method.parameterTypes

namespace GenericView

theorem underlies_declaration (entry : ClassEntry) :
    (declaration entry).Underlies (.declaration entry) :=
  ⟨rfl, nofun, fun _ _ => rfl⟩

namespace Underlies

variable {pool : ClassPool} {generic : GenericView} {view : TypeView}
  {method : Option MethodEntry}

/-- What a view makes of a variable is the erased form, if the bounds that have to be followed are
not more than may be. -/
theorem erases_typeVar (underlies : generic.Underlies view) (wellScoped : view.entry.WellScoped)
    (owns : view.entry.Owns method) {name : String}
    (inScope : name ∈ view.entry.variablesInScope method) {limit budget : Nat}
    (short : ∀ rest, view.entry.IsBoundChain method (name :: rest) → rest.length < limit)
    (enough : limit ≤ budget) :
    generic.Erases method (.typeVar name) (view.eraseVar budget method name) := by
  induction limit generalizing method name budget with
  | zero =>
      rcases ClassEntry.exists_declared inScope with ⟨scope, parameter, declared⟩
      exact absurd (short [] ⟨scope, parameter, declared, nofun, trivial⟩) (Nat.not_lt_zero _)
  | succ limit ih =>
      obtain ⟨budget, rfl⟩ : ∃ smaller, budget = smaller + 1 := ⟨budget - 1, by omega⟩
      -- The bound is erased in its own scope, with one variable less to pass.
      have bound_erases {scope : Option MethodEntry} {parameter : TypeParameter}
          (declared : view.entry.declared? method name = some (scope, parameter))
          (scopeOwned : view.entry.Owns scope)
          (boundScoped : view.entry.Scoped scope parameter.bound) :
          generic.Erases scope parameter.bound
            (parameter.bound.erasure (view.eraseVar budget scope)) := by
        refine erases_of_erasedVariable? fun next asked => ?_
        refine ih scopeOwned (boundScoped next (.of_erasedVariable? asked)) ?_ (by omega)
        intro rest chain
        have longer := short (next :: rest)
          ⟨scope, parameter, declared, fun other same => by cases same; exact asked, chain⟩
        exact Nat.lt_of_succ_lt_succ longer
      cases ofMethod : method.bind fun m => TypeParameter.find? m.typeParameters name with
      | some parameter =>
          have declared : view.entry.declared? method name = some (method, parameter) := by
            simp only [ClassEntry.declared?, ofMethod]
          simp only [TypeView.eraseVar, ofMethod]
          refine erases_methodVariable ofMethod (bound_erases declared owns ?_)
          rcases Option.bind_eq_some_iff.mp ofMethod with ⟨m, rfl, found⟩
          exact wellScoped.methodBounds m (owns m rfl) parameter (TypeParameter.mem_of_find? found)
      | none =>
          simp only [TypeView.eraseVar, ofMethod]
          cases given : view.bindings.lookup name with
          | some erased =>
              rcases underlies.bound name erased given with ⟨argument, scope, argumentGiven, erases⟩
              exact erases_argument ofMethod argumentGiven erases
          | none =>
              cases found : TypeParameter.find? view.entry.typeParameters name with
              | some parameter =>
                  have declared : view.entry.declared? method name = some (none, parameter) := by
                    simp only [ClassEntry.declared?, ofMethod, found, Option.map_some]
                  refine erases_classVariable ofMethod (underlies.unbound name given) ?_
                    (bound_erases declared ClassEntry.owns_none
                      (wellScoped.bounds parameter (TypeParameter.mem_of_find? found)))
                  rw [underlies.entry_eq, found]
              | none =>
                  rcases ClassEntry.exists_declared inScope with ⟨_, _, declared⟩
                  simp only [ClassEntry.declared?, ofMethod, found, Option.map_none] at declared
                  contradiction

theorem erases (underlies : generic.Underlies view) (wellScoped : view.entry.WellScoped)
    (short : view.entry.BoundChainsWithin maxBoundChain)
    (owns : view.entry.Owns method) {t : TypeExpr}
    (tScoped : view.entry.Scoped method t) :
    generic.Erases method t (view.erase method t) := by
  refine erases_of_erasedVariable? fun name asked => ?_
  have inScope := tScoped name (.of_erasedVariable? asked)
  refine underlies.erases_typeVar wellScoped owns inScope ?_ (Nat.le_refl maxBoundChain)
  exact fun rest chain => short method owns (name :: rest) chain

theorem agrees (underlies : generic.Underlies view) (wellScoped : view.entry.WellScoped)
    (short : view.entry.BoundChainsWithin maxBoundChain) : generic.Agrees view where
  entry_eq := underlies.entry_eq
  returnTypes := by
    intro method member
    rcases List.mem_map.mp member with ⟨entry, entryMember, rfl⟩
    exact underlies.erases wellScoped short (ClassEntry.owns_some entryMember)
      (wellScoped.returnTypes entry entryMember)
  parameterTypes := by
    intro method member
    rcases List.mem_map.mp member with ⟨entry, entryMember, rfl⟩
    refine List.forall₂_map_right_iff.mpr (List.forall₂_same.mpr fun t tMember => ?_)
    exact underlies.erases wellScoped short (ClassEntry.owns_some entryMember)
      (wellScoped.parameterTypes entry entryMember t tMember)

/-- From a class to its super class: what the view binds to the parameters of the super class is
the erasure of the arguments that the generic view passes on. -/
theorem superType (underlies : generic.Underlies view) (wellScoped : view.entry.WellScoped)
    (short : view.entry.BoundChainsWithin maxBoundChain) {parent : TypeView}
    (above : pool.superType? view = some parent) :
    ∃ genericParent, generic.superType? pool = some genericParent ∧
      genericParent.Underlies parent := by
  rcases parent with ⟨entry, bindings⟩
  rcases ClassPool.superType?_eq_some_iff.mp above with ⟨reference, extended, found, bound⟩
  obtain rfl : bindings = (entry.typeParameters.map (·.name)).zip
    (reference.arguments.map (view.erase none)) := bound
  have erases : ∀ t ∈ reference.arguments, generic.Erases none t (view.erase none t) :=
    fun t member => underlies.erases wellScoped short ClassEntry.owns_none
      (wellScoped.arguments reference extended t member)
  rw [GenericView.superType?, underlies.entry_eq, extended]
  simp only [Option.bind_eq_bind, Option.bind_some, found]
  cases given : reference.arguments with
  | nil =>
      refine ⟨_, rfl, ?_⟩
      rw [List.map_nil, List.zip_nil_right]
      exact underlies_declaration entry
  | cons first rest =>
      refine ⟨.applied entry (first :: rest) generic, rfl, ?_⟩
      rw [← given]
      refine ⟨rfl, fun name erased bound => ?_, fun name unbound => ?_⟩
      · rw [List.lookup_zip_map, Option.map_eq_some_iff] at bound
        rcases bound with ⟨argument, given, rfl⟩
        exact ⟨argument, generic, by simp [argument?, given],
          erases argument (List.mem_of_lookup_zip given)⟩
      · rw [List.lookup_zip_map, Option.map_eq_none_iff] at unbound
        simp [argument?, unbound]

/-- Along the super types, each view agrees with the generic view of the same class. -/
theorem agrees_superTypesUpTo
    (sound : ∀ entry ∈ pool.classes, entry.WellScoped ∧ entry.BoundChainsWithin maxBoundChain)
    (underlies : generic.Underlies view) (member : view.entry ∈ pool.classes) (limit : Nat) :
    ∃ generics,
      List.IsChain (fun sub super => sub.superType? pool = some super) (generic :: generics) ∧
        List.Forall₂ Agrees (generic :: generics) (view :: pool.superTypesUpTo limit view) := by
  rcases sound view.entry member with ⟨wellScoped, short⟩
  have agrees := underlies.agrees wellScoped short
  induction limit generalizing generic view with
  | zero => exact ⟨[], .singleton generic, .cons agrees .nil⟩
  | succ limit ih =>
      rw [ClassPool.superTypesUpTo]
      cases above : pool.superType? view with
      | none => exact ⟨[], .singleton generic, .cons agrees .nil⟩
      | some parent =>
          obtain ⟨genericParent, genericAbove, parentUnderlies⟩ :=
            underlies.superType wellScoped short above
          have parentMember := ClassPool.mem_of_superType? above
          rcases sound parent.entry parentMember with ⟨parentScoped, parentShort⟩
          obtain ⟨generics, chain, agree⟩ := ih parentUnderlies parentMember parentScoped
            parentShort (parentUnderlies.agrees parentScoped parentShort)
          exact ⟨genericParent :: generics, .cons_cons genericAbove chain, .cons agrees agree⟩

end Underlies

end GenericView

/-- In a pool whose bounds pass through at most 32 variables, the types of methods seen through a
class and its super types are what comes out if type arguments are substituted without erasing
them, and only the result is erased. -/
theorem ClassPool.superTypes_agree_with_generic {definitions : List ClassDef} {pool : ClassPool}
    (accepted : ofDefinitions definitions = .ok pool)
    (short : ∀ entry ∈ pool.classes, entry.BoundChainsWithin 32) {entry : ClassEntry}
    (member : entry ∈ pool.classes) :
    ∃ generics,
      List.IsChain (fun sub super => sub.superType? pool = some super)
          (.declaration entry :: generics) ∧
        List.Forall₂ GenericView.Agrees (.declaration entry :: generics)
          (.declaration entry :: pool.superTypes (.declaration entry)) := by
  have means := (ofDefinitions_eq_ok_iff.mp accepted).1
  have sound : ∀ entry ∈ pool.classes,
      entry.WellScoped ∧ entry.BoundChainsWithin maxBoundChain := fun entry member =>
    ⟨means.wellScoped member, (short entry member).mono (by decide)⟩
  exact (GenericView.underlies_declaration entry).agrees_superTypesUpTo sound member pool.size

theorem ClassPool.superTypes_agree_with_generic_scenario :
    ∃ pool, ofDefinitions Scenario.closestTypeVariableAncestor = .ok pool ∧
      (∀ entry ∈ pool.classes, entry.BoundChainsWithin 32) ∧
      ∀ entry ∈ pool.classes, ∃ generics,
        List.IsChain (fun sub super => sub.superType? pool = some super)
            (.declaration entry :: generics) ∧
          List.Forall₂ GenericView.Agrees (.declaration entry :: generics)
            (.declaration entry :: pool.superTypes (.declaration entry)) := by
  obtain ⟨pool, accepted, short⟩ : ∃ pool,
      ofDefinitions Scenario.closestTypeVariableAncestor = .ok pool ∧
        ∀ entry ∈ pool.classes, entry.BoundChainsWithin 32 := ⟨_, rfl, by decide +kernel⟩
  exact ⟨pool, accepted, short, fun _ member => superTypes_agree_with_generic accepted short member⟩

end BridgeMethods
