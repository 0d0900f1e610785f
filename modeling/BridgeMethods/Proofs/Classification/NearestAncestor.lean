import BridgeMethods.Definition.Scenario
import BridgeMethods.Proofs.Classification.MethodOrder
import BridgeMethods.Proofs.View.Names

/-!
# The super types that decide

Two rules for bridges search the super types of a class, from the nearest on, and stop at the first
one that concerns the bridge.  The rule for visibility asks for an overridable method that has the
token of the bridge through the view; the rule for type variables asks for a method that is declared
with the token.

Declarations of one type have distinct tokens.  So at most one method of a type is declared with a
given token, and if it also has the token through the view, then no method of the type speaks for a
type variable.  Hence the two rules are never decided by one super type in favour of both.
-/

namespace BridgeMethods

namespace TypeView

variable (view : TypeView) (token : MethodToken)

/-- Whether the type declares a method with a token. -/
def declares : Bool :=
  view.methods.any (·.asDeclared.token = token)

/-- Whether the type has an overridable method with a token, as it is seen. -/
def offers : Bool :=
  view.methods.any (·.isOverridableWith token)

/-- Whether the type declares a method with a token that it does not have as it is seen. -/
def substitutes : Bool :=
  view.methods.any fun method => method.asDeclared.token = token && !method.isDeclared

/-- Whether the type has an overridable method with a token, both as it is seen and as it is
declared. -/
def exposes : Bool :=
  view.methods.any fun method => method.isOverridableWith token && method.isDeclared

theorem isSome_declaredWith? :
    (fun view : TypeView => (view.declaredWith? token).isSome) = (·.declares token) :=
  funext fun _ => List.isSome_find?

theorem isSome_overridableWith? :
    (fun view : TypeView => (view.overridableWith? token).isSome) = (·.offers token) := by
  funext view
  rw [overridableWith?_eq_find?]
  exact List.isSome_find?

end TypeView

/-! ## Declarations of a type -/

/-- Without type arguments, a type is seen as it is declared. -/
theorem MethodView.isDeclared_of_not_parameterized {method : MethodView}
    (notParameterized : method.owner.isParameterized = false) : method.isDeclared = true := by
  have noBindings : method.owner.bindings = [] := by
    simpa [TypeView.isParameterized] using notParameterized
  have sameOwner : method.owner = method.owner.asDeclaration := by
    rw [TypeView.asDeclaration, TypeView.declaration, ← noBindings]
  rw [isDeclared_iff, asDeclared, ← sameOwner]

theorem TypeView.map_declared_token (view : TypeView) :
    view.methods.map (·.asDeclared.token) = view.asDeclaration.methods.map (·.token) := by
  rw [methods, methods, List.map_map, List.map_map]
  exact List.map_congr_left fun _ _ => rfl

namespace ClassEntry.TokensDistinct

variable {view : TypeView} {token : MethodToken}

/-- A declared token belongs to one method. -/
theorem filter_declared_eq (distinct : view.entry.TokensDistinct) {method : MethodView}
    (member : method ∈ view.methods) (declared : method.asDeclared.token = token) :
    view.methods.filter (·.asDeclared.token = token) = [method] := by
  have tokens : (view.methods.map (·.asDeclared.token)).Nodup := by
    rw [TypeView.map_declared_token]
    exact distinct
  have single := List.filter_key_eq_singleton tokens member
  rw [declared] at single
  exact single

theorem eq_of_declared (distinct : view.entry.TokensDistinct) {method other : MethodView}
    (member : method ∈ view.methods) (declared : method.asDeclared.token = token)
    (otherMember : other ∈ view.methods) (otherDeclared : other.asDeclared.token = token) :
    other = method := by
  have found : other ∈ view.methods.filter (·.asDeclared.token = token) :=
    List.mem_filter.mpr ⟨otherMember, decide_eq_true otherDeclared⟩
  rw [distinct.filter_declared_eq member declared] at found
  exact List.mem_singleton.mp found

/-- What the rule for type variables finds in a type is all that there is to find. -/
theorem any_declaredWith? (distinct : view.entry.TokensDistinct) (token : MethodToken) :
    (view.declaredWith? token).any (!·.isDeclared) = view.substitutes token := by
  rw [TypeView.substitutes, ← List.any_filter, TypeView.declaredWith?, ← List.head?_filter]
  cases found : view.methods.filter (·.asDeclared.token = token) with
  | nil => rfl
  | cons method rest =>
      have foundMember : method ∈ view.methods.filter (·.asDeclared.token = token) :=
        found ▸ List.mem_cons_self
      obtain ⟨member, declared⟩ := List.mem_filter.mp foundMember
      rw [distinct.filter_declared_eq member (of_decide_eq_true declared)] at found
      obtain ⟨_, rfl⟩ := List.cons.inj found
      simp

/-- A method that a type exposes is the only one that it declares with the token. -/
theorem not_exposes_and_substitutes (distinct : view.entry.TokensDistinct) :
    ¬ (view.exposes token = true ∧ view.substitutes token = true) := by
  rintro ⟨exposes, substitutes⟩
  obtain ⟨exposed, exposedMember, exposedHolds⟩ := List.any_eq_true.mp exposes
  obtain ⟨substituted, substitutedMember, substitutedHolds⟩ := List.any_eq_true.mp substitutes
  simp only [MethodView.isOverridableWith, Bool.and_eq_true, decide_eq_true_iff] at exposedHolds
  simp only [Bool.and_eq_true, decide_eq_true_iff, Bool.not_eq_true'] at substitutedHolds
  obtain ⟨⟨_, exposedToken⟩, exposedDeclared⟩ := exposedHolds
  obtain ⟨substitutedToken, notDeclared⟩ := substitutedHolds
  have exposedDeclaredToken : exposed.asDeclared.token = token :=
    (MethodView.isDeclared_iff.mp exposedDeclared).symm.trans exposedToken
  obtain rfl := distinct.eq_of_declared exposedMember exposedDeclaredToken substitutedMember
    substitutedToken
  rw [exposedDeclared] at notDeclared
  contradiction

end ClassEntry.TokensDistinct

theorem TypeView.declares_of_exposes {view : TypeView} {token : MethodToken}
    (exposes : view.exposes token = true) : view.declares token = true := by
  obtain ⟨method, member, holds⟩ := List.any_eq_true.mp exposes
  simp only [MethodView.isOverridableWith, Bool.and_eq_true, decide_eq_true_iff] at holds
  obtain ⟨⟨_, tokenEq⟩, isDeclared⟩ := holds
  refine List.any_eq_true.mpr ⟨method, member, decide_eq_true ?_⟩
  exact (MethodView.isDeclared_iff.mp isDeclared).symm.trans tokenEq

theorem TypeView.isParameterized_of_substitutes {view : TypeView} {token : MethodToken}
    (substitutes : view.substitutes token = true) : view.isParameterized = true := by
  obtain ⟨method, member, holds⟩ := List.any_eq_true.mp substitutes
  obtain ⟨_, notDeclared⟩ := Bool.and_eq_true_iff.mp holds
  by_contra notParameterized
  rw [← TypeView.owner_of_mem_methods member, Bool.not_eq_true] at notParameterized
  rw [MethodView.isDeclared_of_not_parameterized notParameterized] at notDeclared
  contradiction

/-! ## The nearest super type -/

namespace ClassPool

/-- Of the super types of a view, a certain one is the nearest of which something holds: it does not
hold of those that come before. -/
structure Nearest (pool : ClassPool) (view : TypeView) (holds : TypeView → Bool)
    (nearer : List TypeView) (ancestor : TypeView) : Prop where
  split : ∃ farther, pool.superTypes view = nearer ++ ancestor :: farther
  holds_ancestor : holds ancestor = true
  fails_nearer : ∀ other ∈ nearer, holds other = false

variable {pool : ClassPool} {view ancestor : TypeView} {holds : TypeView → Bool}
  {nearer : List TypeView}

theorem find?_eq_some_iff_nearest :
    (pool.superTypes view).find? holds = some ancestor ↔
      ∃ nearer, pool.Nearest view holds nearer ancestor := by
  rw [List.find?_eq_some_iff_append]
  constructor
  · rintro ⟨holdsAncestor, nearer, farther, split, fails⟩
    exact ⟨nearer, ⟨farther, split⟩, holdsAncestor, by simpa using fails⟩
  · rintro ⟨nearer, ⟨farther, split⟩, holdsAncestor, fails⟩
    exact ⟨holdsAncestor, nearer, farther, split, by simpa using fails⟩

namespace Nearest

theorem find?_eq (nearest : pool.Nearest view holds nearer ancestor) :
    (pool.superTypes view).find? holds = some ancestor :=
  find?_eq_some_iff_nearest.mpr ⟨nearer, nearest⟩

theorem mem (nearest : pool.Nearest view holds nearer ancestor) :
    ancestor ∈ pool.superTypes view :=
  List.mem_of_find?_eq_some nearest.find?_eq

/-- What holds of another super type too holds farther away. -/
theorem length_lt (nearest : pool.Nearest view holds nearer ancestor) {other : TypeView}
    {before after : List TypeView} (split : pool.superTypes view = before ++ other :: after)
    (holdsOther : holds other = true) (different : other ≠ ancestor) :
    nearer.length < before.length := by
  obtain ⟨farther, nearestSplit⟩ := nearest.split
  rw [split] at nearestSplit
  rcases List.append_eq_append_iff.mp nearestSplit.symm with
    ⟨between, rfl, rest⟩ | ⟨between, rfl, rest⟩
  · cases between with
    | nil => exact absurd (List.cons.inj rest).1.symm different
    | cons first between => simp
  · cases between with
    | nil => exact absurd (List.cons.inj rest).1 different
    | cons first between =>
        obtain ⟨rfl, _⟩ := List.cons.inj rest
        have fails := nearest.fails_nearer other (by simp)
        rw [holdsOther] at fails
        contradiction

end Nearest

theorem tokensDistinct_of_mem_superTypes (consistent : pool.Consistent)
    (member : view.entry ∈ pool.classes) (above : ancestor ∈ pool.superTypes view) :
    ancestor.entry.TokensDistinct :=
  consistent.tokensDistinct _ (entry_mem_of_mem_superTypes consistent.acyclic member above)

/-! ## What the rules find -/

variable {method : MethodView}

/-- The rule for type variables, without the search for the first method. -/
theorem isTypeVariableBridge_eq (consistent : pool.Consistent)
    (member : method.owner.entry ∈ pool.classes) :
    pool.isTypeVariableBridge method =
      (method.isBridge && !method.isReturnTypeBridge &&
        (method.owner.isInterface ||
          ((pool.superTypes method.owner).find? (·.declares method.token)).any
            (·.substitutes method.token))) := by
  rw [isTypeVariableBridge, List.findSome?_eq_bind_find?, Option.any_bind,
    TypeView.isSome_declaredWith?]
  cases found : (pool.superTypes method.owner).find? (·.declares method.token) with
  | none => rfl
  | some ancestor =>
      have distinct := tokensDistinct_of_mem_superTypes consistent member
        (List.mem_of_find?_eq_some found)
      rw [Option.any_some, Option.any_some, Function.comp_apply, distinct.any_declaredWith?]

/-- If the rule holds of a method of a class, then the nearest super type that declares its token
substitutes it. -/
theorem exists_nearest_substitutes (consistent : pool.Consistent)
    (member : method.owner.entry ∈ pool.classes) (isClass : method.owner.isInterface = false)
    (isTypeVariableBridge : pool.isTypeVariableBridge method = true) :
    ∃ nearer ancestor, pool.Nearest method.owner (·.declares method.token) nearer ancestor ∧
      ancestor.substitutes method.token = true := by
  rw [isTypeVariableBridge_eq consistent member, isClass, Bool.false_or, Bool.and_eq_true,
    Option.any_eq_true] at isTypeVariableBridge
  obtain ⟨_, ancestor, found, substitutes⟩ := isTypeVariableBridge
  obtain ⟨nearer, nearest⟩ := find?_eq_some_iff_nearest.mp found
  exact ⟨nearer, ancestor, nearest, substitutes⟩

/-- If the rule for visibility holds, then the nearest super type that offers the token exposes
it. -/
theorem exists_nearest_exposes (isVisibilityBridge : pool.isVisibilityBridge method = true) :
    method.owner.isInterface = false ∧
      ∃ nearer ancestor, pool.Nearest method.owner (·.offers method.token) nearer ancestor ∧
        ancestor.exposes method.token = true := by
  rw [isVisibilityBridge_eq, nearestOverridden?, TypeView.isSome_overridableWith?,
    Bool.and_eq_true, Option.any_eq_true] at isVisibilityBridge
  obtain ⟨mayExpose, ancestor, found, first⟩ := isVisibilityBridge
  have isClass : method.owner.isInterface = false := by
    simp only [MethodView.mayExpose, Bool.and_eq_true, Bool.not_eq_true'] at mayExpose
    exact mayExpose.1.2
  obtain ⟨nearer, nearest⟩ := find?_eq_some_iff_nearest.mp found
  rw [TypeView.overridableWith?_eq_find?, Option.any_eq_true] at first
  obtain ⟨candidate, candidateFound, isDeclared⟩ := first
  have exposes : ancestor.exposes method.token = true :=
    List.any_eq_true.mpr ⟨candidate, List.mem_of_find?_eq_some candidateFound,
      Bool.and_eq_true_iff.mpr ⟨List.find?_some candidateFound, isDeclared⟩⟩
  exact ⟨isClass, nearer, ancestor, nearest, exposes⟩

variable {definitions : List ClassDef}

/-- If a bridge exposes a method and also stands for a type variable, then different super types
say so: the nearest one that declares the token of the bridge, which substitutes it, is nearer than
the nearest one that offers it.  No view of a type speaks for both. -/
theorem visibility_and_typeVariable_ancestors_differ
    (accepted : ofDefinitions definitions = .ok pool) :
    (∀ view, pool.Reachable view → ∀ method ∈ view.methods,
      pool.isVisibilityBridge method = true → pool.isTypeVariableBridge method = true →
        view.isInterface = false ∧ 2 ≤ (pool.superTypes view).length ∧
          ∃ nearer declaring farther offering,
            pool.Nearest view (·.declares method.token) nearer declaring ∧
            pool.Nearest view (·.offers method.token) farther offering ∧
            nearer.length < farther.length ∧
            declaring.isParameterized = true ∧
            declaring.substitutes method.token = true ∧
            offering.exposes method.token = true) ∧
    ∀ ancestor, pool.Reachable ancestor → ∀ token,
      ¬ (ancestor.exposes token = true ∧ ancestor.substitutes token = true) := by
  have consistent := (ofDefinitions_eq_ok_iff.mp accepted).2
  constructor
  · intro view reachable method member isVisibilityBridge isTypeVariableBridge
    obtain rfl : method.owner = view := TypeView.owner_of_mem_methods member
    obtain ⟨isClass, farther, offering, offeringNearest, exposes⟩ :=
      exists_nearest_exposes isVisibilityBridge
    obtain ⟨nearer, declaring, declaringNearest, substitutes⟩ :=
      exists_nearest_substitutes consistent reachable.entry_mem isClass isTypeVariableBridge
    have distinct := tokensDistinct_of_mem_superTypes consistent reachable.entry_mem
      declaringNearest.mem
    have different : offering ≠ declaring := by
      rintro rfl
      exact distinct.not_exposes_and_substitutes ⟨exposes, substitutes⟩
    obtain ⟨above, split⟩ := offeringNearest.split
    have strictlyNearer : nearer.length < farther.length :=
      declaringNearest.length_lt split (TypeView.declares_of_exposes exposes) different
    refine ⟨isClass, ?_, nearer, declaring, farther, offering, declaringNearest, offeringNearest,
      strictlyNearer, TypeView.isParameterized_of_substitutes substitutes, substitutes, exposes⟩
    rw [split, List.length_append, List.length_cons]
    omega
  · intro ancestor reachable token
    exact (consistent.tokensDistinct _ reachable.entry_mem).not_exposes_and_substitutes

theorem visibility_and_typeVariable_ancestors_differ_scenario :
    ∃ pool, ofDefinitions Scenario.closestTypeVariableAncestor = .ok pool ∧
      ∃ view, pool.Reachable view ∧ ∃ method ∈ view.methods,
        pool.isVisibilityBridge method = true ∧ pool.isTypeVariableBridge method = true ∧
        (view.isInterface = false ∧ 2 ≤ (pool.superTypes view).length ∧
          ∃ nearer declaring farther offering,
            pool.Nearest view (·.declares method.token) nearer declaring ∧
            pool.Nearest view (·.offers method.token) farther offering ∧
            nearer.length < farther.length ∧
            declaring.isParameterized = true ∧
            declaring.substitutes method.token = true ∧
            offering.exposes method.token = true) ∧
        ∃ parent, pool.superType? view = some parent ∧ parent.substitutes method.token = true ∧
          ¬ (parent.exposes method.token = true ∧ parent.substitutes method.token = true) := by
  obtain ⟨pool, accepted, entry, entryMember, method, member, isVisibilityBridge,
      isTypeVariableBridge, parent, above, substitutes⟩ :
    ∃ pool, ofDefinitions Scenario.closestTypeVariableAncestor = .ok pool ∧
      ∃ entry ∈ pool.classes, ∃ method ∈ (TypeView.declaration entry).methods,
        pool.isVisibilityBridge method = true ∧ pool.isTypeVariableBridge method = true ∧
        ∃ parent, pool.superType? (.declaration entry) = some parent ∧
          parent.substitutes method.token = true :=
    ⟨_, rfl, _, List.mem_cons_of_mem _ (List.mem_cons_of_mem _ List.mem_cons_self), _,
      List.mem_cons_of_mem _ List.mem_cons_self, by decide +kernel, by decide +kernel, _, rfl,
      by decide +kernel⟩
  have reachable : pool.Reachable (.declaration entry) := .declaration entryMember
  rcases visibility_and_typeVariable_ancestors_differ accepted with ⟨differ, neverBoth⟩
  exact ⟨pool, accepted, _, reachable, method, member, isVisibilityBridge, isTypeVariableBridge,
    differ _ reachable method member isVisibilityBridge isTypeVariableBridge, parent, above,
    substitutes, neverBoth parent (.superType reachable above) method.token⟩

end ClassPool

end BridgeMethods
