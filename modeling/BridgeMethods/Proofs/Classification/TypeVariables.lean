import BridgeMethods.Definition.Scenario
import BridgeMethods.Proofs.Classification.NearestAncestor
import BridgeMethods.Proofs.View.Redefinition

/-!
# Bridges for type variables

A bridge of a class stands for a type variable if the nearest super type that declares its token
gives the declared method another one.  There is one such method in that super type, so the order
of methods has no part in the answer; and nothing is asked of what is above that super type.
-/

namespace BridgeMethods

theorem ClassEntry.TokensDistinct.exists_filter_declared_eq {view : TypeView} {token : MethodToken}
    (distinct : view.entry.TokensDistinct) (declares : view.declares token = true) :
    ∃ declared, view.methods.filter (·.asDeclared.token = token) = [declared] := by
  obtain ⟨declared, member, sameToken⟩ := List.any_eq_true.mp declares
  exact ⟨declared, distinct.filter_declared_eq member (of_decide_eq_true sameToken)⟩

/-- A type substitutes a token if the one method that it declares with it has another one. -/
theorem ClassEntry.TokensDistinct.substitutes_iff {view : TypeView} {token : MethodToken}
    (distinct : view.entry.TokensDistinct) :
    view.substitutes token = true ↔ ∃ declared,
      view.methods.filter (·.asDeclared.token = token) = [declared] ∧ declared.token ≠ token := by
  rw [TypeView.substitutes, ← List.any_filter]
  constructor
  · intro substitutes
    obtain ⟨declared, found, notDeclared⟩ := List.any_eq_true.mp substitutes
    obtain ⟨member, sameToken⟩ := List.mem_filter.mp found
    have declaredToken := of_decide_eq_true sameToken
    refine ⟨declared, distinct.filter_declared_eq member declaredToken, fun unchanged => ?_⟩
    rw [MethodView.isDeclared_iff.mpr (unchanged.trans declaredToken.symm)] at notDeclared
    contradiction
  · rintro ⟨declared, single, changed⟩
    have found : declared ∈ view.methods.filter (·.asDeclared.token = token) := by simp [single]
    have declaredToken := of_decide_eq_true (List.mem_filter.mp found).2
    have notDeclared : declared.isDeclared = false := by
      rw [Bool.eq_false_iff, Ne, MethodView.isDeclared_iff, declaredToken]
      exact changed
    rw [single, List.any_cons, notDeclared]
    rfl

/-! ## Methods in another order -/

namespace TypeView.Related

variable {view other : TypeView}

theorem declares_eq (related : view.Related ClassEntry.Reordered other) (token : MethodToken) :
    view.declares token = other.declares token := by
  refine related.any_methods_eq fun method otherMethod corresponds => ?_
  rw [corresponds.declaredToken]

theorem substitutes_eq (related : view.Related ClassEntry.Reordered other) (token : MethodToken) :
    view.substitutes token = other.substitutes token := by
  refine related.any_methods_eq fun method otherMethod corresponds => ?_
  rw [corresponds.declaredToken, corresponds.isDeclared_eq]

end TypeView.Related

namespace ClassPool

variable {definitions others : List ClassDef} {pool other : ClassPool} {view otherView : TypeView}

theorem Reordered.exists_reachable (reordered : pool.Reordered other)
    (reachable : pool.Reachable view) :
    ∃ otherView, other.Reachable otherView ∧ view.Related ClassEntry.Reordered otherView := by
  induction reachable with
  | declaration member =>
      obtain ⟨otherEntry, otherMember, same⟩ := List.Forall₂.exists_of_mem_left reordered member
      exact ⟨_, .declaration otherMember, same, rfl⟩
  | superType _ above ih =>
      obtain ⟨otherView, otherReachable, related⟩ := ih
      have step := reordered.simulation.stepsRelated _ _ related
      rw [above] at step
      obtain ⟨otherParent, otherAbove, parents⟩ := step.exists_of_some
      exact ⟨otherParent, .superType otherReachable otherAbove, parents⟩
  | asDeclaration _ ih =>
      obtain ⟨otherView, otherReachable, related⟩ := ih
      exact ⟨_, .asDeclaration otherReachable, related.entry, rfl⟩

theorem Reordered.isTypeVariableBridge_eq (reordered : pool.Reordered other)
    (consistent : pool.Consistent) (member : view.entry ∈ pool.classes)
    (otherMember : otherView.entry ∈ other.classes)
    (related : view.Related ClassEntry.Reordered otherView) (method : MethodEntry) :
    pool.isTypeVariableBridge ⟨view, method⟩ = other.isTypeVariableBridge ⟨otherView, method⟩ := by
  have otherConsistent := reordered.consistent consistent
  have corresponds := related.corresponds method
  have chains := reordered.simulation.superTypes consistent.acyclic otherConsistent.acyclic member
    otherMember related
  have nearest := chains.find?_rel fun _ _ related =>
    related.declares_eq (MethodView.mk view method).token
  rw [ClassPool.isTypeVariableBridge_eq consistent member,
    ClassPool.isTypeVariableBridge_eq otherConsistent otherMember, corresponds.isBridge_eq,
    related.isReturnTypeBridge_eq, corresponds.isInterface, ← corresponds.token,
    nearest.any_eq fun _ _ related => related.substitutes_eq _]

/-! ## What is above the deciding super type -/

theorem ChangedAbove.isTypeVariableBridge_eq {ancestor : TypeView} {nearer : List TypeView}
    {method : MethodView} (changed : pool.ChangedAbove ancestor.name other)
    (consistent : pool.Consistent) (otherConsistent : other.Consistent)
    (distinct : (other.classes.map (·.name)).Nodup) (member : method.owner.entry ∈ pool.classes)
    (nearest : pool.Nearest method.owner (·.declares method.token) nearer ancestor) :
    other.Nearest method.owner (·.declares method.token) nearer ancestor ∧
      other.isTypeVariableBridge method = pool.isTypeVariableBridge method := by
  obtain ⟨farther, split⟩ := nearest.split
  have otherSplit := changed.exists_superTypes_eq consistent.acyclic otherConsistent.acyclic
    distinct member split
  have notAbove := not_above_of_mem_superTypes consistent.acyclic member nearest.mem
  have otherNearest : other.Nearest method.owner (·.declares method.token) nearer ancestor :=
    ⟨otherSplit, nearest.holds_ancestor, nearest.fails_nearer⟩
  refine ⟨otherNearest, ?_⟩
  rw [ClassPool.isTypeVariableBridge_eq consistent member,
    ClassPool.isTypeVariableBridge_eq otherConsistent (changed _ member notAbove), nearest.find?_eq,
    otherNearest.find?_eq]

/-! ## The rule -/

/-- What the rule for type variables says of a method that is seen through a view of the pool of a
list of definitions. -/
structure TypeVariableRule (definitions : List ClassDef) (pool : ClassPool) (view : TypeView)
    (method : MethodView) : Prop where
  /-- The rule holds of bridges that are no return-type bridges: of all that are declared by
  interfaces, and of those of a class if the nearest super type that declares their token has one
  method that is declared with it, and this method has another token through the view. -/
  holds_iff : pool.isTypeVariableBridge method = true ↔
    method.isBridge = true ∧ method.isReturnTypeBridge = false ∧
      (view.isInterface = true ∨ ∃ nearer ancestor declared,
        pool.Nearest view (·.declares method.token) nearer ancestor ∧
        ancestor.methods.filter (·.asDeclared.token = method.token) = [declared] ∧
        declared.token ≠ method.token)
  /-- There never is a second method that is declared with the token. -/
  declared_once : ∀ ancestor ∈ pool.superTypes view, ancestor.declares method.token = true →
    ∃ declared, ancestor.methods.filter (·.asDeclared.token = method.token) = [declared]
  /-- If the rule holds of a method of a class, then that super type has type arguments. -/
  isParameterized : pool.isTypeVariableBridge method = true → view.isInterface = false →
    ∃ nearer ancestor, pool.Nearest view (·.declares method.token) nearer ancestor ∧
      ancestor.isParameterized = true
  /-- The classes may list their methods in any order. -/
  any_order : ∀ others, List.Forall₂ ClassDef.Reordered definitions others →
    ∃ other, ofDefinitions others = .ok other ∧
      ∃ otherView, other.Reachable otherView ∧ view.Related ClassEntry.Reordered otherView ∧
        method.entry ∈ otherView.entry.methods ∧
        other.isTypeVariableBridge ⟨otherView, method.entry⟩ = pool.isTypeVariableBridge method
  /-- The classes above that super type may be any others that are accepted. -/
  changed_above : ∀ nearer ancestor,
    pool.Nearest view (·.declares method.token) nearer ancestor →
      ∀ others other, ofDefinitions others = .ok other →
        ClassDef.ChangedAbove ancestor.name (withRoot definitions) (withRoot others) →
          other.Reachable view ∧
            other.Nearest view (·.declares method.token) nearer ancestor ∧
            other.isTypeVariableBridge method = pool.isTypeVariableBridge method

theorem isTypeVariableBridge_iff (consistent : pool.Consistent) {method : MethodView}
    (member : method.owner.entry ∈ pool.classes) :
    pool.isTypeVariableBridge method = true ↔
      method.isBridge = true ∧ method.isReturnTypeBridge = false ∧
        (method.owner.isInterface = true ∨ ∃ nearer ancestor declared,
          pool.Nearest method.owner (·.declares method.token) nearer ancestor ∧
          ancestor.methods.filter (·.asDeclared.token = method.token) = [declared] ∧
          declared.token ≠ method.token) := by
  rw [isTypeVariableBridge_eq consistent member, Bool.and_eq_true, Bool.and_eq_true,
    Bool.not_eq_true', Bool.or_eq_true, Option.any_eq_true, and_assoc]
  refine and_congr_right fun _ => and_congr_right fun _ => or_congr_right ?_
  constructor
  · rintro ⟨ancestor, found, substitutes⟩
    have distinct := tokensDistinct_of_mem_superTypes consistent member
      (List.mem_of_find?_eq_some found)
    obtain ⟨nearer, nearest⟩ := find?_eq_some_iff_nearest.mp found
    obtain ⟨declared, single, changed⟩ := distinct.substitutes_iff.mp substitutes
    exact ⟨nearer, ancestor, declared, nearest, single, changed⟩
  · rintro ⟨nearer, ancestor, declared, nearest, single, changed⟩
    have distinct := tokensDistinct_of_mem_superTypes consistent member nearest.mem
    exact ⟨ancestor, nearest.find?_eq, distinct.substitutes_iff.mpr ⟨declared, single, changed⟩⟩

/-- The rule for type variables has an exact meaning in which neither the order of methods nor the
classes above the deciding super type occur. -/
theorem typeVariableRule (accepted : ofDefinitions definitions = .ok pool) :
    ∀ view, pool.Reachable view → ∀ method ∈ view.methods,
      TypeVariableRule definitions pool view method := by
  intro view reachable method member
  obtain rfl : method.owner = view := TypeView.owner_of_mem_methods member
  obtain ⟨means, consistent⟩ := ofDefinitions_eq_ok_iff.mp accepted
  have entryMember := reachable.entry_mem
  exact {
    holds_iff := isTypeVariableBridge_iff consistent entryMember
    declared_once := fun ancestor above declares =>
      (tokensDistinct_of_mem_superTypes consistent entryMember above).exists_filter_declared_eq
        declares
    isParameterized := by
      intro isTypeVariableBridge isClass
      obtain ⟨nearer, ancestor, nearest, substitutes⟩ :=
        exists_nearest_substitutes consistent entryMember isClass isTypeVariableBridge
      exact ⟨nearer, ancestor, nearest, TypeView.isParameterized_of_substitutes substitutes⟩
    any_order := by
      intro others reordered
      obtain ⟨other, otherAccepted, same⟩ := ofDefinitions_reordered accepted reordered
      obtain ⟨otherView, otherReachable, related⟩ := same.exists_reachable reachable
      exact ⟨other, otherAccepted, otherView, otherReachable, related,
        related.entry.methods.mem_iff.mp (TypeView.entry_mem_of_mem_methods member),
        (same.isTypeVariableBridge_eq consistent entryMember otherReachable.entry_mem related
          method.entry).symm⟩
    changed_above := by
      intro nearer ancestor nearest others other otherAccepted changedDefinitions
      obtain ⟨otherMeans, otherConsistent⟩ := ofDefinitions_eq_ok_iff.mp otherAccepted
      have changed := means.changedAbove otherMeans changedDefinitions
      have notAbove := not_above_of_mem_superTypes consistent.acyclic entryMember nearest.mem
      exact ⟨changed.reachable otherMeans.names_nodup reachable notAbove,
        changed.isTypeVariableBridge_eq consistent otherConsistent otherMeans.names_nodup
          entryMember nearest⟩ }

/-- `Scenario.closestTypeVariableAncestor` with another class at the top, which does not have the
bridged method and extends a class of its own. -/
def changedTypeVariableAncestor : List ClassDef :=
  { name := "chain.tv.Top", modifiers := [.abstract], extending := some "chain.tv.New<int[]>" } ::
    { name := "chain.tv.New", typeParameters := [{ name := "U" }]
      methods := [{ name := "put", parameters := ["U"] }] } ::
    Scenario.closestTypeVariableAncestor.tail

theorem typeVariableRule_scenario :
    ∃ pool, ofDefinitions Scenario.closestTypeVariableAncestor = .ok pool ∧
      ∃ view, pool.Reachable view ∧ ∃ method ∈ view.methods,
        view.isInterface = false ∧ pool.isTypeVariableBridge method = true ∧
        TypeVariableRule Scenario.closestTypeVariableAncestor pool view method ∧
        ∃ other, ofDefinitions changedTypeVariableAncestor = .ok other ∧
          other.Reachable view ∧ other.isTypeVariableBridge method = true := by
  obtain ⟨pool, accepted, entry, entryMember, method, member, isClass, holds, ancestor, nearest,
      ancestorName, belowTop, other, otherAccepted⟩ :
    ∃ pool, ofDefinitions Scenario.closestTypeVariableAncestor = .ok pool ∧
      ∃ entry ∈ pool.classes, ∃ method ∈ (TypeView.declaration entry).methods,
        (TypeView.declaration entry).isInterface = false ∧
        pool.isTypeVariableBridge method = true ∧
        ∃ ancestor, pool.Nearest (.declaration entry) (·.declares method.token) [] ancestor ∧
          ancestor.name = "chain.tv.Mid" ∧ pool.Subclass "chain.tv.Mid" "chain.tv.Top" ∧
        ∃ other, ofDefinitions changedTypeVariableAncestor = .ok other :=
    ⟨_, rfl, _, List.mem_cons_of_mem _ (List.mem_cons_of_mem _ List.mem_cons_self), _,
      List.mem_cons_of_mem _ List.mem_cons_self, rfl, by decide +kernel, _,
      ⟨⟨_, rfl⟩, by decide +kernel, nofun⟩, rfl,
      ⟨_, List.mem_cons_of_mem _ List.mem_cons_self, rfl, _, rfl, rfl⟩, _, rfl⟩
  have reachable : pool.Reachable (.declaration entry) := .declaration entryMember
  have rule := typeVariableRule accepted _ reachable method member
  have kept : ∀ definition ∈ withRoot Scenario.closestTypeVariableAncestor,
      definition.name = "chain.tv.Top" ∨ definition ∈ withRoot changedTypeVariableAncestor := by
    decide +kernel
  have changed : ClassDef.ChangedAbove ancestor.name
      (withRoot Scenario.closestTypeVariableAncestor) (withRoot changedTypeVariableAncestor) := by
    intro definition definitionMember notAbove
    refine (kept definition definitionMember).resolve_left fun isTop => ?_
    rw [ancestorName, isTop] at notAbove
    exact notAbove (.single ((ofDefinitions_eq_ok_iff.mp accepted).1.subclass_iff.mp belowTop))
  obtain ⟨otherReachable, _, same⟩ :=
    rule.changed_above [] ancestor nearest _ other otherAccepted changed
  exact ⟨pool, accepted, _, reachable, method, member, isClass, holds, rule, other, otherAccepted,
    otherReachable, same.trans holds⟩

end ClassPool

end BridgeMethods
