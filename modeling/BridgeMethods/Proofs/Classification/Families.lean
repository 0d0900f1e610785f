import BridgeMethods.Definition.Scenario
import BridgeMethods.Proofs.Lookup
import BridgeMethods.Proofs.View.Alike
import BridgeMethods.Proofs.View.Names

/-!
# Families of methods

The methods of a type that share a name and erased parameter types are a family: nothing but the
return type tells them apart.  A return-type bridge stands beside another method of its family.

As long as a type is looked at as it is declared, all methods of a family have different return
types, and each of them has a sibling as soon as there are two.  Type arguments can make methods
equal that are declared apart, and a method that has become equal to a bridge is no sibling of it.
-/

namespace BridgeMethods

/-- The methods of a type that have a name and parameter types. -/
def TypeView.family (view : TypeView) (name : String) (parameterTypes : List String) :
    List MethodView :=
  view.methods.filter fun method =>
    method.internalName = name && method.parameterTypes = parameterTypes

theorem TypeView.mem_family_iff {view : TypeView} {name : String} {parameterTypes : List String}
    {method : MethodView} :
    method ∈ view.family name parameterTypes ↔
      method ∈ view.methods ∧ method.internalName = name ∧
        method.parameterTypes = parameterTypes := by
  simp [family]

namespace MethodView

/-- Among methods of one type, a sibling is one that differs in the return type only. -/
theorem isSiblingOf_iff {method candidate : MethodView}
    (sameOwner : candidate.owner = method.owner) :
    method.isSiblingOf candidate = true ↔
      candidate.internalName = method.internalName ∧
        candidate.parameterTypes = method.parameterTypes ∧
        candidate.returnType ≠ method.returnType := by
  simp only [isSiblingOf, sameAs, token, sameOwner, MethodToken.mk.injEq, Bool.and_eq_true,
    Bool.not_eq_true', decide_eq_true_iff, decide_true, Bool.true_and, decide_eq_false_iff_not]
  constructor
  · rintro ⟨⟨different, sameName⟩, sameParameters⟩
    exact ⟨sameName, sameParameters,
      fun sameReturn => different ⟨sameName, sameReturn, sameParameters⟩⟩
  · rintro ⟨sameName, sameParameters, different⟩
    exact ⟨⟨fun same => different same.2.1, sameName⟩, sameParameters⟩

theorem isReturnTypeBridge_iff {view : TypeView} {method : MethodView}
    (member : method ∈ view.methods) :
    method.isReturnTypeBridge = true ↔
      method.isBridge = true ∧ ∃ candidate ∈ view.methods,
        candidate.internalName = method.internalName ∧
          candidate.parameterTypes = method.parameterTypes ∧
          candidate.returnType ≠ method.returnType := by
  have owner : method.owner = view := TypeView.owner_of_mem_methods member
  rw [isReturnTypeBridge_eq, Bool.and_eq_true, owner, List.any_eq_true]
  refine and_congr_right fun _ => exists_congr fun candidate =>
    and_congr_right fun candidateMember => ?_
  exact isSiblingOf_iff ((TypeView.owner_of_mem_methods candidateMember).trans owner.symm)

end MethodView

/-! ## Families of declarations -/

theorem ClassEntry.TokensDistinct.family_returnTypes_nodup {entry : ClassEntry}
    (distinct : entry.TokensDistinct) (name : String) (parameterTypes : List String) :
    (((TypeView.declaration entry).family name parameterTypes).map (·.returnType)).Nodup := by
  have tokens_eq : ((TypeView.declaration entry).family name parameterTypes).map (·.token) =
      (((TypeView.declaration entry).family name parameterTypes).map (·.returnType)).map
        fun returnType => ⟨name, returnType, parameterTypes⟩ := by
    rw [List.map_map]
    refine List.map_congr_left fun method member => ?_
    obtain ⟨_, rfl, rfl⟩ := TypeView.mem_family_iff.mp member
    rfl
  have sublist := (List.filter_sublist (l := (TypeView.declaration entry).methods)
    (p := fun method => method.internalName = name && method.parameterTypes = parameterTypes)).map
      (·.token)
  have tokens : (((TypeView.declaration entry).family name parameterTypes).map (·.token)).Nodup :=
    distinct.sublist sublist
  rw [tokens_eq] at tokens
  exact tokens.of_map _

/-- In a declaration, a bridge has a sibling exactly if its family has a second method. -/
theorem ClassEntry.TokensDistinct.isReturnTypeBridge_eq {entry : ClassEntry}
    (distinct : entry.TokensDistinct) {name : String} {parameterTypes : List String}
    {method : MethodView}
    (member : method ∈ (TypeView.declaration entry).family name parameterTypes) :
    method.isReturnTypeBridge = (method.isBridge &&
      decide (2 ≤ ((TypeView.declaration entry).family name parameterTypes).length)) := by
  have returnTypes := distinct.family_returnTypes_nodup name parameterTypes
  have siblings := List.exists_key_ne_iff returnTypes member
  obtain ⟨methodMember, rfl, rfl⟩ := TypeView.mem_family_iff.mp member
  rw [Bool.eq_iff_iff, MethodView.isReturnTypeBridge_iff methodMember, Bool.and_eq_true,
    decide_eq_true_iff, ← siblings]
  simp only [TypeView.mem_family_iff, and_assoc]

namespace ClassPool

variable {definitions : List ClassDef} {pool : ClassPool}

/-- Return-type bridges are decided family by family: among the declarations of a type, a method
that is alone in its family is none, and of several methods in a family just the bridges are.
Through any view, a bridge is a return-type bridge if and only if the type has a method that differs
from it in the return type only. -/
theorem returnTypeBridges_by_family (accepted : ofDefinitions definitions = .ok pool) :
    (∀ view ∈ pool.types, ∀ name parameterTypes,
      ((view.family name parameterTypes).length = 1 →
        ∀ method ∈ view.family name parameterTypes, method.isReturnTypeBridge = false) ∧
      (2 ≤ (view.family name parameterTypes).length →
        (view.family name parameterTypes).filter (·.isReturnTypeBridge) =
          (view.family name parameterTypes).filter (·.isBridge))) ∧
    ∀ view, pool.Reachable view → ∀ method ∈ view.methods, method.isBridge = true →
      (method.isReturnTypeBridge = true ↔ ∃ candidate ∈ view.methods,
        candidate.internalName = method.internalName ∧
          candidate.parameterTypes = method.parameterTypes ∧
          candidate.returnType ≠ method.returnType) := by
  have consistent := (ofDefinitions_eq_ok_iff.mp accepted).2
  constructor
  · intro view viewMember name parameterTypes
    obtain ⟨entry, entryMember, rfl⟩ := List.mem_map.mp viewMember
    have distinct := consistent.tokensDistinct entry entryMember
    constructor
    · intro alone method member
      rw [distinct.isReturnTypeBridge_eq member, alone]
      simp
    · intro several
      refine List.filter_congr fun method member => ?_
      rw [distinct.isReturnTypeBridge_eq member, decide_eq_true several, Bool.and_true]
  · intro view _ method member isBridge
    rw [MethodView.isReturnTypeBridge_iff member]
    exact and_iff_right isBridge

/-- A generic class with a bridge in a family of two and with another bridge that is alone.  The
subclass extends it such that the lonely bridge meets an equal method. -/
def bridgesInFamilies : List ClassDef := [
  { name := "a.Base"
    typeParameters := [{ name := "T", bound := some "java.lang.Number" }]
    methods := [
      { name := "get", returns := "T" },
      { name := "get", modifiers := [.bridge], returns := objectName },
      { name := "put", parameters := ["T"] },
      { name := "put", modifiers := [.bridge], parameters := ["java.lang.String"] }] },
  { name := "a.Sub", extending := some "a.Base<java.lang.String>" }]

theorem returnTypeBridges_by_family_scenario :
    ∃ pool, ofDefinitions bridgesInFamilies = .ok pool ∧
      ∃ base ∈ pool.types,
        ((base.family "put" ["java.lang.String"]).length = 1 ∧
          ∀ method ∈ base.family "put" ["java.lang.String"], method.isReturnTypeBridge = false) ∧
        ((base.family "get" []).length = 2 ∧
          (base.family "get" []).filter (·.isReturnTypeBridge) =
            (base.family "get" []).filter (·.isBridge)) ∧
        ∃ view, pool.Reachable view ∧ (view.family "put" ["java.lang.String"]).length = 2 ∧
          ∃ method ∈ view.methods, method.isBridge = true ∧
            (method.isReturnTypeBridge = true ↔ ∃ candidate ∈ view.methods,
              candidate.internalName = method.internalName ∧
                candidate.parameterTypes = method.parameterTypes ∧
                candidate.returnType ≠ method.returnType) := by
  obtain ⟨pool, accepted, base, baseMember, alone, several, sub, subMember, view, above, meeting,
      method, member, isBridge⟩ :
    ∃ pool, ofDefinitions bridgesInFamilies = .ok pool ∧ ∃ base ∈ pool.types,
      (base.family "put" ["java.lang.String"]).length = 1 ∧ (base.family "get" []).length = 2 ∧
      ∃ sub ∈ pool.classes, ∃ view, pool.superType? (.declaration sub) = some view ∧
        (view.family "put" ["java.lang.String"]).length = 2 ∧
        ∃ method ∈ view.methods, method.isBridge = true :=
    ⟨_, rfl, _, List.mem_cons_self, by decide +kernel, by decide +kernel, _,
      List.mem_cons_of_mem _ List.mem_cons_self, _, rfl, by decide +kernel, _,
      List.mem_cons_of_mem _ List.mem_cons_self, by decide +kernel⟩
  have reachable : pool.Reachable view := .superType (.declaration subMember) above
  rcases returnTypeBridges_by_family accepted with ⟨declared, seen⟩
  exact ⟨pool, accepted, base, baseMember,
    ⟨alone, (declared base baseMember "put" ["java.lang.String"]).1 alone⟩,
    ⟨several, (declared base baseMember "get" []).2 several.ge⟩,
    view, reachable, meeting, method, member, isBridge, seen view reachable method member isBridge⟩

end ClassPool

end BridgeMethods
