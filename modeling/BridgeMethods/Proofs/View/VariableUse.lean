import BridgeMethods.Proofs.TypeExpr.Heads
import BridgeMethods.Proofs.View.Names

/-!
# Uses of type variables

What a type variable stands for depends on where it is used.  In a method the type parameters of the
method come first; otherwise it is a type parameter of the class, which stands for the argument that
the view binds to it or else for its bound.

`TypeView.Evaluates` follows the erasure of a variable from bound to bound.  It counts the depth up
to the limit and records the uses that are expanded, so that one can tell what erasure has looked at
and not only what came of it.
-/

namespace BridgeMethods

/-- A type variable as it is used in a method, or in the class outside of its methods. -/
structure VariableUse where
  method : Option MethodEntry
  name : String

/-- The method is one of the class, and the variable is one of those in scope. -/
structure VariableUse.InScope (entry : ClassEntry) (use : VariableUse) : Prop where
  owns : entry.Owns use.method
  declared : use.name ∈ entry.variablesInScope use.method

namespace TypeView

/-- What a variable stands for: an erased type argument, or a bound with the method whose type
parameters are in scope of it. -/
inductive Meaning where
  | argument (erased : String)
  | bound (method : Option MethodEntry) (t : TypeExpr)

/-- What a variable stands for where it is used, if it is known there. -/
def meaning? (view : TypeView) (use : VariableUse) : Option Meaning :=
  match use.method.bind fun m => TypeParameter.find? m.typeParameters use.name with
  | some parameter => some (.bound use.method parameter.bound)
  | none =>
      match view.bindings.lookup use.name with
      | some erased => some (.argument erased)
      | none =>
          (TypeParameter.find? view.entry.typeParameters use.name).map fun parameter =>
            .bound none parameter.bound

/-- The erasure of a variable that is used at a depth below other bounds: the uses that are
expanded, in order, and the erased name.  A variable that is not known is erased like the root, and
so is every variable at the limit, which is not expanded any more. -/
inductive Evaluates (view : TypeView) : Nat → VariableUse → List VariableUse → String → Prop
  | limit {depth : Nat} {use : VariableUse} : maxBoundChain ≤ depth →
      Evaluates view depth use [] objectName
  | unknown {depth : Nat} {use : VariableUse} : depth < maxBoundChain →
      view.meaning? use = none → Evaluates view depth use [use] objectName
  | argument {depth : Nat} {use : VariableUse} {erased : String} : depth < maxBoundChain →
      view.meaning? use = some (.argument erased) → Evaluates view depth use [use] erased
  | named {depth : Nat} {use : VariableUse} {method : Option MethodEntry} {t : TypeExpr}
      {name : String} : depth < maxBoundChain → view.meaning? use = some (.bound method t) →
      t.head = .named name → Evaluates view depth use [use] (arrayName name t.headDimensions)
  | typeVar {depth : Nat} {use : VariableUse} {method : Option MethodEntry} {t : TypeExpr}
      {next : String} {expanded : List VariableUse} {erased : String} : depth < maxBoundChain →
      view.meaning? use = some (.bound method t) → t.head = .typeVar next →
      Evaluates view (depth + 1) ⟨method, next⟩ expanded erased →
      Evaluates view depth use (use :: expanded) (arrayName erased t.headDimensions)

variable {view : TypeView} {use : VariableUse}

/-- A bound is that of a type parameter of the method, or of the class. -/
theorem meaning?_eq_bound {method : Option MethodEntry} {t : TypeExpr}
    (means : view.meaning? use = some (.bound method t)) :
    (∃ m, use.method = some m ∧ method = some m ∧
        ∃ parameter ∈ m.typeParameters, parameter.bound = t) ∨
      method = none ∧ ∃ parameter ∈ view.entry.typeParameters, parameter.bound = t := by
  rw [meaning?] at means
  split at means
  · rename_i parameter found
    obtain ⟨m, given, found⟩ := Option.bind_eq_some_iff.mp found
    obtain ⟨rfl, rfl⟩ := Meaning.bound.inj (Option.some.inj means)
    exact .inl ⟨m, given, given, parameter, TypeParameter.mem_of_find? found, rfl⟩
  · split at means
    · cases means
    · obtain ⟨parameter, found, same⟩ := Option.map_eq_some_iff.mp means
      obtain ⟨rfl, rfl⟩ := Meaning.bound.inj same
      exact .inr ⟨rfl, parameter, TypeParameter.mem_of_find? found, rfl⟩

/-- Erasing a variable with one more step than given is erasing what it stands for. -/
theorem eraseVar_succ (view : TypeView) (budget : Nat) (use : VariableUse) :
    view.eraseVar (budget + 1) use.method use.name =
      match view.meaning? use with
      | none => objectName
      | some (.argument erased) => erased
      | some (.bound method t) => t.erasure (view.eraseVar budget method) := by
  rw [eraseVar, meaning?]
  cases use.method.bind fun m => TypeParameter.find? m.typeParameters use.name with
  | some parameter => rfl
  | none =>
      cases view.bindings.lookup use.name with
      | some erased => rfl
      | none => cases TypeParameter.find? view.entry.typeParameters use.name <;> rfl

end TypeView

/-! ## Variables in scope -/

namespace VariableUse.InScope

variable {view : TypeView} {use : VariableUse}

/-- Whatever the view binds, a variable in scope stands for something. -/
theorem exists_meaning (inScope : use.InScope view.entry) :
    ∃ meaning, view.meaning? use = some meaning := by
  obtain ⟨scope, parameter, declared⟩ := ClassEntry.exists_declared inScope.declared
  rw [ClassEntry.declared?] at declared
  rw [TypeView.meaning?]
  cases ofMethod : use.method.bind fun m => TypeParameter.find? m.typeParameters use.name with
  | some parameter => exact ⟨_, rfl⟩
  | none =>
      simp only [ofMethod] at declared
      obtain ⟨parameter, found, _⟩ := Option.map_eq_some_iff.mp declared
      cases view.bindings.lookup use.name with
      | some erased => exact ⟨_, rfl⟩
      | none => exact ⟨.bound none parameter.bound, by simp only [found, Option.map_some]⟩

/-- The bound of a variable mentions variables that are in scope of the bound. -/
theorem next (inScope : use.InScope view.entry) (wellScoped : view.entry.WellScoped)
    {method : Option MethodEntry} {t : TypeExpr} {name : String}
    (means : view.meaning? use = some (.bound method t)) (heads : t.head = .typeVar name) :
    InScope view.entry ⟨method, name⟩ := by
  obtain ⟨m, used, rfl, parameter, member, rfl⟩ | ⟨rfl, parameter, member, rfl⟩ :=
    TypeView.meaning?_eq_bound means
  · have owned := inScope.owns m used
    exact ⟨ClassEntry.owns_some owned,
      wellScoped.methodBounds m owned parameter member name (.of_head heads)⟩
  · exact ⟨ClassEntry.owns_none, wellScoped.bounds parameter member name (.of_head heads)⟩

end VariableUse.InScope

/-! ## Evaluation -/

namespace TypeView

variable {view : TypeView} {use : VariableUse} {depth : Nat}

/-- Erasure ends, whatever the bounds are: there is one evaluation with its result at least. -/
theorem exists_evaluates (view : TypeView) {budget : Nat} (rest : depth + budget = maxBoundChain)
    (use : VariableUse) :
    ∃ expanded, view.Evaluates depth use expanded (view.eraseVar budget use.method use.name) := by
  induction budget generalizing depth use with
  | zero => exact ⟨[], .limit (Nat.le_of_eq rest.symm)⟩
  | succ budget ih =>
      have below : depth < maxBoundChain := by omega
      rw [eraseVar_succ]
      cases means : view.meaning? use with
      | none => exact ⟨[use], .unknown below means⟩
      | some meaning =>
          cases meaning with
          | argument erased => exact ⟨[use], .argument below means⟩
          | bound method t =>
              simp only [TypeExpr.erasure_eq_arrayName]
              cases heads : t.head with
              | named name => exact ⟨[use], .named below means heads⟩
              | typeVar name =>
                  have deeper : depth + 1 + budget = maxBoundChain := by omega
                  obtain ⟨expanded, evaluates⟩ := ih deeper ⟨method, name⟩
                  exact ⟨use :: expanded, .typeVar below means heads evaluates⟩

namespace Evaluates

variable {expanded other : List VariableUse} {erased otherErased : String}

/-- And there is no other one. -/
theorem unique (evaluates : view.Evaluates depth use expanded erased)
    (evaluatesOther : view.Evaluates depth use other otherErased) :
    expanded = other ∧ erased = otherErased := by
  induction evaluates generalizing other otherErased with
  | limit _ | unknown _ _ | argument _ _ | named _ _ _ => cases evaluatesOther <;> grind
  | typeVar _ means heads _ ih =>
      cases evaluatesOther with
      | typeVar _ otherMeans otherHeads rest =>
          obtain ⟨rfl, rfl⟩ := Meaning.bound.inj (Option.some.inj (means.symm.trans otherMeans))
          obtain rfl := TypeExpr.Head.typeVar.inj (heads.symm.trans otherHeads)
          obtain ⟨rfl, rfl⟩ := ih rest
          exact ⟨rfl, rfl⟩
      | limit _ | unknown _ _ | argument _ _ | named _ _ _ => grind

/-- No more variables are expanded than are left up to the limit. -/
theorem length_le (evaluates : view.Evaluates depth use expanded erased) :
    expanded.length ≤ maxBoundChain - depth := by
  induction evaluates with
  | limit _ => exact Nat.zero_le _
  | unknown below _ | argument below _ | named below _ _ =>
      rw [List.length_singleton]
      omega
  | typeVar below _ _ _ ih =>
      rw [List.length_cons]
      omega

/-- All variables that are expanded are in scope where they are used, if the first one is. -/
theorem inScope (evaluates : view.Evaluates depth use expanded erased)
    (wellScoped : view.entry.WellScoped) (inScope : use.InScope view.entry) :
    ∀ passed ∈ expanded, passed.InScope view.entry := by
  induction evaluates with
  | limit _ => exact nofun
  | unknown _ _ | argument _ _ | named _ _ _ => exact List.forall_mem_singleton.mpr inScope
  | typeVar _ means heads _ ih =>
      exact List.forall_mem_cons.mpr ⟨inScope, ih (inScope.next wellScoped means heads)⟩

end Evaluates

end TypeView

end BridgeMethods
