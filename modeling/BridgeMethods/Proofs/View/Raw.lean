import BridgeMethods.Proofs.Pool.Scope

/-!
# Type arguments that say nothing

A view without type arguments erases each variable of its class to the erasure of its bound.  A view
that binds the variables to just these names sees the same.  The two go different ways: a bound
variable ends the walk along the bounds at once, an unbound one takes as many steps as its bounds
do.  So both come to the same name only if the limit on these steps is not reached, and then it does
not matter how many steps have been made before.
-/

namespace BridgeMethods

namespace ClassEntry

variable {entry : ClassEntry} {method : Option MethodEntry} {name : String} {limit : Nat}

/-- Bounds that are followed from any variable settle within the length of the bound chains. -/
theorem BoundChainsWithin.settles (short : entry.BoundChainsWithin limit)
    (owns : entry.Owns method) (name : String) : entry.settles limit method name = true := by
  rw [settles_eq_true_iff]
  intro rest isChain
  exact short method owns (name :: rest) isChain

/-- A variable that the method does not declare is one of the class. -/
theorem declared?_eq_of_not_ofMethod
    (notOfMethod : (method.bind fun m => TypeParameter.find? m.typeParameters name) = none) :
    entry.declared? method name = entry.declared? none name := by
  simp only [declared?, notOfMethod, Option.bind_none]

theorem settles_congr {scope : Option MethodEntry}
    (same : entry.declared? method name = entry.declared? scope name) :
    entry.settles limit method name = entry.settles limit scope name := by
  cases limit with
  | zero => rw [settles, settles, same]
  | succ limit => rw [settles, settles, same]

end ClassEntry

namespace TypeView

variable {entry : ClassEntry} {view : TypeView} {method : Option MethodEntry} {name : String}

/-- A variable that is not bound is erased to the erasure of its bound, in the scope of that. -/
theorem eraseVar_succ_of_not_bound
    (notBound : (method.bind fun m => TypeParameter.find? m.typeParameters name) = none →
      view.bindings.lookup name = none) (budget : Nat) :
    view.eraseVar (budget + 1) method name =
      match view.entry.declared? method name with
      | none => objectName
      | some (scope, parameter) => parameter.bound.erasure (view.eraseVar budget scope) := by
  rw [eraseVar, ClassEntry.declared?]
  cases ofMethod : method.bind fun m => TypeParameter.find? m.typeParameters name with
  | some parameter => rfl
  | none =>
      simp only [notBound ofMethod]
      cases TypeParameter.find? view.entry.typeParameters name with
      | none => rfl
      | some parameter => rfl

theorem eraseVar_declaration_succ (entry : ClassEntry) (budget : Nat)
    (method : Option MethodEntry) (name : String) :
    (declaration entry).eraseVar (budget + 1) method name =
      match entry.declared? method name with
      | none => objectName
      | some (scope, parameter) =>
          parameter.bound.erasure ((declaration entry).eraseVar budget scope) :=
  eraseVar_succ_of_not_bound (fun _ => rfl) budget

/-- With enough steps left, it does not matter how many there are. -/
theorem eraseVar_eq_of_settles {limit budget other : Nat}
    (settled : entry.settles limit method name = true) (enough : limit ≤ budget)
    (enoughOther : limit ≤ other) :
    (declaration entry).eraseVar budget method name =
      (declaration entry).eraseVar other method name := by
  induction limit generalizing method name budget other with
  | zero =>
      have undeclared : entry.declared? method name = none := Option.isNone_iff_eq_none.mp settled
      have erased (budget : Nat) :
          (declaration entry).eraseVar budget method name = objectName := by
        cases budget with
        | zero => rfl
        | succ budget => rw [eraseVar_declaration_succ, undeclared]
      rw [erased, erased]
  | succ limit ih =>
      obtain ⟨budget, rfl⟩ : ∃ smaller, budget = smaller + 1 := ⟨budget - 1, by omega⟩
      obtain ⟨other, rfl⟩ : ∃ smaller, other = smaller + 1 := ⟨other - 1, by omega⟩
      rw [eraseVar_declaration_succ, eraseVar_declaration_succ]
      rw [ClassEntry.settles] at settled
      cases declared : entry.declared? method name with
      | none => rfl
      | some found =>
          obtain ⟨scope, parameter⟩ := found
          apply TypeExpr.erasure_congr
          intro next asked
          simp only [declared, asked] at settled
          exact ih settled (Nat.le_of_succ_le_succ enough) (Nat.le_of_succ_le_succ enoughOther)

/-- What the view binds to a variable is what the declaration erases the variable to. -/
def BindsAsDeclared (view : TypeView) : Prop :=
  ∀ name erased, view.bindings.lookup name = some erased →
    erased = (declaration view.entry).eraseVar maxBoundChain none name

/-- Along bounds that settle, bindings of this kind make no difference. -/
theorem BindsAsDeclared.eraseVar_eq (binds : view.BindsAsDeclared) {limit budget : Nat}
    (settled : view.entry.settles limit method name = true) (enough : limit ≤ budget)
    (within : limit ≤ maxBoundChain) :
    view.eraseVar budget method name = (declaration view.entry).eraseVar budget method name := by
  induction budget generalizing limit method name with
  | zero => rfl
  | succ budget ih =>
      by_cases bound : (method.bind fun m => TypeParameter.find? m.typeParameters name) = none ∧
          (view.bindings.lookup name).isSome = true
      · obtain ⟨notOfMethod, isSome⟩ := bound
        obtain ⟨erased, found⟩ := Option.isSome_iff_exists.mp isSome
        have sameDeclared : view.entry.declared? method name = view.entry.declared? none name :=
          ClassEntry.declared?_eq_of_not_ofMethod notOfMethod
        have settledInClass : view.entry.settles limit none name = true :=
          ClassEntry.settles_congr sameDeclared ▸ settled
        calc
          view.eraseVar (budget + 1) method name = erased := by
            simp only [eraseVar, notOfMethod, found]
          _ = (declaration view.entry).eraseVar maxBoundChain none name := binds name erased found
          _ = (declaration view.entry).eraseVar (budget + 1) none name :=
            eraseVar_eq_of_settles settledInClass within enough
          _ = (declaration view.entry).eraseVar (budget + 1) method name := by
            rw [eraseVar_declaration_succ, eraseVar_declaration_succ, sameDeclared]
      · have notBound : (method.bind fun m => TypeParameter.find? m.typeParameters name) = none →
            view.bindings.lookup name = none := by
          intro notOfMethod
          rw [← Option.not_isSome_iff_eq_none]
          exact fun isSome => bound ⟨notOfMethod, isSome⟩
        rw [eraseVar_succ_of_not_bound notBound, eraseVar_declaration_succ]
        cases declared : view.entry.declared? method name with
        | none => rfl
        | some found =>
            obtain ⟨scope, parameter⟩ := found
            apply TypeExpr.erasure_congr
            intro next asked
            cases limit with
            | zero => simp [ClassEntry.settles, declared] at settled
            | succ limit =>
                rw [ClassEntry.settles] at settled
                simp only [declared, asked] at settled
                exact ih settled (Nat.le_of_succ_le_succ enough) (Nat.le_of_succ_le within)

/-- A view with bindings of this kind erases all expressions as the declaration does. -/
theorem BindsAsDeclared.erase_eq (binds : view.BindsAsDeclared) {limit : Nat}
    (short : view.entry.BoundChainsWithin limit) (within : limit ≤ maxBoundChain)
    (owns : view.entry.Owns method) :
    view.erase method = (declaration view.entry).erase method := by
  have eraseVar_eq : view.eraseVar maxBoundChain method =
      (declaration view.entry).eraseVar maxBoundChain method :=
    funext fun name => binds.eraseVar_eq (short.settles owns name) within within
  funext t
  rw [erase, erase, eraseVar_eq]

end TypeView

end BridgeMethods
