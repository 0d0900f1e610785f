import BridgeMethods.Pool.Basic
import BridgeMethods.Proofs.TypeExpr.Variables

/-!
# Views with generic type arguments

What a type seen through a view means, without erasing anything on the way.  A generic view keeps
the type arguments as they are written, and the view in whose scope they are written.  A type is
expanded by replacing its variables again and again, and only the result is erased.

Bounds such as that of `T extends Comparable<T>` make expansion go on for ever inside of type
arguments.  So it is done to a depth, and the erased form is what all expansions that are deep
enough agree on, whatever the variables that are left in them stand for.
-/

namespace BridgeMethods

/-- A class with the type arguments it is applied to, and the view of the class that applies it.
The view of a declaration, or of a raw super class, has no arguments. -/
inductive GenericView where
  | declaration (entry : ClassEntry)
  | applied (entry : ClassEntry) (arguments : List TypeExpr) (scope : GenericView)

namespace GenericView

def entry : GenericView → ClassEntry
  | declaration entry => entry
  | applied entry _ _ => entry

/-- The argument that a type parameter of the class is bound to, and the view in whose scope it is
to be read. -/
def argument? : GenericView → String → Option (TypeExpr × GenericView)
  | declaration _, _ => none
  | applied entry arguments scope, name =>
      (((entry.typeParameters.map (·.name)).zip arguments).lookup name).map (·, scope)

/-- The view of the super class. -/
def superType? (pool : ClassPool) (view : GenericView) : Option GenericView := do
  let reference ← view.entry.superReference
  let entry ← pool.lookup? reference.name
  match reference.arguments with
  | [] => return .declaration entry
  | arguments => return .applied entry arguments view

/-- Expands a variable to a depth.  Type parameters of the method stand for their bounds; those of
the class for their arguments, read in the scope of the arguments, or else for their bounds, which
do not see the method. -/
def expandVar : Nat → GenericView → Option MethodEntry → String → TypeExpr
  | 0, _, _, name => .typeVar name
  | depth + 1, view, method, name =>
      match method.bind fun m => TypeParameter.find? m.typeParameters name with
      | some parameter => parameter.bound.substitute (expandVar depth view method)
      | none =>
          match view.argument? name with
          | some (argument, scope) => argument.substitute (expandVar depth scope none)
          | none =>
              match TypeParameter.find? view.entry.typeParameters name with
              | some parameter => parameter.bound.substitute (expandVar depth view none)
              | none => .typeVar name

/-- Expands all variables of an expression to a depth. -/
def expand (depth : Nat) (view : GenericView) (method : Option MethodEntry) (t : TypeExpr) :
    TypeExpr :=
  t.substitute (view.expandVar depth method)

/-- The erased form of an expression that stands in the class, or in a method of it: the erasure of
every expansion that is deep enough. -/
def Erases (view : GenericView) (method : Option MethodEntry) (t : TypeExpr) (erased : String) :
    Prop :=
  ∃ enough, ∀ depth, enough ≤ depth → ∀ eraseVar,
    (view.expand depth method t).erasure eraseVar = erased

variable {view scope : GenericView} {method : Option MethodEntry} {name erased : String}

/-- There is one erased form at most. -/
theorem Erases.unique {t : TypeExpr} {other : String} (erases : view.Erases method t erased)
    (erasesOther : view.Erases method t other) : erased = other := by
  rcases erases with ⟨enough, agrees⟩
  rcases erasesOther with ⟨enoughOther, agreesOther⟩
  rw [← agrees _ (Nat.le_max_left enough enoughOther) id,
    ← agreesOther _ (Nat.le_max_right enough enoughOther) id]

/-- An expression is erased as soon as the variable that its erasure asks for is. -/
theorem erases_of_erasedVariable? {t : TypeExpr} {eraseVar : String → String}
    (each : ∀ name, t.erasedVariable? = some name →
      view.Erases method (.typeVar name) (eraseVar name)) :
    view.Erases method t (t.erasure eraseVar) := by
  cases asked : t.erasedVariable? with
  | none =>
      refine ⟨0, fun depth _ rest => ?_⟩
      rw [expand, TypeExpr.erasure_substitute]
      exact TypeExpr.erasure_congr fun name asks => by simp [asked] at asks
  | some name =>
      rcases each name asked with ⟨enough, agrees⟩
      refine ⟨enough, fun depth deep rest => ?_⟩
      rw [expand, TypeExpr.erasure_substitute]
      refine TypeExpr.erasure_congr fun other asks => ?_
      obtain rfl : name = other := Option.some.inj (asked.symm.trans asks)
      exact agrees depth deep rest

theorem erases_of_expandVar {scope : GenericView} {inner : Option MethodEntry} {t : TypeExpr}
    (expands : ∀ depth,
      view.expandVar (depth + 1) method name = t.substitute (scope.expandVar depth inner))
    (erases : scope.Erases inner t erased) : view.Erases method (.typeVar name) erased := by
  rcases erases with ⟨enough, agrees⟩
  refine ⟨enough + 1, fun depth deep eraseVar => ?_⟩
  obtain ⟨depth, rfl⟩ : ∃ smaller, depth = smaller + 1 := ⟨depth - 1, by omega⟩
  rw [expand, TypeExpr.substitute, expands]
  exact agrees depth (by omega) eraseVar

/-- A type parameter of the method is erased to the erasure of its bound. -/
theorem erases_methodVariable {parameter : TypeParameter}
    (ofMethod : (method.bind fun m => TypeParameter.find? m.typeParameters name) = some parameter)
    (erases : view.Erases method parameter.bound erased) :
    view.Erases method (.typeVar name) erased :=
  erases_of_expandVar (fun depth => by simp only [expandVar, ofMethod]) erases

/-- A type parameter of the class is erased to the erasure of its argument. -/
theorem erases_argument {argument : TypeExpr}
    (ofMethod : (method.bind fun m => TypeParameter.find? m.typeParameters name) = none)
    (given : view.argument? name = some (argument, scope))
    (erases : scope.Erases none argument erased) : view.Erases method (.typeVar name) erased :=
  erases_of_expandVar (fun depth => by simp only [expandVar, ofMethod, given]) erases

/-- A type parameter of the class without argument is erased to the erasure of its bound. -/
theorem erases_classVariable {parameter : TypeParameter}
    (ofMethod : (method.bind fun m => TypeParameter.find? m.typeParameters name) = none)
    (given : view.argument? name = none)
    (ofClass : TypeParameter.find? view.entry.typeParameters name = some parameter)
    (erases : view.Erases none parameter.bound erased) : view.Erases method (.typeVar name) erased :=
  erases_of_expandVar (fun depth => by simp only [expandVar, ofMethod, given, ofClass]) erases

end GenericView

end BridgeMethods
