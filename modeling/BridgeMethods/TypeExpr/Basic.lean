import BridgeMethods.Text.CharClass

/-!
# Generic type expressions

A type expression is what a class file's generic signature says about a type: a name, a type
variable, a generic type applied to arguments, an array or a wildcard.  This module holds the
expressions, their written form, the resolution of names to the type variables in scope, and
erasure to the name that the virtual machine sees.

Functions on expressions are written together with their versions for argument lists and for
optional bounds, so that all of them are structural recursions and evaluate by computation.
-/

namespace BridgeMethods

/-- Binary name of the root of the class hierarchy. -/
def objectName : String := "java.lang.Object"

/-- A generic type expression. -/
inductive TypeExpr where
  /-- A class, an interface or a primitive type that is used without type arguments. -/
  | named (name : String)
  /-- A type variable of the enclosing method or class. -/
  | typeVar (name : String)
  /-- A generic type applied to type arguments. -/
  | generic (head : String) (arguments : List TypeExpr)
  | array (component : TypeExpr)
  /-- A wildcard, with the bound of `extends` and the bound of `super`. -/
  | wildcard (upper lower : Option TypeExpr)
  deriving Inhabited

namespace TypeExpr

/-- The type of the root of the class hierarchy. -/
def object : TypeExpr := .named objectName

mutual

/-- Equality of expressions is decided by comparing them node by node. -/
def decEq : (s t : TypeExpr) → Decidable (s = t)
  | .named m, .named n =>
      if h : m = n then isTrue (h ▸ rfl) else isFalse fun e => h (TypeExpr.named.inj e)
  | .typeVar m, .typeVar n =>
      if h : m = n then isTrue (h ▸ rfl) else isFalse fun e => h (TypeExpr.typeVar.inj e)
  | .generic f as, .generic g bs =>
      match decEqList as bs with
      | isFalse h => isFalse fun e => h (TypeExpr.generic.inj e).2
      | isTrue h =>
          if k : f = g then isTrue (by rw [k, h])
          else isFalse fun e => k (TypeExpr.generic.inj e).1
  | .array s, .array t =>
      match decEq s t with
      | isTrue h => isTrue (h ▸ rfl)
      | isFalse h => isFalse fun e => h (TypeExpr.array.inj e)
  | .wildcard u l, .wildcard v m =>
      match decEqOption u v with
      | isFalse h => isFalse fun e => h (TypeExpr.wildcard.inj e).1
      | isTrue h =>
          match decEqOption l m with
          | isTrue k => isTrue (by rw [h, k])
          | isFalse k => isFalse fun e => k (TypeExpr.wildcard.inj e).2
  | .named _, .typeVar _ | .named _, .generic _ _ | .named _, .array _ | .named _, .wildcard _ _
  | .typeVar _, .named _ | .typeVar _, .generic _ _ | .typeVar _, .array _
  | .typeVar _, .wildcard _ _ | .generic _ _, .named _ | .generic _ _, .typeVar _
  | .generic _ _, .array _ | .generic _ _, .wildcard _ _ | .array _, .named _
  | .array _, .typeVar _ | .array _, .generic _ _ | .array _, .wildcard _ _
  | .wildcard _ _, .named _ | .wildcard _ _, .typeVar _ | .wildcard _ _, .generic _ _
  | .wildcard _ _, .array _ => isFalse nofun

/-- Equality of argument lists. -/
def decEqList : (ss ts : List TypeExpr) → Decidable (ss = ts)
  | [], [] => isTrue rfl
  | s :: ss, t :: ts =>
      match decEq s t with
      | isFalse h => isFalse fun e => h (List.cons.inj e).1
      | isTrue h =>
          match decEqList ss ts with
          | isTrue k => isTrue (by rw [h, k])
          | isFalse k => isFalse fun e => k (List.cons.inj e).2
  | [], _ :: _ | _ :: _, [] => isFalse nofun

/-- Equality of optional bounds. -/
def decEqOption : (s t : Option TypeExpr) → Decidable (s = t)
  | none, none => isTrue rfl
  | some s, some t =>
      match decEq s t with
      | isTrue h => isTrue (h ▸ rfl)
      | isFalse h => isFalse fun e => h (Option.some.inj e)
  | none, some _ | some _, none => isFalse nofun

end

instance : DecidableEq TypeExpr := decEq

mutual

/-- The written form: `head<argument, ...>`, `component[]`, `? extends bound`, `? super bound`
or `?`.  Of a wildcard with two bounds the upper one is written. -/
def print : TypeExpr → String
  | .named name => name
  | .typeVar name => name
  | .generic head arguments => head ++ "<" ++ Text.joinWith ", " (printList arguments) ++ ">"
  | .array component => print component ++ "[]"
  | .wildcard (some upper) _ => "? extends " ++ print upper
  | .wildcard none (some lower) => "? super " ++ print lower
  | .wildcard none none => "?"

/-- The written forms of the expressions of a list. -/
def printList : List TypeExpr → List String
  | [] => []
  | t :: ts => print t :: printList ts

end

theorem printList_eq_map (ts : List TypeExpr) : printList ts = ts.map print := by
  induction ts with
  | nil => rfl
  | cons t ts ih => simp [printList, ih]

instance : ToString TypeExpr := ⟨print⟩

section Resolve

variable (isVariable : String → Bool)

mutual

/-- Turns the names that denote a type variable into that variable.  The head of a generic type
always names a class, so it is left alone. -/
def resolve : TypeExpr → TypeExpr
  | .named name => if isVariable name then .typeVar name else .named name
  | .typeVar name => .typeVar name
  | .generic head arguments => .generic head (resolveList arguments)
  | .array component => .array (resolve component)
  | .wildcard upper lower => .wildcard (resolveOption upper) (resolveOption lower)

/-- Resolution in every expression of a list. -/
def resolveList : List TypeExpr → List TypeExpr
  | [] => []
  | t :: ts => resolve t :: resolveList ts

/-- Resolution in an optional bound. -/
def resolveOption : Option TypeExpr → Option TypeExpr
  | none => none
  | some t => some (resolve t)

end

theorem resolveList_eq_map (ts : List TypeExpr) :
    resolveList isVariable ts = ts.map (resolve isVariable) := by
  induction ts with
  | nil => rfl
  | cons t ts ih => simp [resolveList, ih]

theorem resolveOption_eq_map (t : Option TypeExpr) :
    resolveOption isVariable t = t.map (resolve isVariable) := by
  cases t <;> rfl

end Resolve

/-- The name that stands in front of the arguments of a generic type, or the name itself. -/
def headName? : TypeExpr → Option String
  | .named name => some name
  | .generic head _ => some head
  | _ => none

/-- The erased name of a type, given the erasure of each type variable: arguments are dropped,
and a wildcard stands for its upper bound. -/
def erasure (eraseVar : String → String) : TypeExpr → String
  | .named name => name
  | .typeVar name => eraseVar name
  | .generic head _ => head
  | .array component => component.erasure eraseVar ++ "[]"
  | .wildcard (some upper) _ => upper.erasure eraseVar
  | .wildcard none _ => objectName

/-- Whether an expression is a wildcard. -/
def isWildcard : TypeExpr → Bool
  | .wildcard _ _ => true
  | _ => false

end TypeExpr

end BridgeMethods
