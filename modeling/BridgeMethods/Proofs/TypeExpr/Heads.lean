import BridgeMethods.Proofs.TypeExpr.Variables

/-!
# Heads and dimensions

Erasure keeps two things of an expression: what it is headed by, which is a name or a variable, and
the number of array dimensions around the head.  The erased name is that of the head, followed by a
pair of brackets for each dimension.
-/

namespace BridgeMethods

/-- The name of an array of a number of dimensions. -/
def arrayName (component : String) : Nat → String
  | 0 => component
  | dimensions + 1 => arrayName component dimensions ++ "[]"

/-- Dimensions of dimensions add up. -/
theorem arrayName_arrayName (component : String) (inner outer : Nat) :
    arrayName (arrayName component inner) outer = arrayName component (inner + outer) := by
  induction outer with
  | zero => rfl
  | succ outer ih => rw [arrayName, ih, ← Nat.add_assoc, arrayName]

namespace TypeExpr

/-- What an expression is headed by: a class, an interface or a primitive type, or a variable. -/
inductive Head where
  | named (name : String)
  | typeVar (name : String)
  deriving DecidableEq

/-- The erased name of a head, given the erasure of each type variable. -/
def Head.erasure (eraseVar : String → String) : Head → String
  | .named name => name
  | .typeVar name => eraseVar name

/-- The head of an expression.  It is looked for in the components of arrays and in the upper bounds
of wildcards. -/
def head : TypeExpr → Head
  | .named name => .named name
  | .typeVar name => .typeVar name
  | .generic head _ => .named head
  | .array component => component.head
  | .wildcard (some upper) _ => upper.head
  | .wildcard none _ => .named objectName

/-- The number of array dimensions around the head of an expression. -/
def headDimensions : TypeExpr → Nat
  | .array component => component.headDimensions + 1
  | .wildcard (some upper) _ => upper.headDimensions
  | _ => 0

theorem erasure_eq_arrayName (eraseVar : String → String) (t : TypeExpr) :
    t.erasure eraseVar = arrayName (t.head.erasure eraseVar) t.headDimensions := by
  induction t with
  | named name => rfl
  | typeVar name => rfl
  | generic head arguments => rfl
  | array component ih => rw [erasure, head, headDimensions, arrayName, ih]
  | wildcard upper lower upperIh =>
      cases upper with
      | none => rfl
      | some upper => exact upperIh upper rfl

/-- A variable that heads an expression is mentioned in it. -/
theorem Mentions.of_head {name : String} {t : TypeExpr} (heads : t.head = .typeVar name) :
    t.Mentions name := by
  induction t with
  | named other => cases heads
  | typeVar other =>
      cases heads
      exact .typeVar
  | generic head arguments => cases heads
  | array component ih => exact .array (ih heads)
  | wildcard upper lower upperIh =>
      cases upper with
      | none => cases heads
      | some upper => exact .upper (upperIh upper rfl heads)

end TypeExpr

end BridgeMethods
