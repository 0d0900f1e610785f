import BridgeMethods.Bridge

/-!
# Matchers

A matcher is a condition on methods: being of a sort, being a certain method, having a name or
parameter types, and what can be put together from these.  Matchers are plain values, so two
matchers for one sort are equal.
-/

namespace BridgeMethods

/-- A condition on the methods of a pool. -/
inductive Matcher where
  /-- Holds of no method. -/
  | never
  | ofSort (s : MethodSort)
  /-- Holds of the methods that are the same as a given one. -/
  | is (method : MethodView)
  | named (name : String)
  | takes (parameterTypes : List String)
  | not (m : Matcher)
  | and (m n : Matcher)
  | or (m n : Matcher)
  deriving DecidableEq

namespace Matcher

/-- Whether a matcher holds of a method. -/
def check (pool : ClassPool) : Matcher → MethodView → Bool
  | .never, _ => false
  | .ofSort s, method => pool.isOfSort method s
  | .is wanted, method => method.sameAs wanted
  | .named name, method => method.internalName = name
  | .takes parameterTypes, method => method.parameterTypes = parameterTypes
  | .not m, method => !check pool m method
  | .and m n, method => check pool m method && check pool n method
  | .or m n, method => check pool m method || check pool n method

/-- The label of an elementary matcher.  Matchers that are put together have none. -/
def label? : Matcher → Option String
  | .ofSort s => some s.label
  | .named name => some ("named(" ++ name ++ ")")
  | .takes parameterTypes =>
      some ("takesArguments(" ++ Text.joinWith ", " parameterTypes ++ ")")
  | _ => none

/-- The declared methods of a pool of which a matcher holds, in the order of definitions. -/
def select (pool : ClassPool) (m : Matcher) : List MethodView :=
  pool.methods.filter (m.check pool)

end Matcher

end BridgeMethods
