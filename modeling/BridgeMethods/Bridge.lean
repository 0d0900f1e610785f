import BridgeMethods.MethodSort
import BridgeMethods.Pool.Basic

/-!
# Bridge rules and the sorts of a method

A compiler emits a bridge method for one of three reasons.

* An override narrows the return type: the bridge keeps the wider signature, and a sibling with
  the same name and parameters carries the narrower one.
* A public class inherits a public method from a class that is not public: the bridge declares it
  again so that it can be reached.
* An override specializes a type variable: the bridge keeps the erased signature of the generic
  declaration.

The class file records only that a method is a bridge, so the reason is found by looking at the
declaring type and at its super types, from the nearest on; the nearest one that declares a
matching method decides.  No rule holds of a method that is not a bridge, and neither of the other
two holds of a return-type bridge.
-/

namespace BridgeMethods

/-- Whether the declaring type has another method with the same name and parameter types. -/
def MethodView.isReturnTypeBridge (method : MethodView) : Bool :=
  method.isBridge && method.owner.methods.any fun candidate =>
    !candidate.sameAs method && candidate.internalName = method.internalName &&
      candidate.parameterTypes = method.parameterTypes

/-- The first overridable method of a type that has a token through the view of the type. -/
def TypeView.overridableWith? (view : TypeView) (token : MethodToken) : Option MethodView :=
  (view.methods.filter (·.isOverridable)).find? (·.token = token)

/-- The first method of a type whose declaration has a token. -/
def TypeView.declaredWith? (view : TypeView) (token : MethodToken) : Option MethodView :=
  view.methods.find? (·.asDeclared.token = token)

/-- Whether a method is the declaration that it comes from, untouched by substitution. -/
def MethodView.isDeclared (method : MethodView) : Bool :=
  method.sameAs method.asDeclared

namespace ClassPool

variable (pool : ClassPool)

/-- Whether the nearest overridable method with the token of a bridge, among those that the super
types of its class declare, is an unsubstituted declaration. -/
def isVisibilityBridge (method : MethodView) : Bool :=
  method.isBridge && !method.owner.isInterface && !method.isReturnTypeBridge &&
    ((pool.superTypes method.owner).findSome? (·.overridableWith? method.token)).any
      (·.isDeclared)

/-- Whether the nearest method whose declaration has the token of a bridge is seen through a
substitution.  Bridges of interfaces always qualify, as interfaces have no super class. -/
def isTypeVariableBridge (method : MethodView) : Bool :=
  method.isBridge && !method.isReturnTypeBridge &&
    (method.owner.isInterface ||
      ((pool.superTypes method.owner).findSome? (·.declaredWith? method.token)).any
        (!·.isDeclared))

/-- Whether a method belongs to a sort. -/
def isOfSort (method : MethodView) : MethodSort → Bool
  | .method => method.isMethod
  | .constructor => method.isConstructor
  | .typeInitializer => method.isTypeInitializer
  | .overridable => method.isOverridable
  | .visibilityBridge => pool.isVisibilityBridge method
  | .typeVariableBridge => pool.isTypeVariableBridge method
  | .returnTypeBridge => method.isReturnTypeBridge
  | .defaultMethod => method.isDefaultMethod

/-- The sorts that a method belongs to, in the order of `MethodSort.all`. -/
def sortsOf (method : MethodView) : List MethodSort :=
  MethodSort.all.filter (pool.isOfSort method)

end ClassPool

end BridgeMethods
