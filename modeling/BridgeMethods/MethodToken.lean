import BridgeMethods.Text.CharClass

/-!
# Method tokens

The token of a method is its internal name with its erased return and parameter types, whatever
class declares it.  Two methods with equal tokens occupy the same slot of the virtual method
table.  Tokens are ordered by name, then return type, then parameter types, each by code points.
-/

namespace BridgeMethods

/-- The internal name of instance constructors. -/
def constructorName : String := "<init>"

/-- The internal name of the type initializer. -/
def typeInitializerName : String := "<clinit>"

/-- The name, the erased return type and the erased parameter types of a method. -/
structure MethodToken where
  internalName : String
  returnType : String
  parameterTypes : List String
  deriving DecidableEq, Repr

namespace MethodToken

/-- The written form `name(parameterType, ...)returnType`. -/
def print (token : MethodToken) : String :=
  token.internalName ++ "(" ++ Text.joinWith ", " token.parameterTypes ++ ")" ++ token.returnType

instance : ToString MethodToken := ⟨print⟩

/-- The order of tokens: by name, then return type, then parameter types. -/
def compare (a b : MethodToken) : Ordering :=
  (Ord.compare a.internalName b.internalName).then
    ((Ord.compare a.returnType b.returnType).then
      (Ord.compare a.parameterTypes b.parameterTypes))

instance : Ord MethodToken := ⟨compare⟩

/-- The distinct tokens of a list in increasing order. -/
def sortDistinct (tokens : List MethodToken) : List MethodToken :=
  (tokens.eraseDups).mergeSort fun a b => (compare a b).isLE

end MethodToken

end BridgeMethods
