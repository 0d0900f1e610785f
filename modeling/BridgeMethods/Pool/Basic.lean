import BridgeMethods.Definition.Basic
import BridgeMethods.TypeExpr.Basic

/-!
# Class pools and views of their types

A class pool holds classes whose type expressions have been read and whose names have been
checked, see `ClassPool.ofDefinitions`.  Classes refer to each other by name.

A type is seen through a `TypeView`: the declaration itself, or the class as its subclass extends
it.  Such a view binds the type parameters of the class to the erasure of the arguments that the
subclass supplies, and the methods seen through it are substituted.  Views need the pool only to
go from a class to its super class.
-/

namespace BridgeMethods

/-- A type parameter with its upper bound. -/
structure TypeParameter where
  name : String
  bound : TypeExpr
  deriving DecidableEq

/-- A declared method, its types resolved against the type parameters in scope. -/
structure MethodEntry where
  internalName : String
  flags : AccessFlags
  typeParameters : List TypeParameter
  returnType : TypeExpr
  parameterTypes : List TypeExpr
  deriving DecidableEq

/-- A reference to a super class: without arguments it is the raw class. -/
structure SuperReference where
  name : String
  arguments : List TypeExpr
  deriving DecidableEq

/-- What a class declares about itself, without its relations to other classes. -/
structure ClassHeader where
  name : String
  isInterface : Bool
  flags : AccessFlags
  typeParameters : List TypeParameter
  deriving DecidableEq

/-- A class of a pool. -/
structure ClassEntry extends ClassHeader where
  superReference : Option SuperReference
  methods : List MethodEntry
  deriving DecidableEq

/-- The classes of a hierarchy in the order of their definitions. -/
structure ClassPool where
  classes : List ClassEntry
  deriving DecidableEq

/-- Bound chains that pass through more variables than this erase to the root of the hierarchy. -/
def maxBoundChain : Nat := 33

/-- The type parameter of a name; the first one if several share it. -/
def TypeParameter.find? (parameters : List TypeParameter) (name : String) : Option TypeParameter :=
  parameters.find? (·.name = name)

/-- A class with the erased type arguments that its type parameters are bound to.  The view of a
declaration, or of a raw super class, binds nothing. -/
structure TypeView where
  entry : ClassEntry
  bindings : List (String × String)
  deriving DecidableEq

/-- A method as it is declared by a type that is seen through a view. -/
structure MethodView where
  owner : TypeView
  entry : MethodEntry
  deriving DecidableEq

namespace TypeView

/-- The view of a class as it is declared. -/
def declaration (entry : ClassEntry) : TypeView := ⟨entry, []⟩

/-- The binary name of the type. -/
def name (view : TypeView) : String := view.entry.name

def isInterface (view : TypeView) : Bool := view.entry.isInterface

def isFinal (view : TypeView) : Bool := view.entry.flags.has .final

/-- Whether the view applies type arguments to a generic type. -/
def isParameterized (view : TypeView) : Bool := !view.bindings.isEmpty

/-- The same type with its type arguments forgotten. -/
def asDeclaration (view : TypeView) : TypeView := declaration view.entry

/-- The written form: the name, and the erased type arguments if there are any. -/
def print (view : TypeView) : String :=
  if view.isParameterized then
    view.name ++ "<" ++ Text.joinWith ", " (view.bindings.map (·.2)) ++ ">"
  else view.name

/-- The erased name of a type variable.  The parameters of the method come first, if a method is
given; then the bindings; then the parameters of the class.  An unbound variable is erased to the
erasure of its bound, and the bound of a class parameter does not see the method.  The first
argument is the number of variables that may still be passed on the way. -/
def eraseVar (view : TypeView) : Nat → Option MethodEntry → String → String
  | 0, _, _ => objectName
  | budget + 1, method, name =>
      match method.bind fun m => TypeParameter.find? m.typeParameters name with
      | some parameter => parameter.bound.erasure (view.eraseVar budget method)
      | none =>
          match view.bindings.lookup name with
          | some erased => erased
          | none =>
              match TypeParameter.find? view.entry.typeParameters name with
              | some parameter => parameter.bound.erasure (view.eraseVar budget none)
              | none => objectName

/-- The erased name of a type expression that stands in the class, or in a method of it. -/
def erase (view : TypeView) (method : Option MethodEntry) (t : TypeExpr) : String :=
  t.erasure (view.eraseVar maxBoundChain method)

/-- The methods, constructors and type initializers that the type declares. -/
def methods (view : TypeView) : List MethodView :=
  view.entry.methods.map fun entry => ⟨view, entry⟩

/-- Whether two views of one pool show the same type with the same type arguments. -/
def sameAs (a b : TypeView) : Bool :=
  a.name = b.name && a.bindings = b.bindings

end TypeView

namespace MethodView

/-- The name in the class file. -/
def internalName (method : MethodView) : String := method.entry.internalName

def flags (method : MethodView) : AccessFlags := method.entry.flags

/-- The erased return type, the type arguments of the owner applied. -/
def returnType (method : MethodView) : String :=
  method.owner.erase (some method.entry) method.entry.returnType

/-- The erased parameter types, the type arguments of the owner applied. -/
def parameterTypes (method : MethodView) : List String :=
  method.entry.parameterTypes.map (method.owner.erase (some method.entry))

/-- The token of the method: what decides whether one method overrides another. -/
def token (method : MethodView) : MethodToken :=
  ⟨method.internalName, method.returnType, method.parameterTypes⟩

/-- The erased signature `returnType name(parameterType, ...)`. -/
def signature (method : MethodView) : String :=
  method.returnType ++ " " ++ method.internalName ++ "("
    ++ Text.joinWith ", " method.parameterTypes ++ ")"

/-- The written form: modifiers, return type, owner, name and parameter types. -/
def print (method : MethodView) : String :=
  String.join (method.flags.modifiers.map fun m => m.name ++ " ") ++ method.returnType ++ " "
    ++ method.owner.name ++ "." ++ method.internalName ++ "("
    ++ Text.joinWith ", " method.parameterTypes ++ ")"

/-- The declaration that the method comes from: the same method without substitution. -/
def asDeclared (method : MethodView) : MethodView :=
  ⟨method.owner.asDeclaration, method.entry⟩

/-- Whether two methods of one pool are declared by the same class with the same token. -/
def sameAs (a b : MethodView) : Bool :=
  a.owner.name = b.owner.name && a.token = b.token

def isConstructor (method : MethodView) : Bool := method.internalName = constructorName

def isTypeInitializer (method : MethodView) : Bool := method.internalName = typeInitializerName

/-- Neither a constructor nor a type initializer. -/
def isMethod (method : MethodView) : Bool :=
  !method.isConstructor && !method.isTypeInitializer

/-- Whether the compiler marked the method as a bridge. -/
def isBridge (method : MethodView) : Bool := method.flags.has .bridge

/-- A virtual method, of a type that may have subtypes, which is not final. -/
def isOverridable (method : MethodView) : Bool :=
  method.isMethod && !method.flags.has .static && !method.flags.has .private
    && !method.flags.has .final && !method.owner.isFinal

/-- An instance method of an interface with a body, which no compiler made up. -/
def isDefaultMethod (method : MethodView) : Bool :=
  method.isMethod && method.owner.isInterface && !method.flags.has .static
    && !method.flags.has .private && !method.isBridge && !method.flags.has .abstract

end MethodView

namespace ClassPool

variable (pool : ClassPool)

/-- The number of types. -/
def size : Nat := pool.classes.length

/-- The class of a name. -/
def lookup? (name : String) : Option ClassEntry :=
  pool.classes.find? (·.name = name)

/-- The declaration of the type of a name. -/
def find? (name : String) : Option TypeView :=
  (pool.lookup? name).map .declaration

/-- The declarations of all types. -/
def types : List TypeView :=
  pool.classes.map .declaration

/-- All declared methods, type by type. -/
def methods : List MethodView :=
  pool.types.flatMap TypeView.methods

/-- The method that a type declares with an erased signature, written as by
`MethodView.signature`. -/
def findMethod? (typeName signature : String) : Option MethodView :=
  (pool.find? typeName).bind fun view => view.methods.find? (·.signature = signature)

/-- The super class of a type as the type extends it: each type parameter of the super class is
bound to the erasure of its argument.  The root of the hierarchy and interfaces have none. -/
def superType? (view : TypeView) : Option TypeView := do
  let reference ← view.entry.superReference
  let entry ← pool.lookup? reference.name
  let parameters := entry.typeParameters.map (·.name)
  return ⟨entry, parameters.zip (reference.arguments.map (view.erase none))⟩

/-- The first `limit` super types of a type, from the nearest on. -/
def superTypesUpTo : Nat → TypeView → List TypeView
  | 0, _ => []
  | limit + 1, view =>
      match pool.superType? view with
      | none => []
      | some parent => parent :: superTypesUpTo limit parent

/-- The super types of a type, from the nearest to the root of the hierarchy.  There are fewer of
them than types in a pool without cycles, so the limit cuts nothing off. -/
def superTypes (view : TypeView) : List TypeView :=
  pool.superTypesUpTo pool.size view

end ClassPool

end BridgeMethods
