import BridgeMethods.Modifier
import BridgeMethods.MethodToken

/-!
# Class definitions

A definition is what somebody writes about a class: type expressions are still texts and super
classes are still names.  Nothing is checked here; `ClassPool.ofDefinitions` does that.
-/

namespace BridgeMethods

/-- Whether a definition is of a class or of an interface. -/
inductive TypeKind where
  | «class»
  | interface
  deriving DecidableEq, Repr

namespace TypeKind

/-- The word that denotes a kind of type. -/
def name : TypeKind → String
  | .class => "class"
  | .interface => "interface"

/-- The kind of type that a word denotes. -/
def ofName? (word : String) : Option TypeKind :=
  [TypeKind.class, .interface].find? (·.name = word)

theorem ofName?_name (kind : TypeKind) : ofName? kind.name = some kind := by
  cases kind <;> decide

end TypeKind

/-- The declaration of a type variable, with its upper bound if it has one. -/
structure TypeVariableDef where
  name : String
  bound : Option String := none
  deriving DecidableEq, Repr

/-- The definition of a method, a constructor or a type initializer. -/
structure MethodDef where
  name : String
  modifiers : List Modifier := []
  typeParameters : List TypeVariableDef := []
  returns : String := "void"
  parameters : List String := []
  deriving DecidableEq, Repr

/-- The definition of a class or an interface.  A class that extends nothing is a subclass of the
root of the hierarchy. -/
structure ClassDef where
  name : String
  kind : TypeKind := .class
  modifiers : List Modifier := []
  typeParameters : List TypeVariableDef := []
  extending : Option String := none
  methods : List MethodDef := []
  deriving DecidableEq, Repr

namespace MethodDef

/-- A constructor without parameters. -/
def constructor : MethodDef := { name := constructorName }

/-- The type initializer, which is static. -/
def typeInitializer : MethodDef := { name := typeInitializerName, modifiers := [.static] }

/-- The same method with further modifiers. -/
def withModifiers (method : MethodDef) (modifiers : List Modifier) : MethodDef :=
  { method with modifiers := method.modifiers ++ modifiers }

/-- The same method made public. -/
def asPublic (method : MethodDef) : MethodDef :=
  method.withModifiers [.public]

/-- The same method marked as compiler-generated bridge. -/
def asBridge (method : MethodDef) : MethodDef :=
  method.withModifiers [.bridge, .synthetic]

/-- The same method with one more type parameter, without a bound. -/
def withTypeParameter (method : MethodDef) (name : String) : MethodDef :=
  { method with typeParameters := method.typeParameters ++ [{ name }] }

/-- The same method with another return type. -/
def returning (method : MethodDef) (signature : String) : MethodDef :=
  { method with returns := signature }

/-- The same method with one more parameter. -/
def withParameter (method : MethodDef) (signature : String) : MethodDef :=
  { method with parameters := method.parameters ++ [signature] }

end MethodDef

namespace ClassDef

/-- A class without modifiers and members. -/
def ofClass (name : String) : ClassDef := { name }

/-- An interface without members, which is public and abstract. -/
def ofInterface (name : String) : ClassDef :=
  { name, kind := .interface, modifiers := [.public, .abstract] }

/-- The same class with further modifiers. -/
def withModifiers (definition : ClassDef) (modifiers : List Modifier) : ClassDef :=
  { definition with modifiers := definition.modifiers ++ modifiers }

/-- The same class made public. -/
def asPublic (definition : ClassDef) : ClassDef :=
  definition.withModifiers [.public]

/-- The same class with one more type parameter. -/
def withTypeParameter (definition : ClassDef) (name : String) (bound : Option String := none) :
    ClassDef :=
  { definition with typeParameters := definition.typeParameters ++ [{ name, bound }] }

/-- The same class with another super class. -/
def subclassing (definition : ClassDef) (signature : String) : ClassDef :=
  { definition with extending := some signature }

/-- The same class with one more method. -/
def withMethod (definition : ClassDef) (method : MethodDef) : ClassDef :=
  { definition with methods := definition.methods ++ [method] }

end ClassDef

end BridgeMethods
