import BridgeMethods.Definition.Basic
import BridgeMethods.TypeExpr.Basic

/-!
# Example hierarchies

Small hierarchies in which a compiler emits a bridge method for one of the known reasons, and two
without any bridge of interest.  Each lives in a package of its own, so that all of them together
are a hierarchy too.
-/

namespace BridgeMethods.Scenario

open MethodDef (constructor typeInitializer)
open ClassDef (ofClass ofInterface)

private def method (name : String) : MethodDef := { name }

private def stringName : String := "java.lang.String"

/-- The override of a getter narrows the return type; the bridge keeps the erased one. -/
def covariantReturn : List ClassDef := [
  ((ofClass "com.example.Base").asPublic.withTypeParameter "T")
    |>.withMethod constructor.asPublic
    |>.withMethod ((method "get").returning "T").asPublic,
  ((ofClass "com.example.Sub").asPublic.subclassing "com.example.Base<java.lang.String>")
    |>.withMethod constructor.asPublic
    |>.withMethod ((method "get").returning stringName).asPublic
    |>.withMethod ((method "get").returning objectName).asPublic.asBridge]

/-- The override of a setter specializes a type variable; the bridge keeps its erasure. -/
def genericParameter : List ClassDef := [
  ((ofClass "generic.Base").asPublic.withTypeParameter "T")
    |>.withMethod ((method "set").withParameter "T").asPublic,
  ((ofClass "generic.Sub").asPublic.subclassing "generic.Base<java.lang.String>")
    |>.withMethod ((method "set").withParameter stringName).asPublic
    |>.withMethod ((method "set").withParameter objectName).asPublic.asBridge]

/-- A public class declares a method of its package-private super class again. -/
def packagePrivateBase : List ClassDef := [
  (ofClass "visibility.Base").withMethod (method "foo").asPublic,
  ((ofClass "visibility.Sub").asPublic.subclassing "visibility.Base")
    |>.withMethod (method "foo").asPublic.asBridge]

/-- An interface with a bridge for the erased form of its abstract method. -/
def interfaceBridge : List ClassDef := [
  (ofInterface "iface.StringComparator")
    |>.withMethod ((((method "compare").returning "int").withParameter stringName).withParameter
      stringName |>.withModifiers [.public, .abstract])
    |>.withMethod ((((method "compare").returning "int").withParameter objectName).withParameter
      objectName).asPublic.asBridge]

/-- The nearest ancestor declares the bridged method without substitution, a farther one with. -/
def closestVisibilityAncestor : List ClassDef := [
  ((ofClass "chain.vis.Top").asPublic.withTypeParameter "T")
    |>.withMethod ((method "put").withParameter "T").asPublic,
  ((ofClass "chain.vis.Mid").subclassing "chain.vis.Top<java.lang.String>")
    |>.withMethod ((method "put").withParameter stringName).asPublic,
  ((ofClass "chain.vis.Sub").asPublic.subclassing "chain.vis.Mid")
    |>.withMethod ((method "put").withParameter stringName).asPublic.asBridge]

/-- The nearest ancestor substitutes the bridged method, a farther one declares it as it is: the
bridge belongs to two sorts. -/
def closestTypeVariableAncestor : List ClassDef := [
  (ofClass "chain.tv.Top").asPublic
    |>.withMethod ((method "put").withParameter objectName).asPublic,
  (((ofClass "chain.tv.Mid").asPublic.withTypeParameter "T").subclassing "chain.tv.Top")
    |>.withMethod ((method "put").withParameter "T").asPublic,
  ((ofClass "chain.tv.Sub").asPublic.subclassing "chain.tv.Mid<java.lang.String>")
    |>.withMethod ((method "put").withParameter stringName).asPublic
    |>.withMethod ((method "put").withParameter objectName).asPublic.asBridge]

/-- A bridge whose only sibling of the same name takes other parameters. -/
def overloadedBridge : List ClassDef := [
  (ofClass "overload.Sub").asPublic
    |>.withMethod ((method "get").returning objectName).asPublic.asBridge
    |>.withMethod (((method "get").returning stringName).withParameter "int").asPublic]

/-- Methods of every sort that has nothing to do with bridges. -/
def methodKinds : List ClassDef := [
  (ofClass "kinds.Widget").asPublic
    |>.withMethod constructor.asPublic
    |>.withMethod typeInitializer
    |>.withMethod (method "render").asPublic
    |>.withMethod ((method "seal").withModifiers [.public, .final])
    |>.withMethod ((method "helper").withModifiers [.private])
    |>.withMethod (((method "create").returning "kinds.Widget").withModifiers
      [.public, .static]),
  ((ofClass "kinds.Sealed").withModifiers [.public, .final])
    |>.withMethod (method "run").asPublic,
  (ofInterface "kinds.Greeter")
    |>.withMethod ((method "greet").returning stringName).asPublic
    |>.withMethod (((method "name").returning stringName).withModifiers [.public, .abstract])
    |>.withMethod (((method "of").returning "kinds.Greeter").withModifiers [.public, .static])]

/-- All example hierarchies together. -/
def all : List ClassDef :=
  covariantReturn ++ genericParameter ++ packagePrivateBase ++ interfaceBridge
    ++ closestVisibilityAncestor ++ closestTypeVariableAncestor ++ overloadedBridge ++ methodKinds

/-- The example hierarchy of a name. -/
def find? : String → Option (List ClassDef)
  | "covariant_return" => some covariantReturn
  | "generic_parameter" => some genericParameter
  | "package_private_base" => some packagePrivateBase
  | "interface_bridge" => some interfaceBridge
  | "closest_visibility_ancestor" => some closestVisibilityAncestor
  | "closest_type_variable_ancestor" => some closestTypeVariableAncestor
  | "overloaded_bridge" => some overloadedBridge
  | "method_kinds" => some methodKinds
  | _ => none

end BridgeMethods.Scenario
