import BridgeMethods.Definition.Basic
import BridgeMethods.Data.Shape
import BridgeMethods.Data.Json.Printer
import BridgeMethods.Data.Json.Reader
import BridgeMethods.Data.Toml.Reader
import BridgeMethods.Error

/-!
# Hierarchy documents

A document lists the definitions of a class hierarchy under the name `classes`.  Every field but
the name of a class, of a method or of a type variable may be left out; the defaults are those of
the definitions.  Written documents give every field.
-/

namespace BridgeMethods

open Data (Convention)

/-- The definitions that a document gives. -/
structure HierarchyDocument where
  classes : List ClassDef
  deriving DecidableEq, Repr

namespace Modifier

def toData (m : Modifier) : Data := .ofString m.name

def ofData? (convention : Convention) (data : Data) : Option Modifier :=
  (convention.enumeration? data).bind ofName?

end Modifier

namespace TypeKind

def toData (kind : TypeKind) : Data := .ofString kind.name

def ofData? (convention : Convention) (data : Data) : Option TypeKind :=
  (convention.enumeration? data).bind ofName?

end TypeKind

namespace TypeVariableDef

def fieldNames : List String := ["name", "bound"]

def toData (definition : TypeVariableDef) : Data :=
  .record [("name", .ofString definition.name), ("bound", .ofString? definition.bound)]

def ofData? (convention : Convention) (data : Data) : Option TypeVariableDef := do
  match ← convention.fields? fieldNames data with
  | [name, bound] =>
      return {
        name := ← name.required Data.string?
        bound := ← bound.optional Data.string? }
  | _ => none

end TypeVariableDef

namespace MethodDef

def fieldNames : List String := ["name", "modifiers", "type_parameters", "returns", "parameters"]

def toData (definition : MethodDef) : Data :=
  .record [
    ("name", .ofString definition.name),
    ("modifiers", .list (definition.modifiers.map Modifier.toData)),
    ("type_parameters", .list (definition.typeParameters.map TypeVariableDef.toData)),
    ("returns", .ofString definition.returns),
    ("parameters", .ofStrings definition.parameters)]

def ofData? (convention : Convention) (data : Data) : Option MethodDef := do
  match ← convention.fields? fieldNames data with
  | [name, modifiers, typeParameters, returns, parameters] =>
      return {
        name := ← name.required Data.string?
        modifiers := ← modifiers.default [] (Data.listOf? (Modifier.ofData? convention))
        typeParameters :=
          ← typeParameters.default [] (Data.listOf? (TypeVariableDef.ofData? convention))
        returns := ← returns.default "void" Data.string?
        parameters := ← parameters.default [] (Data.listOf? Data.string?) }
  | _ => none

end MethodDef

namespace ClassDef

def fieldNames : List String :=
  ["name", "kind", "modifiers", "type_parameters", "extends", "methods"]

def toData (definition : ClassDef) : Data :=
  .record [
    ("name", .ofString definition.name),
    ("kind", definition.kind.toData),
    ("modifiers", .list (definition.modifiers.map Modifier.toData)),
    ("type_parameters", .list (definition.typeParameters.map TypeVariableDef.toData)),
    ("extends", .ofString? definition.extending),
    ("methods", .list (definition.methods.map MethodDef.toData))]

def ofData? (convention : Convention) (data : Data) : Option ClassDef := do
  match ← convention.fields? fieldNames data with
  | [name, kind, modifiers, typeParameters, extending, methods] =>
      return {
        name := ← name.required Data.string?
        kind := ← kind.default .class (TypeKind.ofData? convention)
        modifiers := ← modifiers.default [] (Data.listOf? (Modifier.ofData? convention))
        typeParameters :=
          ← typeParameters.default [] (Data.listOf? (TypeVariableDef.ofData? convention))
        extending := ← extending.optional Data.string?
        methods := ← methods.default [] (Data.listOf? (MethodDef.ofData? convention)) }
  | _ => none

end ClassDef

namespace HierarchyDocument

def fieldNames : List String := ["classes"]

def toData (document : HierarchyDocument) : Data :=
  .record [("classes", .list (document.classes.map ClassDef.toData))]

def ofData? (convention : Convention) (data : Data) : Option HierarchyDocument := do
  match ← convention.fields? fieldNames data with
  | [classes] => return ⟨← classes.default [] (Data.listOf? (ClassDef.ofData? convention))⟩
  | _ => none

/-- The JSON text of a document. -/
def toJson (document : HierarchyDocument) : String :=
  Data.Json.compact document.toData

/-- Reads a document that is written in JSON. -/
def ofJson (source : String) : Except Error HierarchyDocument :=
  match (Data.Json.read source).bind (ofData? .json) with
  | some document => .ok document
  | none => .error .json

/-- Reads a document that is written in TOML. -/
def ofToml (source : String) : Except Error HierarchyDocument :=
  match (Data.Toml.read source).bind (ofData? .toml) with
  | some document => .ok document
  | none => .error .toml

end HierarchyDocument

end BridgeMethods
