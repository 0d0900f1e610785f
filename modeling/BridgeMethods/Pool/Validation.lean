import BridgeMethods.Error
import BridgeMethods.Pool.Basic

/-!
# Building class pools from definitions

A list of definitions becomes a pool if the names of its types are distinct, all type expressions
can be read, every super class is a class of the list that is used with the right number of type
arguments, no class is its own ancestor and no type declares two methods with one token.  The root
of the hierarchy is added when no definition names it.

The checks are made in this order: names and type parameters of all classes, super classes and
methods class by class, cycles, repeated methods.  The first failure is the error.
-/

namespace BridgeMethods

/-- Reads a type expression. -/
def readType (signature : String) : Except Error TypeExpr :=
  (TypeExpr.parse signature).mapError (Error.ofSyntax signature)

/-- Reads declarations of type variables.  Their bounds may mention the variables themselves and
those of the enclosing class. -/
def readTypeParameters (definitions : List TypeVariableDef) (outer : List String) :
    Except Error (List TypeParameter) :=
  let scope := outer ++ definitions.map (·.name)
  definitions.mapM fun definition =>
    match definition.bound with
    | none => .ok ⟨definition.name, TypeExpr.object⟩
    | some signature => do
        return ⟨definition.name, (← readType signature).resolve scope.contains⟩

namespace ClassHeader

/-- The header of a class definition. -/
def ofDefinition (definition : ClassDef) : Except Error ClassHeader := do
  let typeParameters ← withContext ("Invalid type parameters of '" ++ definition.name ++ "'")
    (readTypeParameters definition.typeParameters [])
  return {
    name := definition.name
    isInterface := definition.kind = .interface
    flags := .ofModifiers definition.modifiers
    typeParameters }

/-- The headers of a list of definitions, given the names that earlier definitions have taken. -/
def ofDefinitions (taken : List String) : List ClassDef → Except Error (List ClassHeader)
  | [] => .ok []
  | definition :: rest =>
      if definition.name ∈ taken then .error (.duplicateType definition.name)
      else do
        let header ← ofDefinition definition
        return header :: (← ofDefinitions (definition.name :: taken) rest)

variable (headers : List ClassHeader)

/-- Checks that an expression can be the super class of a class: a class of the hierarchy, either
raw or with one argument, which is no wildcard, for each of its type parameters. -/
def superReferenceOf (className : String) (t : TypeExpr) : Except Error SuperReference := do
  let refuse (reason : String) : Except Error SuperReference :=
    .error (.invalidSuperType className reason)
  let target (name : String) : Except Error ClassHeader :=
    match headers.find? (·.name = name) with
    | some header => .ok header
    | none => .error (.unknownType name)
  match t with
  | .named name =>
      if (← target name).isInterface then refuse ("'" ++ name ++ "' is an interface")
      else return ⟨name, []⟩
  | .generic name arguments =>
      if arguments.any (·.isWildcard) then
        refuse ("'" ++ t.print ++ "' has a wildcard type argument")
      else
        let header ← target name
        if header.isInterface then refuse ("'" ++ name ++ "' is an interface")
        else if arguments.length = header.typeParameters.length then return ⟨name, arguments⟩
        else .error (.typeArgumentMismatch name header.typeParameters.length arguments.length)
  | _ => refuse ("'" ++ t.print ++ "' is not a class type")

/-- The super class of a definition.  Interfaces have none, and neither has the root of the
hierarchy unless it names one; every other class that names none is a subclass of the root. -/
def readSuperReference (definition : ClassDef) : Except Error (Option SuperReference) :=
  match definition.kind, definition.extending with
  | .interface, some _ =>
      .error (.invalidSuperType definition.name "interfaces cannot extend a class")
  | .interface, none => .ok none
  | .class, none =>
      .ok (if definition.name = objectName then none else some ⟨objectName, []⟩)
  | .class, some signature => do
      let t ← withContext ("Invalid super type of '" ++ definition.name ++ "'")
        (readType signature)
      let scope := definition.typeParameters.map (·.name)
      return some (← superReferenceOf headers definition.name (t.resolve scope.contains))

/-- Reads a method of the class with a header. -/
def readMethod (header : ClassHeader) (definition : MethodDef) : Except Error MethodEntry :=
  withContext ("Invalid signature of '" ++ header.name ++ "." ++ definition.name ++ "'") do
    let outer := header.typeParameters.map (·.name)
    let typeParameters ← readTypeParameters definition.typeParameters outer
    let scope := outer ++ typeParameters.map (·.name)
    let returnType ← readType definition.returns
    let parameterTypes ← definition.parameters.mapM readType
    return {
      internalName := definition.name
      flags := .ofModifiers definition.modifiers
      typeParameters
      returnType := returnType.resolve scope.contains
      parameterTypes := parameterTypes.map (·.resolve scope.contains) }

/-- The class of a header and the definition that the header was read from. -/
def complete (header : ClassHeader) (definition : ClassDef) : Except Error ClassEntry := do
  let superReference ← readSuperReference headers definition
  let methods ← definition.methods.mapM header.readMethod
  return { header with superReference, methods }

end ClassHeader

namespace ClassPool

/-- The name of the super class of a class, if that class is in the pool. -/
def superClass? (pool : ClassPool) (entry : ClassEntry) : Option ClassEntry :=
  entry.superReference.bind fun reference => pool.lookup? reference.name

/-- Follows super classes from a class, given those already passed, and returns the first class
that is met a second time.  The budget is the number of classes that may still be met for the
first time. -/
def firstRepeated? (pool : ClassPool) : Nat → List String → ClassEntry → Option String
  | 0, _, entry => some entry.name
  | budget + 1, visited, entry =>
      if entry.name ∈ visited then some entry.name
      else (pool.superClass? entry).bind (pool.firstRepeated? budget (entry.name :: visited))

/-- The first class, in the order of definitions, from which super classes lead into a cycle gives
the class at which that cycle is entered. -/
def findCycle? (pool : ClassPool) : Option String :=
  pool.classes.findSome? (pool.firstRepeated? pool.size [])

end ClassPool

namespace TypeView

/-- The first method in a list whose token an earlier one has, given the tokens seen before. -/
def firstRepeatedMethod? (seen : List MethodToken) : List MethodView → Option MethodView
  | [] => none
  | method :: rest =>
      if method.token ∈ seen then some method
      else firstRepeatedMethod? (method.token :: seen) rest

end TypeView

namespace ClassPool

/-- The first type that declares a method twice, and that method. -/
def findRepeatedMethod? (pool : ClassPool) : Option MethodView :=
  pool.types.findSome? fun view => TypeView.firstRepeatedMethod? [] view.methods

/-- The definitions, with the root of the hierarchy after them if they lack it. -/
def withRoot (definitions : List ClassDef) : List ClassDef :=
  if definitions.any (·.name = objectName) then definitions
  else definitions ++ [(ClassDef.ofClass objectName).asPublic]

/-- Builds and checks the pool of a list of definitions. -/
def ofDefinitions (definitions : List ClassDef) : Except Error ClassPool := do
  let definitions := withRoot definitions
  let headers ← ClassHeader.ofDefinitions [] definitions
  let classes ← (headers.zip definitions).mapM fun (header, definition) =>
    header.complete headers definition
  let pool : ClassPool := ⟨classes⟩
  if let some name := pool.findCycle? then throw (.cyclicHierarchy name)
  if let some method := pool.findRepeatedMethod? then
    throw (.duplicateMethod method.owner.name method.signature)
  return pool

end ClassPool

end BridgeMethods
