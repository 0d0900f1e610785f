import BridgeMethods.Pool.Validation

/-!
# Numbered classes and methods

An arena lays a hierarchy out in two lists.  A class is known by its place in the one and a method
by its place in the other; a class holds the numbers of its methods, and a table leads from names to
numbers of classes.  Types and methods are looked at through handles, which are numbers too.

Nothing in a number says that it leads anywhere.  To follow one that does not is a failure of its
own, apart from the errors by which definitions are refused.

An arena is filled in two passes.  All classes are stored before the first super class is looked up,
so that a class may be defined after its subclasses; then each class gets its super class and, one
after the other, its methods.  `ClassPool.ofDefinitions` builds the same hierarchy without numbers.
-/

namespace BridgeMethods

/-- A class of an arena, with the numbers of its methods. -/
structure ClassRecord extends ClassHeader where
  superReference : Option SuperReference
  methods : List Nat
  deriving DecidableEq

/-- The class of a header as long as its super class and its methods are not known. -/
def ClassRecord.ofHeader (header : ClassHeader) : ClassRecord := ⟨header, none, []⟩

/-- The classes and the methods of a hierarchy by number, and the numbers of the classes by name. -/
structure Arena where
  classes : List ClassRecord
  methods : List MethodEntry
  numbers : List (String × Nat)
  deriving DecidableEq

/-- The number of a class and the erased type arguments that its type parameters are bound to. -/
structure TypeHandle where
  number : Nat
  bindings : List (String × String)
  deriving DecidableEq

/-- The number of a method that is declared by the type of a handle. -/
structure MethodHandle where
  owner : TypeHandle
  number : Nat
  deriving DecidableEq

namespace TypeHandle

/-- The class of a number as it is declared. -/
def declaration (number : Nat) : TypeHandle := ⟨number, []⟩

/-- The same type with its type arguments forgotten. -/
def asDeclaration (handle : TypeHandle) : TypeHandle := declaration handle.number

end TypeHandle

namespace Arena

/-- Why nothing comes of a computation in an arena. -/
inductive Failure where
  /-- The definitions have an error. -/
  | refused (error : Error)
  /-- A number leads nowhere. -/
  | dangling

/-- The result of reading definitions, whose errors are the only failures. -/
def accept {α : Type} (result : Except Error α) : Except Failure α :=
  result.mapError .refused

/-- What a number leads to. -/
def follow {α : Type} (targets : List α) (number : Nat) : Except Failure α :=
  match targets[number]? with
  | some target => .ok target
  | none => .error .dangling

section Lookup

variable (arena : Arena)

/-- The class of a number. -/
def classAt (number : Nat) : Except Failure ClassRecord := follow arena.classes number

/-- The method of a number. -/
def methodAt (number : Nat) : Except Failure MethodEntry := follow arena.methods number

/-- What the class of a name declares about itself, if the table knows the name. -/
def header? (name : String) : Except Failure (Option ClassHeader) :=
  match arena.numbers.lookup name with
  | none => return none
  | some number => do return some (← arena.classAt number).toClassHeader

/-- The number of the super class of a class, if the table knows its name. -/
def superNumber (number : Nat) : Except Failure (Option Nat) := do
  let record ← arena.classAt number
  return record.superReference.bind fun reference => arena.numbers.lookup reference.name

/-! ## Handles -/

/-- The declaration of the type of a name. -/
def find? (name : String) : Option TypeHandle :=
  (arena.numbers.lookup name).map .declaration

/-- The view that a handle stands for. -/
def view (handle : TypeHandle) : Except Failure TypeView := do
  let record ← arena.classAt handle.number
  let methods ← record.methods.mapM arena.methodAt
  return ⟨⟨record.toClassHeader, record.superReference, methods⟩, handle.bindings⟩

/-- The super class of a type as the type extends it, if its name is known. -/
def superType (handle : TypeHandle) : Except Failure (Option TypeHandle) := do
  let view ← arena.view handle
  match view.entry.superReference with
  | none => return none
  | some reference =>
      match arena.numbers.lookup reference.name with
      | none => return none
      | some number =>
          let parameters := (← arena.classAt number).typeParameters.map (·.name)
          return some ⟨number, parameters.zip (reference.arguments.map (view.erase none))⟩

/-- The methods that a type declares. -/
def methodHandles (handle : TypeHandle) : Except Failure (List MethodHandle) := do
  let record ← arena.classAt handle.number
  return record.methods.map fun number => ⟨handle, number⟩

/-- The method that a handle stands for. -/
def methodView (handle : MethodHandle) : Except Failure MethodView := do
  let owner ← arena.view handle.owner
  let entry ← arena.methodAt handle.number
  return ⟨owner, entry⟩

/-! ## Checks -/

/-- Refuses the hierarchy for a cycle that is entered at a class. -/
def refuseCycle (number : Nat) : Except Failure Unit := do
  let record ← arena.classAt number
  throw (.refused (.cyclicHierarchy record.name))

/-- Follows super classes from a class, given those already passed, and refuses the hierarchy if a
class is met a second time.  The budget is the number of classes that may still be met for the
first time. -/
def climb : Nat → List Nat → Nat → Except Failure Unit
  | 0, _, number => arena.refuseCycle number
  | budget + 1, visited, number =>
      if number ∈ visited then arena.refuseCycle number
      else do
        match ← arena.superNumber number with
        | none => return ()
        | some super => climb budget (number :: visited) super

/-- Refuses a hierarchy in which super classes lead into a cycle. -/
def checkAcyclic : Except Failure Unit :=
  forM (List.range arena.classes.length) (arena.climb arena.classes.length [])

/-- Refuses a list of methods in which a token occurs twice, given the tokens seen before. -/
def checkTokens : List MethodToken → List MethodHandle → Except Failure Unit
  | _, [] => return ()
  | seen, handle :: rest => do
      let method ← arena.methodView handle
      if method.token ∈ seen then
        throw (.refused (.duplicateMethod method.owner.name method.signature))
      else
        checkTokens (method.token :: seen) rest

/-- Refuses a hierarchy in which a type declares two methods with one token. -/
def checkMethods : Except Failure Unit :=
  forM (List.range arena.classes.length) fun number => do
    arena.checkTokens [] (← arena.methodHandles (.declaration number))

end Lookup

/-! ## Super classes -/

section SuperClass

variable (arena : Arena)

/-- Checks that an expression can be the super class of a class.  The class at the head of the
expression is the one to which the table leads. -/
def superReferenceOf (className : String) (t : TypeExpr) : Except Failure SuperReference := do
  let target ← match t.headName? with
    | some name => arena.header? name
    | none => pure none
  accept (ClassHeader.superReferenceOf target.toList className t)

/-- The super class of a definition.  No class is looked at unless the definition names one. -/
def readSuperReference (definition : ClassDef) : Except Failure (Option SuperReference) :=
  match definition.kind, definition.extending with
  | .class, some signature => do
      let t ← accept (withContext ("Invalid super type of '" ++ definition.name ++ "'")
        (readType signature))
      let scope := definition.typeParameters.map (·.name)
      return some (← arena.superReferenceOf definition.name (t.resolve scope.contains))
  | _, _ => accept (ClassHeader.readSuperReference [] definition)

end SuperClass

/-! ## Filling an arena -/

/-- A step in filling an arena. -/
abbrev Filling (α : Type) : Type := StateT Arena (Except Failure) α

/-- Stores the class of a definition. -/
def register (definition : ClassDef) : Filling Unit := do
  let arena ← get
  if (arena.numbers.lookup definition.name).isSome then
    throw (.refused (.duplicateType definition.name))
  else
    let header ← accept (ClassHeader.ofDefinition definition)
    set { arena with
      classes := arena.classes ++ [ClassRecord.ofHeader header]
      numbers := arena.numbers ++ [(definition.name, arena.classes.length)] }

/-- Stores a method of the class of a number, and gives it the next number. -/
def addMethod (number : Nat) (definition : MethodDef) : Filling Nat := do
  let arena ← get
  let record ← arena.classAt number
  let entry ← accept (record.readMethod definition)
  set { arena with methods := arena.methods ++ [entry] }
  return arena.methods.length

/-- Completes the class of a number with the super class and the methods of its definition. -/
def complete (definition : ClassDef) (number : Nat) : Filling Unit := do
  let superReference ← (← get).readSuperReference definition
  let methods ← definition.methods.mapM (addMethod number)
  let arena ← get
  let record ← arena.classAt number
  set { arena with
    classes := arena.classes.set number ⟨record.toClassHeader, superReference, methods⟩ }

/-- Stores all classes, then completes them. -/
def fill (definitions : List ClassDef) : Filling Unit := do
  forM definitions register
  forM definitions.zipIdx fun (definition, number) => complete definition number

/-- Builds and checks the arena of a list of definitions. -/
def ofDefinitions (definitions : List ClassDef) : Except Failure Arena := do
  let ((), arena) ← (fill (ClassPool.withRoot definitions)).run ⟨[], [], []⟩
  arena.checkAcyclic
  arena.checkMethods
  return arena

end Arena

end BridgeMethods
