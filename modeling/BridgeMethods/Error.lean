import BridgeMethods.TypeExpr.Parser

/-!
# Errors

What can go wrong when a class pool is built, a document is read, settings are loaded or methods are
classified.  Each error is a cause with the names that it is about; `Error.message` gives the
wording of all of them.
-/

namespace BridgeMethods

/-- Why the operating system refuses an access to a file. -/
inductive FileFault where
  | notFound
  | notADirectory
  | isADirectory
  | nameTooLong
  | notText
  | nulInName
  | other (message : String)
  deriving DecidableEq, Repr

/-- The wording of a refused file access. -/
def FileFault.message : FileFault → String
  | .notFound => "No such file or directory (os error 2)"
  | .notADirectory => "Not a directory (os error 20)"
  | .isADirectory => "Is a directory (os error 21)"
  | .nameTooLong => "File name too long (os error 36)"
  | .notText => "stream did not contain valid UTF-8"
  | .nulInName => "file name contained an unexpected NUL byte"
  | .other message => message

/-- An error of the library. -/
inductive Error where
  /-- A file could not be read or written; `path` is the file and `fault` the system's reason. -/
  | fileSystem (message : String) (path : Option String) (fault : Option FileFault)
  /-- A text is not a type expression. -/
  | invalidSignature (signature reason : String)
  /-- A super class that no definition names. -/
  | unknownType (name : String)
  /-- Two definitions of one name. -/
  | duplicateType (name : String)
  /-- Two methods of one type with the same erased signature. -/
  | duplicateMethod (typeName signature : String)
  /-- A type expression that cannot be the super class of the named type. -/
  | invalidSuperType (typeName reason : String)
  /-- A generic super class with the wrong number of type arguments. -/
  | typeArgumentMismatch (typeName : String) (expected found : Nat)
  /-- A class that is its own ancestor. -/
  | cyclicHierarchy (name : String)
  /-- A name that denotes no method sort. -/
  | unknownSort (name : String)
  | configuration (message : String)
  /-- An error told together with what was being done. -/
  | withContext (context message : String)
  /-- A text is not a JSON document of the expected shape. -/
  | json
  /-- A text is not a TOML document of the expected shape. -/
  | toml
  deriving DecidableEq, Repr

namespace Error

/-- The wording of an error. -/
def message : Error → String
  | .fileSystem message _ _ => "File system error: " ++ message
  | .invalidSignature signature reason =>
      "Invalid type signature '" ++ signature ++ "': " ++ reason
  | .unknownType name => "Unknown type '" ++ name ++ "'"
  | .duplicateType name => "Type '" ++ name ++ "' is defined more than once"
  | .duplicateMethod typeName signature =>
      "Type '" ++ typeName ++ "' declares '" ++ signature ++ "' more than once"
  | .invalidSuperType typeName reason =>
      "Invalid super type for '" ++ typeName ++ "': " ++ reason
  | .typeArgumentMismatch typeName expected found =>
      "Type '" ++ typeName ++ "' declares " ++ toString expected ++ " type parameter(s) but "
        ++ toString found ++ " were given"
  | .cyclicHierarchy name => "Cyclic inheritance involving '" ++ name ++ "'"
  | .unknownSort name => "Unknown method sort '" ++ name ++ "'"
  | .configuration message => "Configuration error: " ++ message
  | .withContext context message => context ++ ": " ++ message
  | .json => "malformed JSON document"
  | .toml => "malformed TOML document"

/-- The same error told together with what was being done. -/
def addContext (error : Error) (context : String) : Error :=
  .withContext context error.message

/-- The wording of the cause that an error was made from, if it keeps one. -/
def source? : Error → Option String
  | .fileSystem _ _ (some fault) => some fault.message
  | _ => none

/-- The error that a faulty type expression gives. -/
def ofSyntax (signature : String) (error : TypeExpr.SyntaxError) : Error :=
  .invalidSignature signature error.message

end Error

/-- The same result, with every error told together with what was being done. -/
def withContext {α : Type} (context : String) (result : Except Error α) : Except Error α :=
  result.mapError (·.addContext context)

end BridgeMethods
